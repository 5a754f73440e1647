import LanguageServer.Proofs.Frame.Encode
import LanguageServer.Proofs.Frame.Noise

namespace LanguageServer

namespace Header

variable {n : Nat}

/-- A header that is all there is never refused for being too long. -/
theorem contentLength_ne_headerTooLarge (header : Bytes) :
    contentLength header ≠ .error .headerTooLarge := by
  intro h
  rcases contentLength_error_cases h with he | he | ⟨v, he⟩ <;> cases he

/-- Ends of line before a header do not change what it says, and neither does half of one. -/
theorem lengthTexts_drop_lineEnds (k n : Nat) {d : Nat} (hd : 1 ≤ d) :
    lengthTexts ((lineEnd ++ lineEnd).drop d ++ ofLength k n) = [Nat.toDigits 10 n] := by
  match d with
  | 1 =>
    have := lengthTexts_append_lineEnd ['\n'] (ofLength k n)
    rw [lengthTexts_ofLength] at this
    exact this
  | 2 =>
    have := lengthTexts_append_lineEnd [] (ofLength k n)
    rw [lengthTexts_ofLength] at this
    exact this
  | 3 =>
    have hline : ¬ lineEnd <:+: '\n' :: ofLength k n := by
      rw [List.infix_cons_iff]
      intro h
      rcases h with hprefix | hinfix
      · exact absurd (List.cons_prefix_cons.mp hprefix).1 (by decide)
      · exact not_infix_ofLength k n hinfix
    change lengthTexts ('\n' :: ofLength k n) = _
    rw [lengthTexts_line hline, ← lengthText?_dropWhile,
      List.dropWhile_cons_of_pos (by decide), lengthText?_dropWhile, lengthText?_ofLength]
    rfl
  | d + 4 =>
    rw [List.drop_eq_nil_of_le (by simp [lineEnd]), List.nil_append, lengthTexts_ofLength]

end Header

namespace Frame

open Header (contentLength ofLength)

variable {b g h w : Bytes} {e : FramingError} {c d i : Nat}

theorem length_terminator : terminator.length = 4 := rfl

theorem ofChars_drop_lineEnds (d : Nat) :
    Bytes.ofChars ((Header.lineEnd ++ Header.lineEnd).drop d) = terminator.drop d := by
  have hascii : ∀ c ∈ Header.lineEnd ++ Header.lineEnd, c.toNat < 128 := by simp [Header.lineEnd]
  rw [Bytes.ofChars_eq_map fun c hc => hascii c (List.mem_of_mem_drop hc), List.map_drop]
  rfl

theorem not_mem_name {x : UInt8} (hx : x ∈ terminator) : Bytes.lower x ∉ headerName := by
  have all : ∀ x ∈ terminator, Bytes.lower x ∉ headerName := by
    simp [terminator, headerName_eq, Bytes.lower]
  exact all x hx

/-- No name of the length header reaches into a terminator. -/
theorem startsName_append_terminator (hg : startsName g = false) (more : Bytes) :
    startsName (g ++ terminator ++ more) = false := by
  by_contra hname
  have hname' : startsName (g ++ terminator ++ more) = true := by simpa using hname
  rcases Nat.lt_or_ge g.length headerName.length with hlt | hge
  · have hat : (g ++ terminator ++ more)[g.length]? = some 13 := by
      rw [List.append_assoc, List.getElem?_append_right (Nat.le_refl _), Nat.sub_self]
      rfl
    have hmem : Bytes.lower 13 ∈ headerName := by
      rw [← startsName_iff_take.mp hname']
      apply List.mem_map_of_mem
      apply List.mem_of_getElem? (i := g.length)
      rw [List.getElem?_take_of_lt hlt, hat]
    exact not_mem_name (by simp [terminator]) hmem
  · rw [List.append_assoc] at hname'
    rw [ofFirst_startsName.of_append hname' hge] at hg
    cases hg

theorem startsName_drop_terminator (hd : d < terminator.length) (more : Bytes) :
    startsName (terminator.drop d ++ more) = false := by
  by_contra hname
  have hname' : startsName (terminator.drop d ++ more) = true := by simpa using hname
  rw [List.drop_eq_getElem_cons hd, List.cons_append] at hname'
  have hmem : terminator[d] ∈ terminator := List.getElem_mem hd
  apply not_mem_name hmem
  rw [startsName_head hname', headerName_eq]
  exact List.mem_cons_self

/-- A header block that is refused with `e` as soon as it is all there. -/
structure Refused (h : Bytes) (e : FramingError) : Prop where
  find : Bytes.find terminator (h ++ terminator) = some h.length
  length_le : h.length ≤ maxHeaderLength
  split : Frame.split (h ++ terminator) = .error e

theorem Refused.find_append (hh : Refused h e) (more : Bytes) :
    Bytes.find terminator (h ++ terminator ++ more) = some h.length :=
  find_terminator_append hh.find more

theorem Refused.split_append (hh : Refused h e) (more : Bytes) :
    Frame.split (h ++ terminator ++ more) = .error e :=
  split_append_of_error hh.split hh.find more

theorem Refused.ne_headerTooLarge (hh : Refused h e) : e ≠ .headerTooLarge := by
  rintro rfl
  have hsplit := hh.split
  rw [Frame.split, hh.find] at hsplit
  dsimp only at hsplit
  rw [if_neg (by have := hh.length_le; omega), List.take_left] at hsplit
  cases hc : contentLength h with
  | error e =>
    rw [hc] at hsplit
    cases hsplit
    exact Header.contentLength_ne_headerTooLarge h hc
  | ok n =>
    rw [hc] at hsplit
    dsimp only at hsplit
    split at hsplit
    · cases hsplit
    · split at hsplit <;> cases hsplit

/-- Before the block is all there, nothing in it is taken for its end. -/
theorem Refused.find_prefix {rest more : Bytes} (hh : Refused h e)
    (hb : b ++ rest = h ++ terminator ++ more) (hlt : b.length < h.length + terminator.length) :
    Bytes.find terminator b = none := by
  cases hfind : Bytes.find terminator b with
  | none => rfl
  | some i =>
    have hi := find_terminator_append hfind rest
    rw [hb, hh.find_append more] at hi
    cases hi
    have := find_terminator_le hfind
    omega

/-- In a block without a further name there is none up to what comes behind it. -/
theorem startsName_drop_block (hh : NoneLater h) (hi : 1 ≤ i)
    (hlt : i < h.length + terminator.length) (more : Bytes) :
    startsName ((h ++ terminator ++ more).drop i) = false := by
  rcases Nat.lt_or_ge h.length i with hlater | hle
  · obtain ⟨d, rfl⟩ : ∃ d, i = h.length + d := ⟨i - h.length, by omega⟩
    rw [List.append_assoc, List.drop_append, List.drop_eq_nil_of_le (by omega), List.nil_append,
      Nat.add_sub_cancel_left, List.drop_append_of_le_length (by omega)]
    exact startsName_drop_terminator (by omega) more
  · rw [List.append_assoc, List.drop_append_of_le_length hle, ← List.append_assoc]
    exact startsName_append_terminator (hh i hi) more

theorem startsName_take_iff {n : Nat} :
    startsName (b.take n) = true ↔ startsName b = true ∧ headerName.length ≤ n := by
  constructor
  · intro hname
    have hroom := ofFirst_startsName.length_le hname
    rw [List.length_take] at hroom
    have hall := ofFirst_startsName.append hname (b.drop n)
    rw [List.take_append_drop] at hall
    exact ⟨hall, by omega⟩
  · intro hname
    obtain ⟨hall, hn⟩ := hname
    have hroom := ofFirst_startsName.length_le hall
    rw [← List.take_append_drop n b] at hall
    apply ofFirst_startsName.of_append hall
    rw [List.length_take]
    omega

/-- Where reading goes on after a block without a further name, when `c` bytes have been read: at
what comes behind the block, if the reads have brought the name of the length header there. -/
theorem resync_take_block (hh : NoneLater h) (hw : AtName w)
    (hc : h.length + terminator.length ≤ c) (hle : c ≤ (h ++ terminator ++ w).length) :
    resync ((h ++ terminator ++ w).take c) =
      min (h.length + terminator.length) (max (c - (headerName.length - 1)) 1) := by
  have hname := length_headerName
  have hterm := length_terminator
  have hlen : ((h ++ terminator ++ w).take c).length = c := List.length_take_of_le hle
  have hne : (h ++ terminator ++ w).take c ≠ [] := by
    intro hnil
    rw [hnil, List.length_nil] at hlen
    omega
  -- No name begins before what comes behind the block, and one begins there if anything does.
  have hbefore (j : Nat) (hj : 1 ≤ j) (hlt : j < h.length + terminator.length) :
      startsName (((h ++ terminator ++ w).take c).drop j) = false := by
    by_contra hstart
    rw [Bool.not_eq_false, List.drop_take, startsName_take_iff, startsName_drop_block hh hj hlt]
      at hstart
    cases hstart.1
  have hbehind (hroom : h.length + terminator.length + headerName.length ≤ c) :
      startsName (((h ++ terminator ++ w).take c).drop (h.length + terminator.length)) = true := by
    rw [List.drop_take, startsName_take_iff, List.drop_left' List.length_append]
    refine ⟨?_, by omega⟩
    rcases hw with rfl | hw
    · rw [List.append_nil, List.length_append] at hle
      omega
    · exact hw
  rcases resync_cases hne with ⟨hstart, hfirst⟩ | ⟨hnone, heq⟩
  · have hpos := resync_pos hne
    have hroom := ofFirst_startsName.length_le hstart
    rw [List.length_drop, hlen] at hroom
    have hge : h.length + terminator.length ≤ resync ((h ++ terminator ++ w).take c) := by
      by_contra hlt
      rw [hbefore _ hpos (by omega)] at hstart
      cases hstart
    have hstart' := hbehind (by omega)
    have heq : resync ((h ++ terminator ++ w).take c) = h.length + terminator.length := by
      by_contra hlt
      rw [hfirst _ (by omega) (by omega)] at hstart'
      cases hstart'
    omega
  · have hroom : c < h.length + terminator.length + headerName.length := by
      by_contra hle'
      have := hbehind (by omega)
      rw [hnone _ (by omega)] at this
      cases this
    rw [heq, hlen]
    omega

/-- The first name of the length header that begins in a block behind its first byte. -/
structure InnerName (h : Bytes) (k : Nat) : Prop where
  pos : 1 ≤ k
  name : startsName (h.drop k) = true
  before : ∀ j, 1 ≤ j → j < k → startsName (h.drop j) = false

theorem exists_innerName (hh : ¬ NoneLater h) : ∃ k, InnerName h k := by
  have hname : ∃ k, 1 ≤ k ∧ startsName (h.drop k) = true := by
    simpa [NoneLater] using hh
  obtain ⟨hpos, hk⟩ := Nat.find_spec hname
  refine ⟨Nat.find hname, hpos, hk, ?_⟩
  intro j hj hlt
  have := Nat.find_min hname hlt
  simpa [hj] using this

theorem InnerName.room {k : Nat} (hk : InnerName h k) : k + headerName.length ≤ h.length := by
  have := ofFirst_startsName.length_le hk.name
  have := ofFirst_startsName.1
  rw [List.length_drop] at *
  omega

/-- Reading goes on at a further name in the block, however much comes behind the block. -/
theorem InnerName.resync_append {k : Nat} (hk : InnerName h k) (more : Bytes) :
    resync (h ++ more) = k := by
  have hroom := hk.room
  apply resync_eq_of_startsName hk.pos
  · rw [List.drop_append_of_le_length (by omega)]
    exact ofFirst_startsName.append hk.name more
  · intro j hj hlt
    rw [List.drop_append_of_le_length (by omega)]
    by_contra hstart
    have := ofFirst_startsName.of_append (eq_true_of_ne_false hstart)
      (by rw [List.length_drop]; omega)
    rw [hk.before j hj hlt] at this
    cases this

/-- What is left of a block without a further name is refused by itself. -/
theorem exists_split_drop_block (hh : Refused h e) (hnone : NoneLater h) (hi : 1 ≤ i)
    (hle : i ≤ h.length) (more : Bytes) :
    ∃ error, Frame.split ((h ++ terminator ++ more).drop i) = .error error := by
  have hfind := find_terminator_drop (hh.find_append more) hle
  have htake : ((h ++ terminator ++ more).drop i).take (h.length - i) = h.drop i := by
    rw [List.append_assoc, List.drop_append_of_le_length hle, List.take_left' List.length_drop]
  cases hc : contentLength (h.drop i) with
  | error error =>
    refine ⟨error, split_of_contentLength hfind ?_ (by rw [htake, hc])⟩
    have := hh.length_le
    omega
  | ok n =>
    obtain ⟨q, hq, -⟩ := exists_decisive hc
    rw [List.drop_drop, hnone (i + q) (by omega)] at hq
    cases hq

theorem find_terminator_of_append {more : Bytes}
    (hb : Bytes.find terminator (b ++ more) = none) : Bytes.find terminator b = none := by
  cases hfind : Bytes.find terminator b with
  | none => rfl
  | some i =>
    rw [find_terminator_append hfind] at hb
    cases hb

theorem find_terminator_append_of_startsName {e : Nat} (hg : Bytes.find terminator g = none)
    (hw : startsName w = true) (he : Bytes.find terminator w = some e) :
    Bytes.find terminator (g ++ w) = some (g.length + e) := by
  cases hfind : Bytes.find terminator (g ++ w) with
  | none =>
    have := Bytes.findFrom_drop_eq_none (i := g.length) hfind
    rw [List.drop_left] at this
    rw [Bytes.find, this] at he
    cases he
  | some i =>
    have hle := length_le_of_find_terminator_append hg (.inr hw) hfind
    have hdrop := find_terminator_drop hfind hle
    rw [List.drop_left, he, Option.some_inj] at hdrop
    rw [Option.some_inj]
    omega

theorem find_terminator_drop_terminator (hd : 1 ≤ d) :
    Bytes.find terminator (terminator.drop d) = none := by
  cases hfind : Bytes.find terminator (terminator.drop d) with
  | none => rfl
  | some i =>
    have := find_terminator_le hfind
    rw [List.length_drop, length_terminator] at this
    omega

/-- The end of a terminator before a frame goes with its header. -/
theorem declares_drop_terminator (hd : 1 ≤ d) {body : Bytes} (hbody : body.length ≤ maxBodyLength)
    (more : Bytes) :
    Declares (terminator.drop d ++ (encode body ++ more))
      ((terminator.drop d).length + (Bytes.ofChars (ofLength 1 body.length)).length)
      body.length where
  find := find_terminator_append_of_startsName (find_terminator_drop_terminator hd)
    (startsName_encode body more) (declares_encode hbody more).find
  end_le := by
    have hshort := Header.length_ofLength_le 1 hbody
    have hterm := length_terminator
    have hmax : maxHeaderLength = 8192 := rfl
    rw [List.length_drop]
    omega
  length := by
    rw [encode_eq, List.append_assoc, List.append_assoc, ← List.append_assoc,
      List.take_left' List.length_append, ← ofChars_drop_lineEnds, ← Bytes.ofChars_append]
    exact Header.contentLength_of_lengthTexts (hbody.trans_lt (by decide))
      (Header.lengthTexts_drop_lineEnds 1 body.length hd)
  length_le := hbody

theorem Declares.split_append_left {e n : Nat} {f : Frame} (hw : Declares w e n)
    (hgw : Declares (g ++ w) (g.length + e) n) (h : Frame.split w = .ok (some f)) :
    Frame.split (g ++ w) = .ok (some ⟨f.body, g.length + f.consumed⟩) := by
  rw [hw.split] at h
  split at h
  · cases h
  · cases h
    rw [hgw.split, if_neg (by rw [List.length_append]; omega)]
    have hstart : (g ++ w).drop (g.length + e + terminator.length) =
        w.drop (e + terminator.length) := by
      rw [Nat.add_assoc, ← List.drop_drop, List.drop_left]
    rw [cutAt, cutAt, hstart]
    simp only [Nat.add_assoc]

/-- A frame is read whole when the end of a terminator comes before it. -/
theorem split_drop_terminator (hd : 1 ≤ d) {body : Bytes} (hbody : body.length ≤ maxBodyLength)
    (more : Bytes) :
    Frame.split (terminator.drop d ++ (encode body ++ more)) =
      .ok (some ⟨body, (terminator.drop d).length + (encode body).length⟩) :=
  (declares_encode hbody more).split_append_left (declares_drop_terminator hd hbody more)
    (split_encode hbody more)

end Frame

end LanguageServer
