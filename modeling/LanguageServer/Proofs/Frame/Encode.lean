import LanguageServer.Proofs.Frame.Split
import LanguageServer.Proofs.Numeral

namespace LanguageServer

namespace Header

/-- The name of the length header as it is written, with its colon. -/
def writtenName : List Char := "Content-Length:".toList

theorem writtenName_eq : writtenName =
    ['C', 'o', 'n', 't', 'e', 'n', 't', '-', 'L', 'e', 'n', 'g', 't', 'h', ':'] := by decide

/-- A header that declares `n` bytes, with `k` spaces before the number. -/
def ofLength (k n : Nat) : List Char :=
  writtenName ++ (List.replicate k ' ' ++ Nat.toDigits 10 n)

variable {k n : Nat}

theorem toNat_of_mem_toDigits {c : Char} (h : c ∈ Nat.toDigits 10 n) :
    48 ≤ c.toNat ∧ c.toNat ≤ 57 := by
  have hdigit := Nat.isDigit_of_mem_toDigits (by decide) (by decide) h
  simp only [Char.isDigit, Bool.and_eq_true, decide_eq_true_eq] at hdigit
  exact ⟨UInt32.le_iff_toNat_le.mp hdigit.1, UInt32.le_iff_toNat_le.mp hdigit.2⟩

theorem isBlank_of_mem_toDigits {c : Char} (h : c ∈ Nat.toDigits 10 n) :
    Text.isBlank c = false := by
  have all : ∀ m < 58, 48 ≤ m → Text.isBlank (Char.ofNat m) = false := by decide
  have hc := toNat_of_mem_toDigits h
  have := all c.toNat (by omega) hc.1
  rwa [Char.ofNat_toNat] at this

theorem mem_ofLength {c : Char} (h : c ∈ ofLength k n) :
    c ∈ writtenName ∨ c = ' ' ∨ c ∈ Nat.toDigits 10 n := by
  simp only [ofLength, List.mem_append, List.mem_replicate] at h
  rcases h with h | ⟨-, h⟩ | h
  · exact .inl h
  · exact .inr (.inl h)
  · exact .inr (.inr h)

theorem toNat_of_mem_ofLength {c : Char} (h : c ∈ ofLength k n) :
    c.toNat < 128 ∧ c.toNat ≠ 13 := by
  rcases mem_ofLength h with h | rfl | h
  · have all : ∀ c ∈ writtenName, c.toNat < 128 ∧ c.toNat ≠ 13 := by simp [writtenName_eq]
    exact all c h
  · decide
  · have := toNat_of_mem_toDigits h
    omega

theorem ofChars_ofLength (k n : Nat) :
    Bytes.ofChars (ofLength k n) = (ofLength k n).map fun c => UInt8.ofNat c.toNat :=
  Bytes.ofChars_eq_map fun _ hc => (toNat_of_mem_ofLength hc).1

theorem length_ofLength (k n : Nat) :
    (Bytes.ofChars (ofLength k n)).length = 15 + k + (Nat.toDigits 10 n).length := by
  have hname : writtenName.length = 15 := by
    rw [writtenName_eq]
    rfl
  rw [ofChars_ofLength, List.length_map, ofLength, List.length_append, hname,
    List.length_append, List.length_replicate, Nat.add_assoc]

theorem field?_ofLength (k n : Nat) : field? (ofLength k n) =
    some (writtenName.dropLast, List.replicate k ' ' ++ Nat.toDigits 10 n) := by
  rw [ofLength, writtenName_eq]
  rfl

theorem map_toLower_writtenName : writtenName.dropLast.map Char.toLower = lengthName := by
  rw [writtenName_eq, lengthName_eq]
  decide

theorem named_ofLength (k n : Nat) : Named (ofLength k n) := by
  refine ⟨writtenName.dropLast, ':' :: (List.replicate k ' ' ++ Nat.toDigits 10 n), ?_,
    map_toLower_writtenName⟩
  rw [ofLength, writtenName_eq]
  rfl

theorem trim_replicate_append (k : Nat) (cs : List Char) :
    Text.trim (List.replicate k ' ' ++ cs) = Text.trim cs := by
  induction k with
  | zero => rfl
  | succ k ih =>
    rw [List.replicate_succ, List.cons_append, trim_cons (by decide), ih]

theorem lengthText?_ofLength (k n : Nat) :
    lengthText? (ofLength k n) = some (Nat.toDigits 10 n) := by
  have hname : Text.trim writtenName.dropLast = writtenName.dropLast := by
    rw [writtenName_eq]
    decide
  have htrim : Text.trim (Nat.toDigits 10 n) = Nat.toDigits 10 n := by
    apply Text.trim_eq_self
    · intro c hc
      exact isBlank_of_mem_toDigits (List.mem_of_head? hc)
    · intro c hc
      exact isBlank_of_mem_toDigits (List.mem_of_getLast? hc)
  rw [lengthText?, field?_ofLength]
  dsimp only
  rw [hname, if_pos map_toLower_writtenName, trim_replicate_append, htrim]

theorem not_infix_ofLength (k n : Nat) : ¬ lineEnd <:+: ofLength k n := by
  intro hi
  have := (toNat_of_mem_ofLength (hi.subset (show '\r' ∈ lineEnd by decide))).2
  exact absurd rfl this

theorem lengthTexts_ofLength (k n : Nat) : lengthTexts (ofLength k n) = [Nat.toDigits 10 n] := by
  rw [lengthTexts_line (not_infix_ofLength k n), lengthText?_ofLength]
  rfl

theorem contentLength_of_lengthTexts {cs : List Char} (h : n < lengthBound)
    (hcs : lengthTexts cs = [Nat.toDigits 10 n]) : contentLength (Bytes.ofChars cs) = .ok n := by
  have hread : readLength (Nat.toDigits 10 n) = .ok n := by
    rw [readLength, Numeral.read_toDigits h]
  rw [Frame.contentLength_ofChars]
  exact declared_of_lengthTexts hcs hread

theorem contentLength_ofLength (k : Nat) (h : n < lengthBound) :
    contentLength (Bytes.ofChars (ofLength k n)) = .ok n :=
  contentLength_of_lengthTexts h (lengthTexts_ofLength k n)

theorem length_toDigits_le (h : n ≤ maxBodyLength) : (Nat.toDigits 10 n).length ≤ 8 := by
  rw [Nat.length_toDigits_le_iff (by decide) (by decide)]
  unfold maxBodyLength at h
  omega

theorem length_ofLength_le (k : Nat) (h : n ≤ maxBodyLength) :
    (Bytes.ofChars (ofLength k n)).length ≤ 23 + k := by
  have := length_toDigits_le h
  rw [length_ofLength]
  omega

end Header

namespace Frame

open Header (ofLength)

theorem encode_eq (body : Bytes) :
    encode body = Bytes.ofChars (ofLength 1 body.length) ++ terminator ++ body := by
  have hend : Bytes.ofText "\r\n\r\n" = terminator := by decide +kernel
  change Bytes.ofText (toString "Content-Length: " ++ toString body.length ++
    toString "\r\n\r\n") ++ body = _
  rw [Bytes.ofText_append, Bytes.ofText_append]
  change Bytes.ofText "Content-Length: " ++ Bytes.ofText body.length.repr ++
    Bytes.ofText "\r\n\r\n" ++ body = _
  rw [hend, Bytes.ofText_eq_ofChars, Bytes.ofText_eq_ofChars, Nat.toList_repr,
    ← Bytes.ofChars_append]
  rfl

theorem find_terminator_of_not_mem {h : Bytes} (hh : 13 ∉ h) (more : Bytes) :
    Bytes.find terminator (h ++ terminator ++ more) = some h.length := by
  refine Bytes.findFrom_zero_eq_some_iff.mpr ⟨?_, ?_, ?_⟩
  · simp [terminator]
  · rw [List.append_assoc, List.drop_left, List.isPrefixOf_iff_prefix]
    exact List.prefix_append _ _
  · intro m hm
    have hne : (13 : UInt8) ≠ h[m] := fun heq => hh (heq ▸ List.getElem_mem hm)
    rw [List.append_assoc, List.drop_append_of_le_length hm.le, List.drop_eq_getElem_cons hm,
      List.cons_append, terminator, List.isPrefixOf_cons_cons, beq_false_of_ne hne]
    rfl

theorem find_terminator_ofLength (k n : Nat) (more : Bytes) :
    Bytes.find terminator (Bytes.ofChars (ofLength k n) ++ terminator ++ more) =
      some (Bytes.ofChars (ofLength k n)).length := by
  apply find_terminator_of_not_mem
  rw [Header.ofChars_ofLength, List.mem_map]
  intro hmem
  obtain ⟨c, hc, hbyte⟩ := hmem
  have hc' := Header.toNat_of_mem_ofLength hc
  have := congrArg UInt8.toNat hbyte
  simp only [UInt8.toNat_ofNat', UInt8.reduceToNat] at this
  omega

theorem encode_injective {body body' : Bytes} (h : encode body = encode body') :
    body = body' := by
  have hheader := find_terminator_ofLength 1 body.length body
  rw [← encode_eq, h, encode_eq, find_terminator_ofLength, Option.some_inj] at hheader
  rw [encode_eq, encode_eq, List.append_assoc, List.append_assoc] at h
  exact List.append_cancel_left (List.append_inj h hheader.symm).2

theorem length_encode (body : Bytes) : (encode body).length =
    (Bytes.ofChars (ofLength 1 body.length)).length + terminator.length + body.length := by
  rw [encode_eq, List.length_append, List.length_append]

/-- What stands behind the header of a frame. -/
def content (frame : Bytes) : Bytes :=
  match Bytes.find terminator frame with
  | none => []
  | some headerEnd => frame.drop (headerEnd + terminator.length)

theorem content_encode (body : Bytes) : content (encode body) = body := by
  rw [content, encode_eq, find_terminator_ofLength]
  dsimp only
  rw [← List.length_append, List.drop_left]

/-- The header declares all that stands behind it, as far as lengths can be declared. -/
def IsWhole (frame : Bytes) : Prop :=
  frame.length < Header.lengthBound → declaredLength? frame = some frame.length

theorem isWhole_encode (body : Bytes) : IsWhole (encode body) := by
  intro hlt
  have hfind := find_terminator_ofLength 1 body.length body
  rw [← encode_eq] at hfind
  rw [length_encode] at hlt ⊢
  refine declaredLength?_of_contentLength hfind ?_ hlt
  rw [encode_eq, List.append_assoc, List.take_left]
  exact Header.contentLength_ofLength 1 (by omega)

theorem declares_encode {body : Bytes} (h : body.length ≤ maxBodyLength) (more : Bytes) :
    Declares (encode body ++ more) (Bytes.ofChars (ofLength 1 body.length)).length
      body.length where
  find := by
    rw [encode_eq, List.append_assoc]
    exact find_terminator_ofLength 1 body.length _
  end_le := by
    have hshort := Header.length_ofLength_le 1 h
    have hmax : maxHeaderLength = 8192 := rfl
    omega
  length := by
    rw [encode_eq, List.append_assoc, List.append_assoc, List.take_left]
    exact Header.contentLength_ofLength 1 (h.trans_lt (by decide))
  length_le := h

theorem split_encode {body : Bytes} (h : body.length ≤ maxBodyLength) (more : Bytes) :
    split (encode body ++ more) = .ok (some ⟨body, (encode body).length⟩) := by
  have hstart : ∀ x : Bytes, x.drop (Bytes.ofChars (Header.ofLength 1 body.length) ++
      terminator).length = x.drop ((Bytes.ofChars (Header.ofLength 1 body.length)).length +
        terminator.length) := by
    intro x
    rw [List.length_append]
  rw [(declares_encode h more).split, if_neg, cutAt, length_encode, encode_eq, List.append_assoc,
    ← hstart, List.drop_left, List.take_left]
  rw [← length_encode, List.length_append]
  omega

theorem startsName_ofLength (k n : Nat) : startsName (Bytes.ofChars (ofLength k n)) = true :=
  startsName_ofChars.mpr (Header.named_ofLength k n)

theorem startsName_encode (body more : Bytes) : startsName (encode body ++ more) = true := by
  rw [encode_eq, List.append_assoc, List.append_assoc]
  exact ofFirst_startsName.append (startsName_ofLength 1 body.length) _

end Frame

end LanguageServer
