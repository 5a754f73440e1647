import LanguageServer.Proofs.Frame.Name

namespace LanguageServer.Frame

open Header (contentLength)

variable {b : Bytes} {e n k : Nat}

theorem ofFirst_terminator : Bytes.OfFirst terminator.length terminator.isPrefixOf :=
  Bytes.ofFirst_isPrefixOf (by decide)

theorem find_terminator_append (h : Bytes.find terminator b = some e) (more : Bytes) :
    Bytes.find terminator (b ++ more) = some e :=
  ofFirst_terminator.findFrom_append h more

theorem find_terminator_le (h : Bytes.find terminator b = some e) :
    e + terminator.length ≤ b.length := by
  obtain ⟨hlt, hp, -⟩ := Bytes.findFrom_zero_eq_some_iff.mp h
  have := ofFirst_terminator.length_le hp
  rw [List.length_drop] at this
  omega

theorem find_terminator_drop (h : Bytes.find terminator b = some e) (hk : k ≤ e) :
    Bytes.find terminator (b.drop k) = some (e - k) :=
  Bytes.findFrom_drop h hk

/-- A terminator that only more bytes complete ends in them. -/
theorem lt_of_find_terminator_append (h : Bytes.find terminator b = none) {more : Bytes}
    (he : Bytes.find terminator (b ++ more) = some e) : b.length < e + terminator.length :=
  ofFirst_terminator.lt_of_findFrom_append h he

/-- A sound header of `e` bytes, which declares a body of `n` bytes, is at the start. -/
structure Declares (b : Bytes) (e n : Nat) : Prop where
  find : Bytes.find terminator b = some e
  end_le : e ≤ maxHeaderLength
  length : contentLength (b.take e) = .ok n
  length_le : n ≤ maxBodyLength

def cutAt (b : Bytes) (e n : Nat) : Frame :=
  ⟨(b.drop (e + terminator.length)).take n, e + terminator.length + n⟩

theorem Declares.split (h : Declares b e n) :
    split b = if b.length < e + terminator.length + n then .ok none
      else .ok (some (cutAt b e n)) := by
  rw [Frame.split, h.find]
  dsimp only
  rw [if_neg (by have := h.end_le; omega), h.length]
  dsimp only
  rw [if_neg (by have := h.length_le; omega)]
  split <;> rfl

theorem Declares.end_lt (h : Declares b e n) : e + terminator.length + n < 2 ^ 64 := by
  have hend : e ≤ 8192 := h.end_le
  have hlength : n ≤ 67108864 := h.length_le
  have hterminator : terminator.length = 4 := rfl
  omega

theorem declaredLength?_of_contentLength (hfind : Bytes.find terminator b = some e)
    (hlength : contentLength (b.take e) = .ok n)
    (hlt : e + terminator.length + n < Header.lengthBound) :
    declaredLength? b = some (e + terminator.length + n) := by
  simp only [declaredLength?, hfind, hlength]
  exact if_pos hlt

theorem Declares.declaredLength? (h : Declares b e n) :
    declaredLength? b = some (e + terminator.length + n) :=
  declaredLength?_of_contentLength h.find h.length h.end_lt

theorem Declares.eq_append (h : Declares b e n) :
    b = b.take e ++ terminator ++ (cutAt b e n).body ++
      b.drop (e + terminator.length + n) := by
  obtain ⟨-, hprefix, -⟩ := Bytes.findFrom_zero_eq_some_iff.mp h.find
  obtain ⟨rest, hrest⟩ := List.isPrefixOf_iff_prefix.mp hprefix
  have hdrop : b.drop (e + terminator.length) = rest := by
    rw [← List.drop_drop, ← hrest, List.drop_left]
  calc b = b.take e ++ b.drop e := (List.take_append_drop e b).symm
    _ = b.take e ++ (terminator ++ rest) := by rw [hrest]
    _ = b.take e ++ (terminator ++ (rest.take n ++ rest.drop n)) := by
      rw [List.take_append_drop]
    _ = b.take e ++ terminator ++ (cutAt b e n).body ++
        b.drop (e + terminator.length + n) := by
      rw [cutAt, hdrop, ← List.drop_drop, hdrop]
      simp only [List.append_assoc]

theorem split_of_length_lt (hfind : Bytes.find terminator b = some e) (he : maxHeaderLength < e) :
    split b = .error .headerTooLarge := by
  rw [split, hfind]
  exact if_pos he

theorem split_of_contentLength {error : FramingError}
    (hfind : Bytes.find terminator b = some e) (he : e ≤ maxHeaderLength)
    (h : contentLength (b.take e) = .error error) : split b = .error error := by
  rw [split, hfind]
  dsimp only
  rw [if_neg (by omega), h]

theorem split_of_find_none (hfind : Bytes.find terminator b = none) :
    split b = if maxHeaderLength < b.length then .error .headerTooLarge else .ok none := by
  rw [split, hfind]

/-- Bytes are given up as truncated only when no more can come. -/
theorem split_ne_truncated (b : Bytes) (expected received : Nat) :
    split b ≠ .error (.truncated expected received) := by
  intro h
  cases hfind : Bytes.find terminator b with
  | none =>
    rw [split_of_find_none hfind] at h
    split at h <;> cases h
  | some e =>
    unfold split at h
    rw [hfind] at h
    dsimp only at h
    split at h
    · cases h
    · split at h
      · rename_i hlength
        cases h
        rcases Header.contentLength_error_cases hlength with he | he | ⟨v, he⟩ <;> cases he
      · split at h
        · cases h
        · split at h <;> cases h

/-- What is read as a frame, or as the start of one, has a sound header or no full header yet. -/
theorem declares_of_split_ok {f : Option Frame} (h : split b = .ok f) :
    (Bytes.find terminator b = none ∧ b.length ≤ maxHeaderLength ∧ f = none) ∨
      ∃ e n, Declares b e n := by
  cases hfind : Bytes.find terminator b with
  | none =>
    rw [split_of_find_none hfind] at h
    left
    split at h
    · cases h
    · cases h
      exact ⟨rfl, by omega, rfl⟩
  | some e =>
    right
    unfold split at h
    rw [hfind] at h
    dsimp only at h
    split at h
    · cases h
    · rename_i he
      split at h
      · cases h
      · rename_i n hn
        split at h
        · cases h
        · rename_i hle
          exact ⟨e, n, hfind, by omega, hn, by omega⟩

/-- Bytes that wait for more have no full header and are not too long for one, or they are less than
the frame that they declare. -/
theorem wait_cases (h : split b = .ok none) :
    (Bytes.find terminator b = none ∧ b.length ≤ maxHeaderLength) ∨
      ∃ e n, Declares b e n ∧ b.length < e + terminator.length + n := by
  rcases declares_of_split_ok h with ⟨hfind, hlength, -⟩ | ⟨e, n, hd⟩
  · exact .inl ⟨hfind, hlength⟩
  · refine .inr ⟨e, n, hd, ?_⟩
    by_contra hle
    rw [hd.split, if_neg hle] at h
    cases h

theorem declares_of_split_some {f : Frame} (h : split b = .ok (some f)) :
    ∃ e n, Declares b e n ∧ e + terminator.length + n ≤ b.length ∧ f = cutAt b e n := by
  rcases declares_of_split_ok h with ⟨-, -, hf⟩ | ⟨e, n, hd⟩
  · cases hf
  · rw [hd.split] at h
    split at h
    · cases h
    · rename_i hle
      cases h
      exact ⟨e, n, hd, by omega, rfl⟩

theorem Declares.append (h : Declares b e n) (more : Bytes) : Declares (b ++ more) e n where
  find := find_terminator_append h.find more
  end_le := h.end_le
  length := by
    have := find_terminator_le h.find
    rw [List.take_append_of_le_length (by omega)]
    exact h.length
  length_le := h.length_le

theorem split_append_of_some {f : Frame} (h : split b = .ok (some f)) (more : Bytes) :
    split (b ++ more) = .ok (some f) := by
  obtain ⟨e, n, hd, hle, rfl⟩ := declares_of_split_some h
  rw [(hd.append more).split, if_neg (by rw [List.length_append]; omega)]
  rw [cutAt, cutAt, List.drop_append_of_le_length (by omega),
    List.take_append_of_le_length (by rw [List.length_drop]; omega)]

theorem split_append_of_error {error : FramingError} (h : split b = .error error)
    (hfind : Bytes.find terminator b = some e) (more : Bytes) :
    split (b ++ more) = .error error := by
  have hle := find_terminator_le hfind
  unfold split at h ⊢
  rw [hfind] at h
  rw [find_terminator_append hfind more]
  dsimp only at h ⊢
  rw [List.take_append_of_le_length (by omega)]
  split at h
  · rename_i he
    rw [if_pos he]
    exact h
  · rename_i he
    rw [if_neg he]
    split at h
    · exact h
    · rename_i n hn
      split at h
      · rename_i hbig
        rw [if_pos hbig]
        exact h
      · split at h <;> cases h

/-- The declared body comes from one name: from there the header declares the same body, and from
an earlier name it declares the same body or is refused. -/
theorem Declares.exists_decisive (h : Declares b e n) :
    ∃ q, q < e ∧ startsName (b.drop q) = true ∧
      ∀ p ≤ q, startsName (b.drop p) = true → Declares (b.drop p) (e - p) n ∨
        (p < q ∧ ∃ error, Frame.split (b.drop p) = .error error) := by
  have hle := find_terminator_le h.find
  obtain ⟨q, hq, hlength, hall⟩ := Frame.exists_decisive h.length
  have hqe : q + headerName.length ≤ e := by
    have := ofFirst_startsName.length_le hq
    rw [List.length_drop, List.length_take, length_headerName] at this
    rw [length_headerName]
    omega
  have hpos := ofFirst_startsName.1
  have hnamed (p : Nat) (hp : p ≤ q) :
      startsName (b.drop p) = true ↔ startsName ((b.take e).drop p) = true := by
    have hcut : b.drop p = (b.take e).drop p ++ b.drop e := by
      rw [← List.drop_append_of_le_length (by rw [List.length_take]; omega),
        List.take_append_drop]
    rw [hcut]
    constructor
    · intro hs
      refine ofFirst_startsName.of_append hs ?_
      rw [List.length_drop, List.length_take]
      omega
    · exact fun hs => ofFirst_startsName.append hs _
  refine ⟨q, by omega, (hnamed q (Nat.le_refl q)).mpr hq, ?_⟩
  intro p hp hs
  have hfind := find_terminator_drop h.find (show p ≤ e by omega)
  have htake : (b.drop p).take (e - p) = (b.take e).drop p := List.drop_take.symm
  have hend : e - p ≤ maxHeaderLength := by
    have := h.end_le
    omega
  cases hc : contentLength ((b.take e).drop p) with
  | ok m =>
    have hm := hall p hp ((hnamed p hp).mp hs) m hc
    subst hm
    exact .inl ⟨hfind, hend, by rw [htake, hc], h.length_le⟩
  | error error =>
    right
    refine ⟨?_, error, split_of_contentLength hfind hend (by rw [htake, hc])⟩
    by_contra hpq
    have hpq' : p = q := by omega
    subst hpq'
    rw [hlength] at hc
    cases hc

theorem Declares.exists_startsName (h : Declares b e n) :
    ∃ q < b.length, startsName (b.drop q) = true := by
  obtain ⟨q, hqe, hq, -⟩ := h.exists_decisive
  have := find_terminator_le h.find
  exact ⟨q, by omega, hq⟩

end LanguageServer.Frame
