namespace LanguageServer

/-- Bytes in the order in which they travel. -/
abbrev Bytes := List UInt8

namespace Bytes

/-- The UTF-8 form of a text. -/
def ofText (s : String) : Bytes := s.toByteArray.data.toList

/-- The text with this UTF-8 form. Ill-formed sequences, overlong ones and surrogates have none. -/
def toText? (b : Bytes) : Option String := String.fromUTF8? ⟨b.toArray⟩

theorem toText?_ofText (s : String) : toText? (ofText s) = some s := by
  have h : (⟨(ofText s).toArray⟩ : ByteArray) = s.toByteArray := by
    simp [ofText]
  unfold toText? String.fromUTF8?
  rw [dif_pos (by rw [h]; exact s.isValidUTF8)]
  congr 1

theorem eq_ofText_of_toText? {b : Bytes} {s : String} (h : toText? b = some s) :
    b = ofText s := by
  unfold toText? String.fromUTF8? at h
  split at h
  · cases h
    rfl
  · cases h

theorem toText?_eq_some_iff {b : Bytes} {s : String} : toText? b = some s ↔ b = ofText s :=
  ⟨eq_ofText_of_toText?, fun h => h ▸ toText?_ofText s⟩

theorem ofText_append (s t : String) : ofText (s ++ t) = ofText s ++ ofText t := by
  simp [ofText]

/-- The number of bytes of the character at the start. -/
def charLength? (b : Bytes) : Option Nat :=
  [1, 2, 3, 4].find? fun n => (b.take n).length = n && (toText? (b.take n)).isSome

theorem charLength?_pos {b : Bytes} {n : Nat} (h : charLength? b = some n) :
    1 ≤ n ∧ n ≤ b.length := by
  have hm := List.mem_of_find?_eq_some h
  have hp := List.find?_some h
  simp only [Bool.and_eq_true, decide_eq_true_eq, List.length_take] at hp
  simp only [List.mem_cons, List.not_mem_nil, or_false] at hm
  omega

theorem exists_charLength {b : Bytes} {n : Nat} (h : charLength? b = some n) :
    ∃ s, b.take n = ofText s := by
  have hp := List.find?_some h
  simp only [Bool.and_eq_true, decide_eq_true_eq] at hp
  obtain ⟨s, hs⟩ := Option.isSome_iff_exists.mp hp.2
  exact ⟨s, toText?_eq_some_iff.mp hs⟩

/-- The bytes from the first one that is part of no character. -/
def illFormed (b : Bytes) : Bytes :=
  match _h : charLength? b with
  | none => b
  | some n => illFormed (b.drop n)
termination_by b.length
decreasing_by
  have := charLength?_pos _h
  simp only [List.length_drop]
  omega

/-- ASCII capitals become small; every other byte stays. -/
def lower (b : UInt8) : UInt8 := if 65 ≤ b ∧ b ≤ 90 then b + 32 else b

/-- Space, tab, line feed, form feed and carriage return. -/
def isBlank (b : UInt8) : Bool := b = 32 || b = 9 || b = 10 || b = 12 || b = 13

/-- The bytes of a character after its first one. -/
def isContinuation (b : UInt8) : Bool := 0x80 ≤ b && b < 0xC0

/-- Whether place `i` in the UTF-8 form of a text is between two characters or at an end of it. -/
def isBoundary (b : Bytes) (i : Nat) : Bool := (b.drop i).head?.all fun c => !isContinuation c

/-- ASCII decimal digits. -/
def isDigit (b : UInt8) : Bool := 48 ≤ b && b ≤ 57

/-- The number of the first suffix with property `p`, where the whole is number `i`. The empty
suffix is not asked. -/
def findFrom (p : Bytes → Bool) (i : Nat) : Bytes → Option Nat
  | [] => none
  | b :: rest => if p (b :: rest) then some i else findFrom p (i + 1) rest

/-- Where `needle`, not empty, first begins in `hay`. -/
def find (needle hay : Bytes) : Option Nat := findFrom needle.isPrefixOf 0 hay

/-- Where `needle`, not empty and in small letters, first begins when case is ignored. -/
def findAnyCase (needle hay : Bytes) : Option Nat :=
  findFrom (fun rest => needle.isPrefixOf ((rest.take needle.length).map lower)) 0 hay

theorem findFrom_ge {p : Bytes → Bool} {i k : Nat} {hay : Bytes}
    (h : findFrom p i hay = some k) : i ≤ k ∧ k < i + hay.length := by
  induction hay generalizing i with
  | nil => simp [findFrom] at h
  | cons b rest ih =>
    unfold findFrom at h
    split at h
    · cases h
      simp
    · have := ih h
      simp only [List.length_cons]
      omega

theorem findAnyCase_lt {needle hay : Bytes} {k : Nat} (h : findAnyCase needle hay = some k) :
    k < hay.length := by
  have := findFrom_ge h
  omega

/-- Consecutive pieces of at most `n` bytes, where `n` is not zero. Nothing at all is one empty
piece. -/
def pieces (n : Nat) (b : Bytes) : List Bytes :=
  if 0 < n ∧ n < b.length then b.take n :: pieces n (b.drop n) else [b]
termination_by b.length
decreasing_by simp; omega

theorem flatten_pieces (n : Nat) (b : Bytes) : (pieces n b).flatten = b := by
  fun_induction pieces n b with
  | case1 b h ih => rw [List.flatten_cons, ih, List.take_append_drop]
  | case2 b h => simp

theorem length_le_of_mem_pieces {n : Nat} {b c : Bytes} (hn : 0 < n) (h : c ∈ pieces n b) :
    c.length ≤ n := by
  fun_induction pieces n b with
  | case1 b hb ih =>
    rcases List.mem_cons.mp h with rfl | h
    · rw [List.length_take]
      exact Nat.min_le_left _ _
    · exact ih h
  | case2 b hb =>
    rw [List.mem_singleton.mp h]
    omega

end Bytes

end LanguageServer
