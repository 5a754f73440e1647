import LanguageServer.Bytes

namespace LanguageServer.Text

/-- What stands for bytes that are no character. -/
def replacement : Bytes := [0xEF, 0xBF, 0xBD]

def isWhole (b : Bytes) : Bool := (b.toText?).isSome

/-- The length of the broken character at the start: what could have become a character stays
together, and any other byte stands alone. -/
def brokenLength : Bytes → Nat
  | a :: b :: c :: _ =>
    if isWhole [a, b, c, 0x80] then 3
    else if isWhole [a, b, 0x80] || isWhole [a, b, 0x80, 0x80] then 2
    else 1
  | [a, b] => if isWhole [a, b, 0x80] || isWhole [a, b, 0x80, 0x80] then 2 else 1
  | _ => 1

theorem brokenLength_pos (b : Bytes) : 1 ≤ brokenLength b := by
  unfold brokenLength
  repeat' split
  all_goals omega

/-- Bytes with a replacement for every broken character. -/
def mend (b : Bytes) : Bytes :=
  if b = [] then []
  else
    match _h : b.charLength? with
    | some n => b.take n ++ mend (b.drop n)
    | none => replacement ++ mend (b.drop (brokenLength b))
termination_by b.length
decreasing_by
  · have := Bytes.charLength?_pos _h
    simp only [List.length_drop]
    omega
  · have := brokenLength_pos b
    have := List.length_pos_iff.mpr ‹b ≠ []›
    simp only [List.length_drop]
    omega

/-- The text of bytes that may be broken. -/
def lossy (b : Bytes) : String :=
  match b.toText? with
  | some s => s
  | none => (mend b).toText?.getD ""

theorem exists_mend (b : Bytes) : ∃ s, mend b = Bytes.ofText s := by
  fun_induction mend b with
  | case1 => exact ⟨"", rfl⟩
  | case2 b hb n hn ih =>
    obtain ⟨t, ht⟩ := ih
    obtain ⟨s, hs⟩ := Bytes.exists_charLength hn
    exact ⟨s ++ t, by rw [hs, ht, Bytes.ofText_append]⟩
  | case3 b hb hn ih =>
    obtain ⟨t, ht⟩ := ih
    exact ⟨"\ufffd" ++ t, by rw [ht, Bytes.ofText_append]; rfl⟩

theorem lossy_ofText (s : String) : lossy (Bytes.ofText s) = s := by
  simp [lossy, Bytes.toText?_ofText]

end LanguageServer.Text
