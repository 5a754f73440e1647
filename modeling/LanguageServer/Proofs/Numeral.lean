import Mathlib.Tactic
import LanguageServer.Numeral

namespace LanguageServer.Numeral

theorem value_eq_ofDigitChars (n : Nat) (ds : List Char) :
    value n ds = Nat.ofDigitChars 10 ds n := by
  induction ds generalizing n with
  | nil => simp [value]
  | cons d ds ih =>
    have step : value n (d :: ds) = value (n * 10 + digit d) ds := rfl
    rw [step, ih, Nat.ofDigitChars_cons, Nat.mul_comm]
    rfl

theorem read_toDigits {bound n : Nat} (h : n < bound) :
    read bound (Nat.toDigits 10 n) = .ok n := by
  have hdigit : ∀ c ∈ Nat.toDigits 10 n, c.isDigit = true := fun c hc =>
    Nat.isDigit_of_mem_toDigits (by decide) (by decide) hc
  have hread : readDigits bound 0 (Nat.toDigits 10 n) = .ok n := by
    rw [readDigits_eq_ok_iff (by omega), value_eq_ofDigitChars]
    exact ⟨hdigit, Nat.ofDigitChars_ten_toDigits, h⟩
  have hne : Nat.toDigits 10 n ≠ [] := Nat.toDigits_ne_nil
  generalize Nat.toDigits 10 n = ds at hdigit hread hne
  unfold read
  split
  · exact absurd rfl hne
  · exact absurd (hdigit '+' (by simp)) (by decide)
  · exact absurd (hdigit '+' (by simp)) (by decide)
  · exact hread

/-- What is read as a numeral: one digit or more, after at most one plus sign, with a value below
the bound. -/
theorem read_eq_ok_iff {bound n : Nat} {text : List Char} (hbound : 0 < bound) :
    read bound text = .ok n ↔ ∃ digits, (text = digits ∨ text = '+' :: digits) ∧ digits ≠ [] ∧
      (∀ d ∈ digits, d.isDigit = true) ∧ Nat.ofDigitChars 10 digits 0 = n ∧ n < bound := by
  have hplus : ¬ '+'.isDigit = true := by decide
  unfold read
  split
  · simp
  · constructor
    · intro h
      cases h
    · intro h
      obtain ⟨digits, rfl | htext, hne, hdigit, -⟩ := h
      · exact absurd (hdigit '+' (by simp)) hplus
      · exact absurd (List.cons.inj htext).2.symm hne
  · rename_i ds hne
    rw [readDigits_eq_ok_iff hbound, value_eq_ofDigitChars]
    constructor
    · intro h
      obtain ⟨hdigit, hvalue, hlt⟩ := h
      exact ⟨ds, .inr rfl, hne, hdigit, hvalue, hlt⟩
    · intro h
      obtain ⟨digits, rfl | htext, -, hdigit, hvalue, hlt⟩ := h
      · exact absurd (hdigit '+' (by simp)) hplus
      · cases htext
        exact ⟨hdigit, hvalue, hlt⟩
  · rename_i hnil _ hne
    rw [readDigits_eq_ok_iff hbound, value_eq_ofDigitChars]
    constructor
    · intro h
      obtain ⟨hdigit, hvalue, hlt⟩ := h
      exact ⟨text, .inl rfl, hnil, hdigit, hvalue, hlt⟩
    · intro h
      obtain ⟨digits, rfl | htext, -, hdigit, hvalue, hlt⟩ := h
      · exact ⟨hdigit, hvalue, hlt⟩
      · exact absurd htext (hne digits)

end LanguageServer.Numeral
