namespace LanguageServer.Numeral

/-- Why a text is no unsigned decimal numeral. -/
inductive Fault where
  | empty
  | invalidDigit
  | tooLarge
  deriving DecidableEq

def Fault.message : Fault → String
  | .empty => "cannot parse integer from empty string"
  | .invalidDigit => "invalid digit found in string"
  | .tooLarge => "number too large to fit in target type"

def digit (c : Char) : Nat := c.toNat - 48

/-- Reads on with value `n` so far, and stops at the first digit that takes it to `bound`. -/
def readDigits (bound : Nat) (n : Nat) : List Char → Except Fault Nat
  | [] => .ok n
  | c :: cs =>
    if c.isDigit then
      let next := n * 10 + digit c
      if next < bound then readDigits bound next cs else .error .tooLarge
    else .error .invalidDigit

/-- A numeral below `bound`: one digit or more, after at most one plus sign. -/
def read (bound : Nat) : List Char → Except Fault Nat
  | [] => .error .empty
  | ['+'] => .error .invalidDigit
  | '+' :: ds => readDigits bound 0 ds
  | ds => readDigits bound 0 ds

/-- The value that digits add to `n`. -/
def value (n : Nat) (ds : List Char) : Nat := ds.foldl (fun m c => m * 10 + digit c) n

theorem le_value (n : Nat) (ds : List Char) : n ≤ value n ds := by
  induction ds generalizing n with
  | nil => exact Nat.le_refl n
  | cons c cs ih =>
    have := ih (n * 10 + digit c)
    simp only [value, List.foldl_cons] at this ⊢
    omega

/-- Reading succeeds on digits alone, when their value stays below the bound. -/
theorem readDigits_eq_ok_iff {bound n m : Nat} {ds : List Char} (hn : n < bound) :
    readDigits bound n ds = .ok m ↔
      (∀ c ∈ ds, c.isDigit = true) ∧ value n ds = m ∧ m < bound := by
  induction ds generalizing n with
  | nil =>
    simp only [readDigits, value, List.foldl_nil, Except.ok.injEq]
    constructor
    · rintro rfl
      simp [hn]
    · exact fun h => h.2.1
  | cons c cs ih =>
    have step : value n (c :: cs) = value (n * 10 + digit c) cs := rfl
    unfold readDigits
    split
    · rename_i hc
      dsimp only
      split
      · rename_i hlt
        rw [ih hlt, step]
        simp [hc]
      · rename_i hge
        rw [step]
        constructor
        · intro h
          cases h
        · rintro ⟨-, rfl, h⟩
          have := le_value (n * 10 + digit c) cs
          omega
    · rename_i hc
      constructor
      · intro h
        cases h
      · rintro ⟨h, -⟩
        exact absurd (h c (by simp)) hc

end LanguageServer.Numeral
