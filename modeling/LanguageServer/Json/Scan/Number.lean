import LanguageServer.Json.Scanner

namespace LanguageServer.Json.Scan

/-- Digits are collected while their value is below this. -/
def digitsBound : Nat := Nat.pow 2 64

/-- Exponents are collected while they are below this. -/
def exponentBound : Nat := Nat.pow 2 31

def digitValue (c : UInt8) : Nat := c.toNat - 48

def isExponentMark (c : UInt8) : Bool := c = 101 || c = 69

def skipDigits (s : Bytes) : Bytes := s.dropWhile Bytes.isDigit

/-- A number that is not kept as an integer. -/
def floating (negative : Bool) (n : Nat) (k : Int) (s : Bytes) : Scan Number :=
  match Binary64.ofDecimal negative n k with
  | none => .error (.before .numberTooLarge s)
  | some x => .ok (.floating x, s)

/-- A number without point and exponent. Minus zero and what is below the exact integers are
floating. -/
def integer (negative : Bool) (n : Nat) : Number :=
  if !negative then .integer n
  else if 1 ≤ n ∧ n ≤ Nat.pow 2 63 then .integer (-n)
  else .floating { Binary64.ofNat n with negative := true }

/-- The digits of an exponent, after the first. One that is out of all range leaves zero or
nothing. -/
def exponentDigits (negative : Bool) (n : Nat) (k : Int) (down : Bool) (e : Nat) :
    Bytes → Scan Number
  | [] => floating negative n (if down then k - e else k + e) []
  | c :: s =>
    if Bytes.isDigit c then
      let next := e * 10 + digitValue c
      if next < exponentBound then exponentDigits negative n k down next s
      else if n ≠ 0 ∧ !down then .error (.before .numberTooLarge s)
      else .ok (.floating (.zero negative), skipDigits s)
    else floating negative n (if down then k - e else k + e) (c :: s)

/-- The first digit of an exponent, and the rest. -/
def exponentStart (negative : Bool) (n : Nat) (k : Int) (down : Bool) : Bytes → Scan Number
  | [] => .error (.before .endOfValue [])
  | c :: s =>
    if Bytes.isDigit c then exponentDigits negative n k down (digitValue c) s
    else .error (.before .invalidNumber s)

/-- The part of a number behind the mark of its exponent. -/
def exponent (negative : Bool) (n : Nat) (k : Int) : Bytes → Scan Number
  | [] => .error (.before .endOfValue [])
  | c :: s =>
    if c = 43 then exponentStart negative n k false s
    else if c = 45 then exponentStart negative n k true s
    else exponentStart negative n k false (c :: s)

/-- What may follow the digits behind the point. -/
def afterFraction (negative : Bool) (n : Nat) (k : Int) : Bytes → Scan Number
  | [] => floating negative n k []
  | c :: s =>
    if isExponentMark c then exponent negative n k s else floating negative n k (c :: s)

/-- Digits behind the point, of which `count` have been used. Those that do not fit any more are
dropped. -/
def fraction (negative : Bool) (n : Nat) (k : Int) (count : Nat) : Bytes → Scan Number
  | [] =>
    if count = 0 then .error (.within .endOfValue []) else afterFraction negative n (k - count) []
  | c :: s =>
    if Bytes.isDigit c then
      let next := n * 10 + digitValue c
      if next < digitsBound then fraction negative next k (count + 1) s
      else afterFraction negative n (k - count) (skipDigits (c :: s))
    else if count = 0 then .error (.within .invalidNumber (c :: s))
    else afterFraction negative n (k - count) (c :: s)

/-- Digits before the point that do not fit any more: each counts for a power of ten. -/
def longInteger (negative : Bool) (n : Nat) (k : Nat) : Bytes → Scan Number
  | [] => floating negative n k []
  | c :: s =>
    if Bytes.isDigit c then longInteger negative n (k + 1) s
    else if c = 46 then fraction negative n k 0 s
    else if isExponentMark c then exponent negative n k s
    else floating negative n k (c :: s)

/-- What may follow the digits before the point. -/
def afterInteger (negative : Bool) (n : Nat) : Bytes → Scan Number
  | [] => .ok (integer negative n, [])
  | c :: s =>
    if c = 46 then fraction negative n 0 0 s
    else if isExponentMark c then exponent negative n 0 s
    else .ok (integer negative n, c :: s)

/-- Digits before the point, after the first. -/
def integerDigits (negative : Bool) (n : Nat) : Bytes → Scan Number
  | [] => afterInteger negative n []
  | c :: s =>
    if Bytes.isDigit c then
      let next := n * 10 + digitValue c
      if next < digitsBound then integerDigits negative next s
      else longInteger negative n 0 (c :: s)
    else afterInteger negative n (c :: s)

/-- A number behind its sign. A zero in front has no digit after it. -/
def number (negative : Bool) : Bytes → Scan Number
  | [] => .error (.before .endOfValue [])
  | c :: s =>
    if c = 48 then
      match s with
      | [] => afterInteger negative 0 []
      | d :: rest =>
        if Bytes.isDigit d then .error (.within .invalidNumber (d :: rest))
        else afterInteger negative 0 (d :: rest)
    else if Bytes.isDigit c then integerDigits negative (digitValue c) s
    else .error (.before .invalidNumber s)

theorem length_skipDigits_le (s : Bytes) : (skipDigits s).length ≤ s.length :=
  (List.dropWhile_sublist _).length_le

theorem length_floating {negative : Bool} {n : Nat} {k : Int} {s r : Bytes} {x : Number}
    (h : floating negative n k s = .ok (x, r)) : r = s := by
  unfold floating at h
  split at h
  · cases h
  · cases h
    rfl

theorem length_exponentDigits_le {negative down : Bool} {n e : Nat} {k : Int} {s r : Bytes}
    {x : Number} (h : exponentDigits negative n k down e s = .ok (x, r)) :
    r.length ≤ s.length := by
  induction s generalizing e with
  | nil =>
    exact Nat.le_of_eq (congrArg List.length (length_floating h))
  | cons c s ih =>
    unfold exponentDigits at h
    split at h
    · dsimp only at h
      split at h
      · have := ih h
        simp only [List.length_cons]
        omega
      · split at h
        · cases h
        · cases h
          have := length_skipDigits_le s
          simp only [List.length_cons]
          omega
    · exact Nat.le_of_eq (congrArg List.length (length_floating h))

theorem length_exponentStart_le {negative down : Bool} {n : Nat} {k : Int} {s r : Bytes}
    {x : Number} (h : exponentStart negative n k down s = .ok (x, r)) :
    r.length ≤ s.length := by
  unfold exponentStart at h
  split at h
  · cases h
  · split at h
    · have := length_exponentDigits_le h
      simp only [List.length_cons]
      omega
    · cases h

theorem length_exponent_le {negative : Bool} {n : Nat} {k : Int} {s r : Bytes} {x : Number}
    (h : exponent negative n k s = .ok (x, r)) : r.length ≤ s.length := by
  unfold exponent at h
  split at h
  · cases h
  · rename_i c s
    split at h
    · have := length_exponentStart_le h
      simp only [List.length_cons]
      omega
    · split at h
      · have := length_exponentStart_le h
        simp only [List.length_cons]
        omega
      · exact length_exponentStart_le h

theorem length_afterFraction_le {negative : Bool} {n : Nat} {k : Int} {s r : Bytes} {x : Number}
    (h : afterFraction negative n k s = .ok (x, r)) : r.length ≤ s.length := by
  unfold afterFraction at h
  split at h
  · exact Nat.le_of_eq (congrArg List.length (length_floating h))
  · split at h
    · have := length_exponent_le h
      simp only [List.length_cons]
      omega
    · exact Nat.le_of_eq (congrArg List.length (length_floating h))

theorem length_fraction_le {negative : Bool} {n count : Nat} {k : Int} {s r : Bytes} {x : Number}
    (h : fraction negative n k count s = .ok (x, r)) : r.length ≤ s.length := by
  induction s generalizing n count with
  | nil =>
    unfold fraction at h
    split at h
    · cases h
    · exact length_afterFraction_le h
  | cons c s ih =>
    unfold fraction at h
    split at h
    · dsimp only at h
      split at h
      · have := ih h
        simp only [List.length_cons]
        omega
      · have := length_afterFraction_le h
        have := length_skipDigits_le (c :: s)
        omega
    · split at h
      · cases h
      · exact length_afterFraction_le h

theorem length_longInteger_le {negative : Bool} {n k : Nat} {s r : Bytes} {x : Number}
    (h : longInteger negative n k s = .ok (x, r)) : r.length ≤ s.length := by
  induction s generalizing k with
  | nil =>
    exact Nat.le_of_eq (congrArg List.length (length_floating h))
  | cons c s ih =>
    unfold longInteger at h
    split at h
    · have := ih h
      simp only [List.length_cons]
      omega
    · split at h
      · have := length_fraction_le h
        simp only [List.length_cons]
        omega
      · split at h
        · have := length_exponent_le h
          simp only [List.length_cons]
          omega
        · exact Nat.le_of_eq (congrArg List.length (length_floating h))

theorem length_afterInteger_le {negative : Bool} {n : Nat} {s r : Bytes} {x : Number}
    (h : afterInteger negative n s = .ok (x, r)) : r.length ≤ s.length := by
  unfold afterInteger at h
  split at h
  · cases h
    exact Nat.le_refl _
  · split at h
    · have := length_fraction_le h
      simp only [List.length_cons]
      omega
    · split at h
      · have := length_exponent_le h
        simp only [List.length_cons]
        omega
      · cases h
        exact Nat.le_refl _

theorem length_integerDigits_le {negative : Bool} {n : Nat} {s r : Bytes} {x : Number}
    (h : integerDigits negative n s = .ok (x, r)) : r.length ≤ s.length := by
  induction s generalizing n with
  | nil => exact length_afterInteger_le h
  | cons c s ih =>
    unfold integerDigits at h
    split at h
    · dsimp only at h
      split at h
      · have := ih h
        simp only [List.length_cons]
        omega
      · exact length_longInteger_le h
    · exact length_afterInteger_le h

theorem length_number_lt {negative : Bool} {s r : Bytes} {x : Number}
    (h : number negative s = .ok (x, r)) : r.length < s.length := by
  unfold number at h
  split at h
  · cases h
  · rename_i c s
    split at h
    · split at h
      · have := length_afterInteger_le h
        simp only [List.length_cons]
        omega
      · split at h
        · cases h
        · have := length_afterInteger_le h
          simp only [List.length_cons] at this ⊢
          omega
    · split at h
      · have := length_integerDigits_le h
        simp only [List.length_cons]
        omega
      · cases h

end LanguageServer.Json.Scan
