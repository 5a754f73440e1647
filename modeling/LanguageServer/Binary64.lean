namespace LanguageServer

/-- A finite binary floating-point number of 64 bits: `± significand * 2 ^ exponent`. The
significand has at most 53 bits, and as many as it can have while the exponent is at least -1074. -/
structure Binary64 where
  negative : Bool
  significand : Nat
  exponent : Int
  deriving DecidableEq

namespace Binary64

/-- The exponent of the smallest positive number. -/
def minExponent : Int := -1074

/-- The exponent of the largest numbers. -/
def maxExponent : Int := 971

def zero (negative : Bool) : Binary64 := ⟨negative, 0, minExponent⟩

def isZero (x : Binary64) : Bool := x.significand = 0

/-- A fraction of naturals that stands for `num / den * 2 ^ e`. -/
def scale (num den : Nat) (e : Int) : Nat × Nat :=
  if 0 ≤ e then (num * Nat.pow 2 e.toNat, den) else (num, den * Nat.pow 2 (-e).toNat)

/-- The nearest natural to a fraction, the even one of two. -/
def roundFraction (num den : Nat) : Nat :=
  let q := num / den
  let twice := 2 * (num % den)
  if twice < den then q
  else if den < twice then q + 1
  else if q % 2 = 0 then q else q + 1

/-- The exponent at which `num / den` has a significand of 53 bits, or the least one. -/
def exponentOf (num den : Nat) : Int :=
  let guess : Int := (num.log2 : Int) - den.log2 - 52
  let (n, d) := scale num den (-guess)
  max (if n < d * Nat.pow 2 52 then guess - 1 else guess) minExponent

/-- The nearest number to `num / den`, if it is in range. -/
def ofFraction (negative : Bool) (num den : Nat) : Option Binary64 :=
  if num = 0 then some (zero negative)
  else
    let e := exponentOf num den
    let (n, d) := scale num den (-e)
    let m := roundFraction n d
    let (m, e) := if m = Nat.pow 2 53 then (Nat.pow 2 52, e + 1) else (m, e)
    if maxExponent < e then none else some ⟨negative, m, e⟩

/-- The nearest number to a natural below `2 ^ 64`, which is always in range. -/
def ofNat (n : Nat) : Binary64 := (ofFraction false n 1).getD (zero false)

def mul (x y : Binary64) : Option Binary64 :=
  let (n, d) := scale (x.significand * y.significand) 1 (x.exponent + y.exponent)
  ofFraction (x.negative != y.negative) n d

/-- The quotient by a number that is not zero. -/
def div (x y : Binary64) : Option Binary64 :=
  let (n, d) := scale x.significand y.significand (x.exponent - y.exponent)
  ofFraction (x.negative != y.negative) n d

/-- The largest power of ten in range is the power with this exponent. -/
def maxTen : Nat := 308

def tenPow (k : Nat) : Binary64 := ofNat (Nat.pow 10 k)

/-- Multiplies by a power of ten, with one rounding for the power and one for each product or
quotient. Exponents below -308 are taken in several steps. -/
def timesTen (x : Binary64) (k : Int) : Option Binary64 :=
  if k.natAbs ≤ maxTen then
    if 0 ≤ k then x.mul (tenPow k.natAbs) else x.div (tenPow k.natAbs)
  else if x.isZero then some x
  else if 0 ≤ k then none
  else
    match x.div (tenPow maxTen) with
    | none => none
    | some y => timesTen y (k + maxTen)
termination_by (-k).toNat
decreasing_by
  simp only [maxTen] at *
  omega

/-- `± n * 10 ^ k`, rounded as `timesTen` rounds. -/
def ofDecimal (negative : Bool) (n : Nat) (k : Int) : Option Binary64 :=
  ((ofNat n).timesTen k).map fun x => { x with negative := negative }

example : ofDecimal false 1 (-1) = some ⟨false, 0x1999999999999A, -56⟩ := by
  decide +kernel

example : ofDecimal false 5 (-324) = some ⟨false, 1, -1074⟩ := by decide +kernel

example : ofDecimal true 0 400 = some (zero true) := by decide +kernel

example : ofDecimal false 1 309 = none := by decide +kernel

end Binary64

end LanguageServer
