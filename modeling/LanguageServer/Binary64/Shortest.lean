import LanguageServer.Binary64

namespace LanguageServer.Binary64

/-- A decimal number `digits * 10 ^ exponent`. -/
structure Decimal where
  digits : Nat
  exponent : Int
  deriving DecidableEq

/-- The reals that round to a positive number, as an interval between naturals over a common
denominator: low end, the number itself, high end, denominator. The ends belong to it exactly if
the significand is even. -/
structure Cell where
  low : Nat
  mid : Nat
  high : Nat
  den : Nat
  closed : Bool

def cell (x : Binary64) : Cell :=
  let m := x.significand
  let below := if m = Nat.pow 2 52 ∧ minExponent < x.exponent then 1 else 2
  let up := Nat.pow 2 x.exponent.toNat
  ⟨(4 * m - below) * up, 4 * m * up, (4 * m + 2) * up, 4 * Nat.pow 2 (-x.exponent).toNat,
    m % 2 = 0⟩

/-- The same interval in units of `10 ^ k`. -/
def Cell.inUnits (c : Cell) (k : Int) : Cell :=
  let p := Nat.pow 10 (-k).toNat
  { c with
    low := c.low * p, mid := c.mid * p, high := c.high * p, den := c.den * Nat.pow 10 k.toNat }

def Cell.contains (c : Cell) (n : Nat) : Bool :=
  let v := n * c.den
  if c.closed then c.low ≤ v && v ≤ c.high else c.low < v && v < c.high

/-- The natural in the interval that is nearest to its middle, the even one of two. -/
def Cell.nearest? (c : Cell) : Option Nat :=
  let n := c.mid / c.den
  let twice := 2 * (c.mid % c.den)
  let upper := c.den < twice || (twice = c.den && n % 2 = 1)
  let (first, second) := if upper then (n + 1, n) else (n, n + 1)
  if c.contains first then some first
  else if c.contains second then some second
  else none

/-- Looks for a point in the interval on ever finer decimal grids, the first with unit `10 ^ k`. -/
def Cell.search (c : Cell) (k : Int) : Nat → Decimal
  | 0 => ⟨c.mid / c.den, 0⟩
  | steps + 1 =>
    match (c.inUnits k).nearest? with
    | some n => ⟨n, k⟩
    | none => c.search (k - 1) steps

/-- An exponent of ten that is at least as large as that of the leading digit. -/
def Cell.leading (c : Cell) : Int :=
  if c.den ≤ c.mid then ((Nat.toDigits 10 (c.mid / c.den)).length : Int) - 1
  else 1 - (Nat.toDigits 10 (c.den / c.mid)).length

/-- The decimal with the fewest digits among those that round to a positive number, and the
nearest of these. Nineteen grids are more than enough, since seventeen digits always suffice. -/
def shortest (x : Binary64) : Decimal := x.cell.search x.cell.leading 19

example : shortest ⟨false, 1, -1074⟩ = ⟨5, -324⟩ := by decide +kernel

example : shortest ⟨false, 0x1999999999999A, -56⟩ = ⟨1, -1⟩ := by decide +kernel

example : shortest (ofNat 123456789) = ⟨123456789, 0⟩ := by decide +kernel

/-- Numbers whose leading digit counts at least `10 ^ -5` and less than `10 ^ 16` are written
without an exponent. -/
def isPlain (point : Int) : Bool := -5 < point && point ≤ 16

/-- Digits with a point before the digit number `point`, and a digit at least on both sides. -/
def plainText (digits : List Char) (point : Int) : List Char :=
  if point ≤ 0 then '0' :: '.' :: List.replicate (-point).toNat '0' ++ digits
  else if (digits.length : Int) ≤ point then
    digits ++ List.replicate (point.toNat - digits.length) '0' ++ ['.', '0']
  else digits.take point.toNat ++ '.' :: digits.drop point.toNat

/-- Digits with a point after the first one, and the power of ten behind them. -/
def scientificText (digits : List Char) (point : Int) : List Char :=
  let power := point - 1
  let mantissa := if digits.length ≤ 1 then digits else digits.take 1 ++ '.' :: digits.drop 1
  mantissa ++ 'e' :: (if power < 0 then '-' else '+') :: Nat.toDigits 10 power.natAbs

/-- Digits without the zeros at their end. -/
def significantDigits (n : Nat) : List Char :=
  ((Nat.toDigits 10 n).reverse.dropWhile (· = '0')).reverse

/-- The decimal text of a number: the fewest digits that read back, and a decimal point or an
exponent, so that it is no integer numeral. -/
def text (x : Binary64) : List Char :=
  let sign := if x.negative then ['-'] else []
  if x.isZero then sign ++ ['0', '.', '0']
  else
    let d := x.shortest
    let point := ((Nat.toDigits 10 d.digits).length : Int) + d.exponent
    let digits := significantDigits d.digits
    sign ++ if isPlain point then plainText digits point else scientificText digits point

end LanguageServer.Binary64
