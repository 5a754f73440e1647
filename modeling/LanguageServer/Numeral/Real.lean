namespace LanguageServer.Numeral

def isSign (c : Char) : Bool := c = '+' || c = '-'

/-- A numeral behind its sign. -/
def unsigned : List Char → List Char
  | c :: cs => if isSign c then cs else c :: cs
  | [] => []

/-- An exponent, which may be left out. -/
def isExponent : List Char → Bool
  | [] => true
  | c :: cs =>
    let digits := unsigned cs
    (c = 'e' || c = 'E') && !digits.isEmpty && digits.all Char.isDigit

/-- Digits with at most one point among them, and an exponent. -/
def isDecimal (cs : List Char) : Bool :=
  match cs.span Char.isDigit with
  | (whole, '.' :: rest) =>
    let (part, rest) := rest.span Char.isDigit
    !(whole ++ part).isEmpty && isExponent rest
  | (whole, rest) => !whole.isEmpty && isExponent rest

/-- What is written for numbers that have no digits. -/
def realNames : List String := ["inf", "infinity", "nan"]

/-- A numeral for a real number, or a name in small or large letters. It may have a sign. -/
def isReal (cs : List Char) : Bool :=
  let body := unsigned cs
  String.ofList (body.map Char.toLower) ∈ realNames || isDecimal body

end LanguageServer.Numeral
