import LanguageServer.Regex.Flags

namespace LanguageServer.Regex

/-- The smallest things that an expression consists of. -/
inductive Primitive where
  /-- A character, which may have been written as the value of a byte. -/
  | literal (c : Char) (byte : Bool)
  /-- A place in the text. It may have to do with words. -/
  | place (word : Bool)
  /-- The digits, the blanks or the characters of words, or all others. -/
  | category (negated : Bool)
  deriving DecidableEq

namespace Primitive

def isAscii (c : Char) : Bool := c.toNat < 128

/-- Whether an expression with these flags can hold a primitive. There are no tables of characters,
so that neither the case nor the category of a character beyond ASCII is known, and what matches
must be UTF-8. -/
def isSupported (f : Flags) : Primitive → Bool
  | .literal c byte => if f.unicode then !f.ignoreCase else !byte || isAscii c
  | .place word => !word || !f.unicode
  | .category negated => !f.unicode && !negated

/-- Whether a set of characters can hold a primitive. Without Unicode it is a set of bytes. -/
def isMember (f : Flags) : Primitive → Bool
  | .literal c _ => if f.unicode then !f.ignoreCase else isAscii c
  | .place _ => false
  | .category negated => !f.unicode && !negated

theorem isSupported_of_isMember {f : Flags} {p : Primitive} (h : p.isMember f = true) :
    p.isSupported f = true := by
  cases p <;> simp only [isMember, isSupported] at h ⊢
  · split at h <;> simp_all
  · cases h
  · exact h

end Primitive

def hexValue? (c : Char) : Option Nat :=
  if c.isDigit then some (c.toNat - 48)
  else if 'a' ≤ c ∧ c ≤ 'f' then some (c.toNat - 87)
  else if 'A' ≤ c ∧ c ≤ 'F' then some (c.toNat - 55)
  else none

/-- The value of so many hexadecimal digits behind a value so far. -/
def hexDigits (f : Flags) : (count value : Nat) → List Char → Option (Nat × List Char)
  | 0, value, cs => some (value, f.skip cs)
  | count + 1, value, cs =>
    match f.skip cs with
    | [] => none
    | c :: rest =>
      match hexValue? c with
      | none => none
      | some d => hexDigits f count (value * 16 + d) rest

/-- The character with a value of so many hexadecimal digits. -/
def hexLiteral (f : Flags) (count : Nat) (byte : Bool) (cs : List Char) :
    Option (Primitive × List Char) :=
  match hexDigits f count 0 cs with
  | none => none
  | some (n, rest) =>
    if n.isValidChar then some (.literal (Char.ofNat n) byte, rest) else none

/-- Signs can be escaped, but for those that do not stand for themselves then. -/
def isEscapable (c : Char) : Bool :=
  Primitive.isAscii c && !c.isAlphanum && c ≠ '<' && c ≠ '>' && c ≠ '%'

/-- What stands behind a backslash. -/
def escape (f : Flags) : List Char → Option (Primitive × List Char)
  | [] => none
  | c :: cs =>
    match c with
    | 'x' => hexLiteral f 2 true cs
    | 'u' => hexLiteral f 4 false cs
    | 'U' => hexLiteral f 8 false cs
    | 'a' => some (.literal '\x07' false, cs)
    | 'f' => some (.literal '\x0c' false, cs)
    | 'n' => some (.literal '\n' false, cs)
    | 'r' => some (.literal '\r' false, cs)
    | 't' => some (.literal '\t' false, cs)
    | 'v' => some (.literal '\x0b' false, cs)
    | 'A' | 'z' => some (.place false, cs)
    | 'b' | 'B' | '<' | '>' => some (.place true, cs)
    | 'd' | 's' | 'w' => some (.category false, cs)
    | 'D' | 'S' | 'W' => some (.category true, cs)
    | _ => if isEscapable c then some (.literal c false, cs) else none

theorem length_hexDigits_le {f : Flags} {count value n : Nat} {cs rest : List Char}
    (h : hexDigits f count value cs = some (n, rest)) : rest.length ≤ cs.length := by
  induction count generalizing value cs with
  | zero =>
    cases h
    exact f.length_skip_le cs
  | succ count ih =>
    unfold hexDigits at h
    have hs := f.length_skip_le cs
    split at h
    · cases h
    · rename_i c tail heq
      rw [heq, List.length_cons] at hs
      split at h
      · cases h
      · have := ih h
        omega

theorem length_hexLiteral_le {f : Flags} {count : Nat} {byte : Bool} {cs rest : List Char}
    {p : Primitive} (h : hexLiteral f count byte cs = some (p, rest)) :
    rest.length ≤ cs.length := by
  unfold hexLiteral at h
  split at h
  · cases h
  · rename_i hd
    split at h
    · cases h
      exact length_hexDigits_le hd
    · cases h

theorem length_escape_lt {f : Flags} {cs rest : List Char} {p : Primitive}
    (h : escape f cs = some (p, rest)) : rest.length < cs.length := by
  cases cs with
  | nil => cases h
  | cons c cs =>
    rw [List.length_cons, Nat.lt_succ_iff]
    unfold escape at h
    dsimp only at h
    split at h
    all_goals first
      | exact length_hexLiteral_le h
      | (cases h; exact Nat.le_refl _)
      | (split at h
         · cases h
           exact Nat.le_refl _
         · cases h)

end LanguageServer.Regex
