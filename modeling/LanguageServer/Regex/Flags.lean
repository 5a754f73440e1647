import LanguageServer.Text.Blank

namespace LanguageServer.Regex

/-- The flags of an expression that decide what it may hold. -/
structure Flags where
  /-- Small and capital letters are the same. -/
  ignoreCase : Bool := false
  /-- The expression is about characters, and not about bytes. -/
  unicode : Bool := true
  /-- Blanks and comments stand for nothing. -/
  spaced : Bool := false
  deriving DecidableEq

namespace Flags

/-- All flags. Some of them only change what an expression matches. -/
def names : List Char := ['i', 'm', 's', 'U', 'u', 'R', 'x']

/-- The value of a flag after a list of flags, in which a minus sign stands before those that are
turned off. -/
def updated (name : Char) (items : List Char) (old : Bool) : Bool :=
  if name ∈ items.takeWhile (· ≠ '-') then true
  else if name ∈ items then false
  else old

/-- Turns flags on and off. Each can be there once, and a minus sign is for the flags behind it. -/
def update (f : Flags) (items : List Char) : Option Flags :=
  if items.Nodup ∧ items.all (fun c => c = '-' ∨ c ∈ names) ∧ items.getLast? ≠ some '-' then
    some {
      ignoreCase := updated 'i' items f.ignoreCase
      unicode := updated 'u' items f.unicode
      spaced := updated 'x' items f.spaced }
  else none

end Flags

/-- The text behind blanks and comments. A comment ends with its line. -/
def skipSpace (comment : Bool) : List Char → List Char
  | [] => []
  | c :: cs =>
    if comment then skipSpace (c ≠ '\n') cs
    else if Text.isBlank c then skipSpace false cs
    else if c = '#' then skipSpace true cs
    else c :: cs

/-- The text behind what stands for nothing. -/
def Flags.skip (f : Flags) (cs : List Char) : List Char :=
  if f.spaced then skipSpace false cs else cs

theorem length_skipSpace_le (comment : Bool) (cs : List Char) :
    (skipSpace comment cs).length ≤ cs.length := by
  induction cs generalizing comment with
  | nil => exact Nat.le_refl 0
  | cons c cs ih =>
    unfold skipSpace
    have h (b : Bool) : (skipSpace b cs).length ≤ (c :: cs).length :=
      Nat.le_succ_of_le (ih b)
    repeat' split
    all_goals first | exact h _ | exact Nat.le_refl _

theorem Flags.length_skip_le (f : Flags) (cs : List Char) : (f.skip cs).length ≤ cs.length := by
  unfold skip
  split
  · exact length_skipSpace_le false cs
  · exact Nat.le_refl _

/-- The first character that does not stand for nothing, as far as it can be seen without reading
on: the sign of a comment is passed over, but its text is not. -/
def peekSpace (comment : Bool) : List Char → Option Char
  | [] => none
  | c :: cs =>
    if Text.isBlank c then peekSpace comment cs
    else if c = '#' ∧ !comment then peekSpace true cs
    else some c

def Flags.peek (f : Flags) (cs : List Char) : Option Char :=
  if f.spaced then (peekSpace false cs).or cs.head? else cs.head?

end LanguageServer.Regex
