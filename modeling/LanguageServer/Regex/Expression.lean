import LanguageServer.Regex.Bracket
import LanguageServer.Regex.Group

namespace LanguageServer.Regex

/-- A part of an expression, as far as it matters to what stands around it. -/
structure Part where
  /-- How deep it is nested. -/
  height : Nat := 0
  /-- Flags are a part, but they cannot be repeated. -/
  repeatable : Bool := true
  deriving DecidableEq

/-- A group, or the whole expression, as far as it has been read. -/
structure Scope where
  flags : Flags := {}
  /-- The parts of the last branch, the last one first. -/
  parts : List Part := []
  /-- How deep the branches before it are nested. -/
  branches : List Nat := []
  deriving DecidableEq

namespace Scope

def add (s : Scope) (p : Part) : Scope := { s with parts := p :: s.parts }

def branchHeight (s : Scope) : Nat := joinedHeight (s.parts.map Part.height)

/-- Ends a branch, so that another one can begin. -/
def branch (s : Scope) : Scope :=
  { s with parts := [], branches := s.branchHeight :: s.branches }

def height (s : Scope) : Nat := joinedHeight (s.branchHeight :: s.branches)

/-- Repeats the last part, which there has to be. -/
def repeatLast (s : Scope) : Option Scope :=
  match s.parts with
  | ⟨height, true⟩ :: parts => some { s with parts := ⟨height + 1, true⟩ :: parts }
  | _ => none

end Scope

/-- How far the reading of an expression has come. -/
structure Progress where
  inner : Scope := {}
  /-- What is around the innermost group, from the inside. -/
  outer : List Scope := []
  /-- The names of groups so far. No two groups can share one. -/
  names : List (List Char) := []
  deriving DecidableEq

namespace Progress

def add (p : Progress) (part : Part) : Progress := { p with inner := p.inner.add part }

/-- Takes in what a parenthesis opens. -/
def opening (p : Progress) : Opening → Option Progress
  | .flags f => some { p with inner := { p.inner.add { repeatable := false } with flags := f } }
  | .group f none => some { p with inner := { flags := f }, outer := p.inner :: p.outer }
  | .group f (some name) =>
    if name ∈ p.names then none
    else some ⟨{ flags := f }, p.inner :: p.outer, name :: p.names⟩

/-- Takes in a closing parenthesis. With its group the flags in it come to an end. -/
def closing (p : Progress) : Option Progress :=
  match p.outer with
  | [] => none
  | s :: outer => some { p with inner := s.add { height := p.inner.height + 1 }, outer }

end Progress

/-- A sign that makes a repetition lazy is passed over. -/
def skipLazy : List Char → List Char
  | '?' :: cs => cs
  | cs => cs

theorem length_skipLazy_le (cs : List Char) : (skipLazy cs).length ≤ cs.length := by
  unfold skipLazy
  split <;> simp

/-- What follows a single character, a place in the text or an escape, if the flags allow it. No
byte can stand for any other one, since what matches must be UTF-8. -/
def single (f : Flags) (c : Char) (rest : List Char) : Option (List Char) :=
  if c = '\\' then
    match escape f rest with
    | none => none
    | some (p, rest) => if p.isSupported f then some rest else none
  else if c = '.' then if f.unicode then some rest else none
  else if c = '^' ∨ c = '$' then some rest
  else if (Primitive.literal c false).isSupported f then some rest
  else none

theorem length_single_le {f : Flags} {c : Char} {cs rest : List Char}
    (h : single f c cs = some rest) : rest.length ≤ cs.length := by
  unfold single at h
  split at h
  · split at h
    · cases h
    · rename_i he
      split at h
      · cases h
        exact Nat.le_of_lt (length_escape_lt he)
      · cases h
  · repeat' split at h
    all_goals first
      | (cases h; exact Nat.le_refl _)
      | cases h

/-- Reads an expression and says how deep it is nested. It is meant to stand in braces, so that it
ends before any closing one, and no opening one can begin a count. -/
def read (p : Progress) (cs : List Char) : Option Nat :=
  match _h : p.inner.flags.skip cs with
  | [] => if p.outer = [] then some p.inner.height else none
  | '(' :: rest =>
    match _h₁ : openGroup p.inner.flags rest with
    | none => none
    | some (o, rest) =>
      match p.opening o with
      | none => none
      | some next => read next rest
  | ')' :: rest =>
    match p.closing with
    | none => none
    | some next => read next rest
  | '|' :: rest => read { p with inner := p.inner.branch } rest
  | '[' :: rest =>
    match _h₁ : bracket p.inner.flags rest with
    | none => none
    | some (height, rest) => read (p.add { height }) rest
  | '{' :: _ => none
  | c :: rest =>
    if c = '?' ∨ c = '*' ∨ c = '+' then
      match p.inner.repeatLast with
      | none => none
      | some inner => read { p with inner } (skipLazy rest)
    else
      match _h₁ : single p.inner.flags c rest with
      | none => none
      | some rest => read (p.add {}) rest
termination_by cs.length
decreasing_by
  all_goals
    have hs := p.inner.flags.length_skip_le cs
    rw [_h] at hs
    simp only [List.length_cons] at hs
  · have := length_openGroup_le _h₁
    omega
  · omega
  · omega
  · have := length_bracket_lt _h₁
    omega
  · have := length_skipLazy_le rest
    omega
  · have := length_single_le _h₁
    omega

/-- How deep expressions can be nested. -/
def maxHeight : Nat := 250

/-- Whether a text is an expression that can be made into an automaton. -/
def isExpression (text : String) : Bool :=
  match read {} text.toList with
  | none => false
  | some height => height ≤ maxHeight

end LanguageServer.Regex
