import LanguageServer.Bytes
import LanguageServer.Fields
import LanguageServer.Log
import LanguageServer.Numeral
import LanguageServer.Numeral.Real
import LanguageServer.Regex.Expression

namespace LanguageServer.Log

/-- Why a filter cannot be used. -/
inductive FilterFault where
  | malformed
  /-- A part of it would begin or end within a character. -/
  | misaligned
  deriving DecidableEq

/-- The names of all thresholds. -/
def thresholdNames : List (String × Nat) :=
  [("off", 0), ("error", 1), ("warn", 2), ("info", 3), ("debug", 4), ("trace", 5)]

/-- The threshold that lets everything through. -/
def everything : Nat := 5

/-- A threshold by its rank or by its name, large or small. -/
def threshold? (text : String) : Option Nat :=
  match Numeral.read (everything + 1) text.toList with
  | .ok n => some n
  | .error _ => thresholdNames.lookup text.toLower

/-- A field that an event or a span has to have, and maybe what its value has to be. -/
structure FieldPattern where
  name : String
  value : Option String := none
  deriving DecidableEq

namespace FieldPattern

/-- A value is a number or else an expression. -/
def isValue (cs : List Char) : Bool := Numeral.isReal cs || Regex.isExpression (String.ofList cs)

/-- The name of a field, and its value behind an equals sign. What follows another equals sign does
not count. -/
def parse (text : String) : Option FieldPattern :=
  match fields '=' text.toList with
  | [] => none
  | [name] => if name = [] then none else some ⟨String.ofList name, none⟩
  | name :: value :: _ =>
    if isValue value then some ⟨String.ofList name, some (String.ofList value)⟩ else none

/-- The only field that events have. -/
def message : String := "message"

/-- Whether every event matches. -/
def matchesEvents (f : FieldPattern) : Bool := f.value.isNone && f.name = message

end FieldPattern

/-- Decides about the events that it concerns. -/
structure Directive where
  /-- What the name of their source begins with. -/
  target : Option String := none
  /-- The span that they are in. -/
  span : Option String := none
  field : Option FieldPattern := none
  /-- The rank of the last level that is logged. -/
  threshold : Nat := everything
  deriving DecidableEq

namespace Directive

/-- Whether the directive is about an event from a source. No event is in a span. -/
def concerns (d : Directive) (source : String) : Bool :=
  d.span.isNone && d.field.all FieldPattern.matchesEvents &&
    d.target.all fun target => target.toList.isPrefixOf source.toList

/-- How much a directive says about the events that it concerns. First the length of the target
counts, and then whether there is a field. -/
def weight (d : Directive) : Nat :=
  2 * (d.target.elim 0 String.length) + if d.field.isSome then 1 else 0

/-- The characters that a directive can begin with, besides the bracket of a span. -/
def canStart (c : Char) : Bool := Text.isAlphanumeric c || c = '-' || c = ':' || c = '_'

def sizeOfText (cs : List Char) : Nat := cs.foldl (fun n c => n + c.utf8Size) 0

/-- The text between two places, counted in bytes. -/
def cut (whole : Bytes) (start stop : Nat) : Except FilterFault String :=
  if whole.isBoundary start && whole.isBoundary stop then
    match Bytes.toText? ((whole.take stop).drop start) with
    | none => .error .misaligned
    | some text => .ok text
  else .error .misaligned

/-- The threshold from some place on, which may be left out. -/
def level (whole : Bytes) (start : Nat) : Except FilterFault Nat :=
  match cut whole start whole.length with
  | .error e => .error e
  | .ok text =>
    if text.isEmpty then .ok everything
    else
      match threshold? text with
      | none => .error .malformed
      | some n => .ok n

/-- What stands behind the span of a directive: nothing, or a threshold. -/
def afterSpan (whole : Bytes) (d : Directive) (i : Nat) : List Char → Except FilterFault Directive
  | [] => .ok d
  | c :: _ =>
    if c = '=' then
      match level whole (i + 1) with
      | .error e => .error e
      | .ok threshold => .ok { d with threshold }
    else .error .malformed

/-- The field of a directive, which begins behind a brace at place `i`. -/
def ofField (whole : Bytes) (d : Directive) (i : Nat) (cs : List Char) :
    Except FilterFault Directive :=
  let text := cs.takeWhile (· ≠ '\x7d')
  let stop := i + sizeOfText text
  match cs.drop text.length with
  | [] => .error .malformed
  | _ :: rest =>
    match cut whole i stop with
    | .error e => .error e
    | .ok text =>
      match FieldPattern.parse text, rest with
      | some f, ']' :: rest => afterSpan whole { d with field := some f } (stop + 2) rest
      | _, _ => .error .malformed

/-- The span of a directive, which begins behind a bracket at place `i`. It may have no name if it
has a field. -/
def ofSpan (whole : Bytes) (d : Directive) (i : Nat) (cs : List Char) :
    Except FilterFault Directive :=
  let name := cs.takeWhile fun c => c ≠ ']' && c ≠ '\x7b'
  let stop := i + sizeOfText name
  match cs.drop name.length with
  | [] => .error .malformed
  | c :: rest =>
    match cut whole i stop with
    | .error e => .error e
    | .ok name =>
      if c = ']' then afterSpan whole { d with span := some name } (stop + 1) rest
      else
        ofField whole { d with span := if name.isEmpty then none else some name } (stop + 1) rest

/-- A word is a level for all events, or a target for all levels. -/
def ofWord (text : String) : Directive :=
  match threshold? text with
  | some threshold => { threshold }
  | none => { target := some text }

/-- Reads one directive. Its parts are found in what is left without the blanks around it, but they
are cut out at the same places with the blanks. -/
def parse (text : String) : Except FilterFault Directive :=
  let whole := Bytes.ofText text
  let shown := Text.trim text.toList
  match shown with
  | [] => .error .malformed
  | c :: rest =>
    if c = '[' then ofSpan whole {} 1 rest
    else if canStart c then
      let name := shown.takeWhile fun c => c ≠ '=' && c ≠ '['
      let stop := sizeOfText name
      match shown.drop name.length with
      | [] => .ok (ofWord text)
      | c :: rest =>
        match cut whole 0 stop with
        | .error e => .error e
        | .ok target =>
          if c = '=' then afterSpan whole { target := some target } stop (c :: rest)
          else ofSpan whole { target := some target } (stop + 1) rest
    else .error .malformed

end Directive

end LanguageServer.Log
