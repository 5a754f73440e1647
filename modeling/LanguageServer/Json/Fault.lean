import LanguageServer.Json.Printer
import LanguageServer.Text.Quoted
import LanguageServer.Word

namespace LanguageServer.Json

/-- What stands where something else is expected. -/
inductive Found where
  | null
  | bool (b : Bool)
  | number (n : Number)
  | text (s : String)
  | list
  | object
  deriving DecidableEq

/-- What a value is read as. -/
inductive Expected where
  | text
  | word (w : Width)
  | list
  | record (name : String)
  deriving DecidableEq

/-- Why bytes are no JSON text, or a JSON value is not what it is read as. -/
inductive Cause where
  | endOfValue
  | endOfText
  | endOfList
  | endOfObject
  | expectedValue
  | expectedLiteral
  | expectedColon
  | expectedListSeparator
  | expectedMemberSeparator
  | keyNotText
  | trailingComma
  | trailingBytes
  | tooDeep
  | invalidNumber
  | numberTooLarge
  | invalidEscape
  | escapeCutShort
  | unpairedSurrogate
  | controlCharacter
  | invalidCodePoint
  | invalidType (found : Found) (expected : Expected)
  | invalidWord (n : Int) (w : Width)
  | tooFewItems (found : Nat) (name : String) (size : Nat)
  | tooManyItems (found : Nat)
  | missingMember (name : String)
  | duplicateMember (name : String)
  | noVariant (name : String)
  deriving DecidableEq

/-- What a value shows of itself in a message. -/
def Found.ofValue : Value → Found
  | .null => .null
  | .bool b => .bool b
  | .number n => .number n
  | .text s => .text s
  | .list _ => .list
  | .object _ => .object

def Found.message : Found → String
  | .null => "null"
  | .bool b => s!"boolean `{b}`"
  | .number (.integer n) => s!"integer `{n}`"
  | .number (.floating x) => "floating point `" ++ String.ofList x.text ++ "`"
  | .text s => "string " ++ Text.quote s
  | .list => "sequence"
  | .object => "map"

def Expected.message : Expected → String
  | .text => "a string"
  | .word w => w.name
  | .list => "a sequence"
  | .record name => "struct " ++ name

def Cause.message : Cause → String
  | .endOfValue => "EOF while parsing a value"
  | .endOfText => "EOF while parsing a string"
  | .endOfList => "EOF while parsing a list"
  | .endOfObject => "EOF while parsing an object"
  | .expectedValue => "expected value"
  | .expectedLiteral => "expected ident"
  | .expectedColon => "expected `:`"
  | .expectedListSeparator => "expected `,` or `]`"
  | .expectedMemberSeparator => "expected `,` or `\x7d`"
  | .keyNotText => "key must be a string"
  | .trailingComma => "trailing comma"
  | .trailingBytes => "trailing characters"
  | .tooDeep => "recursion limit exceeded"
  | .invalidNumber => "invalid number"
  | .numberTooLarge => "number out of range"
  | .invalidEscape => "invalid escape"
  | .escapeCutShort => "unexpected end of hex escape"
  | .unpairedSurrogate => "lone leading surrogate in hex escape"
  | .controlCharacter => "control character (\\u0000-\\u001F) found while parsing a string"
  | .invalidCodePoint => "invalid unicode code point"
  | .invalidType found expected =>
    "invalid type: " ++ found.message ++ ", expected " ++ expected.message
  | .invalidWord n w => s!"invalid value: integer `{n}`, expected {w.name}"
  | .tooFewItems found name size =>
    s!"invalid length {found}, expected struct {name} with {size} " ++
      if size = 1 then "element" else "elements"
  | .tooManyItems found => s!"invalid length {found}, expected fewer elements in array"
  | .missingMember name => s!"missing field `{name}`"
  | .duplicateMember name => s!"duplicate field `{name}`"
  | .noVariant name => s!"data did not match any variant of untagged enum {name}"

/-- A cause and the bytes that were not used when it arose. The place that is reported lies before
these bytes if the fault is settled. If it is not, the record around it settles the place. -/
structure Fault where
  cause : Cause
  rest : Bytes
  settled : Bool := true
  deriving DecidableEq

namespace Fault

/-- A fault found on the last byte used. -/
def before (cause : Cause) (rest : Bytes) : Fault := ⟨cause, rest, true⟩

/-- A fault found by looking at the next byte, whose place counts as used. -/
def within (cause : Cause) (rest : Bytes) : Fault := ⟨cause, rest.tail, true⟩

/-- A fault in what was read, and not in how it is written. -/
def unsettled (cause : Cause) (rest : Bytes) : Fault := ⟨cause, rest, false⟩

/-- Settles the place after `skip` has passed over what closes the record. -/
def settle (skip : Bytes → Bytes) (f : Fault) : Fault :=
  if f.settled then f else ⟨f.cause, skip f.rest, true⟩

end Fault

/-- A place in a text: lines count from one, and columns are the bytes used on the line. -/
structure Place where
  line : Nat
  column : Nat
  deriving DecidableEq

namespace Place

/-- The place after some bytes. -/
def after (used : Bytes) : Place :=
  ⟨used.count 10 + 1, (used.reverse.takeWhile (· ≠ 10)).length⟩

end Place

/-- A fault with its place in the text, if it has one. -/
structure Error where
  cause : Cause
  place : Option Place
  deriving DecidableEq

namespace Error

def message (e : Error) : String :=
  match e.place with
  | none => e.cause.message
  | some p => e.cause.message ++ s!" at line {p.line} column {p.column}"

/-- The error for a fault in a text. -/
def ofFault (input : Bytes) (f : Fault) : Error :=
  ⟨f.cause,
    if f.settled then some (.after (input.take (input.length - f.rest.length))) else none⟩

end Error

end LanguageServer.Json
