import LanguageServer.Bytes
import LanguageServer.Numeral
import LanguageServer.Text.Blank
import LanguageServer.Text.Quoted

namespace LanguageServer

/-- The longest header that is read. -/
def maxHeaderLength : Nat := 8 * 1024

/-- The longest body that a header may declare. -/
def maxBodyLength : Nat := 64 * 1024 * 1024

/-- What is wrong with the bytes where a frame should stand. -/
inductive FramingError where
  | missingContentLength
  | invalidContentLength (value : String)
  | invalidHeaderEncoding
  | headerTooLarge
  | bodyTooLarge (declared : Nat)
  | truncated (expected received : Nat)
  deriving DecidableEq

def FramingError.message : FramingError → String
  | .missingContentLength => "missing Content-Length header"
  | .invalidContentLength value => "invalid Content-Length header: " ++ Text.quote value
  | .invalidHeaderEncoding => "header block is not valid UTF-8"
  | .headerTooLarge =>
    s!"header block exceeds {maxHeaderLength} bytes without a terminator"
  | .bodyTooLarge declared =>
    s!"declared body of {declared} bytes exceeds the {maxBodyLength} byte limit"
  | .truncated expected received =>
    s!"stream ended mid-frame: {received} of {expected} bytes buffered"

namespace Header

/-- The lines of a text. Only a carriage return with its line feed ends a line. -/
def lines : List Char → List (List Char)
  | [] => [[]]
  | '\r' :: '\n' :: rest => [] :: lines rest
  | c :: rest =>
    match lines rest with
    | [] => [[c]]
    | line :: more => (c :: line) :: more

/-- The two sides of the first colon. -/
def field? (line : List Char) : Option (List Char × List Char) :=
  match line.dropWhile (· ≠ ':') with
  | [] => none
  | _ :: value => some (line.takeWhile (· ≠ ':'), value)

def lengthName : List Char := "content-length".toList

/-- What a line says about the length, blanks aside, if the length is what it is about. -/
def lengthText? (line : List Char) : Option (List Char) :=
  match field? line with
  | none => none
  | some (name, value) =>
    if (Text.trim name).map Char.toLower = lengthName then some (Text.trim value) else none

/-- The first number that a word of 64 bits cannot hold. -/
def lengthBound : Nat := Nat.pow 2 64

/-- A length is a numeral that a word of 64 bits can hold. -/
def readLength (text : List Char) : Except FramingError Nat :=
  match Numeral.read lengthBound text with
  | .ok n => .ok n
  | .error _ => .error (.invalidContentLength (String.ofList text))

/-- The length that the text of a header declares: its last one, once all of them can be read. -/
def declared (text : List Char) : Except FramingError Nat :=
  match ((lines text).filterMap lengthText?).mapM readLength with
  | .error e => .error e
  | .ok lengths =>
    match lengths.getLast? with
    | none => .error .missingContentLength
    | some n => .ok n

/-- The body length that a header declares. -/
def contentLength (header : Bytes) : Except FramingError Nat :=
  match header.toText? with
  | none => .error .invalidHeaderEncoding
  | some text => declared text.toList

theorem lines_ne_nil (cs : List Char) : lines cs ≠ [] := by
  fun_cases lines cs <;> simp

end Header

end LanguageServer
