import LanguageServer.Json.Scan.Value

namespace LanguageServer.Json

/-- How deep lists and objects may lie within one another in a text that is read. -/
def maxDepth : Nat := 127

/-- Reads a whole text. After what the scanner takes there may be blanks only. -/
def Scanner.parse {α : Type} (p : Scanner α) (input : Bytes) : Except Error α :=
  match p.run input with
  | .error f => .error (.ofFault input f)
  | .ok (a, rest) =>
    match Scan.skipBlank rest with
    | [] => .ok a
    | c :: more => .error (.ofFault input (.within .trailingBytes (c :: more)))

/-- The value of a text. -/
def parse (input : Bytes) : Except Error Value := (Scan.value maxDepth).parse input

end LanguageServer.Json
