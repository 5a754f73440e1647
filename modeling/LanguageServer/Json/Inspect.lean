import LanguageServer.Json.Value
import LanguageServer.Json.Printer
import LanguageServer.RequestId
import LanguageServer.Text.Quoted

namespace LanguageServer

namespace Json.Value

mutual

/-- The form of a value in the log, which names the kind of everything in it. -/
def inspect : Value → String
  | .null => "Null"
  | .bool b => s!"Bool({b})"
  | .number n => s!"Number({n.text})"
  | .text s => s!"String({Text.quote s})"
  | .list items => "Array [" ++ ", ".intercalate (inspectItems items) ++ "]"
  | .object members => "Object \x7b" ++ ", ".intercalate (inspectMembers members) ++ "\x7d"
termination_by structural v => v

def inspectItems : List Value → List String
  | [] => []
  | v :: vs => v.inspect :: inspectItems vs
termination_by structural vs => vs

def inspectMembers : List (String × Value) → List String
  | [] => []
  | (k, v) :: ms => (Text.quote k ++ ": " ++ v.inspect) :: inspectMembers ms
termination_by structural ms => ms

end

end Json.Value

/-- The form of an id in the log that tells numbers from texts. -/
def RequestId.inspect : RequestId → String
  | .number n => s!"Number({n.val})"
  | .text s => s!"String({Text.quote s})"

/-- The form in the log of something that may be missing. -/
def inspectOption {α : Type} (inspect : α → String) : Option α → String
  | none => "None"
  | some a => s!"Some({inspect a})"

end LanguageServer
