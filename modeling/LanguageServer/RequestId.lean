import LanguageServer.Text.Quoted
import LanguageServer.Word

namespace LanguageServer

/-- What ties a response to its request. Numbers and texts never mean the same request. -/
inductive RequestId where
  | number (n : Word .i64)
  | text (s : String)
  deriving DecidableEq

namespace RequestId

/-- The form of an id in the log. -/
def display : RequestId → String
  | .number n => toString n.val
  | .text s => Text.quote s

end RequestId

end LanguageServer
