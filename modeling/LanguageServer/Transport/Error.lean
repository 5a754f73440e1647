import LanguageServer.Frame

namespace LanguageServer

/-- Why a frame could not be read or written. All values have a text, so none fails to be put into
a frame. -/
inductive TransportError where
  | io (reason : String)
  | framing (error : FramingError)
  deriving DecidableEq

namespace TransportError

def message : TransportError → String
  | .io reason => "io error: " ++ reason
  | .framing error => error.message

/-- After a malformed frame the stream can still be used; after a failing device it cannot. -/
def isFatal : TransportError → Bool
  | .io _ => true
  | .framing _ => false

end TransportError

end LanguageServer
