import LanguageServer.Proofs.Dispatcher.Documents
import LanguageServer.Proofs.Dispatcher.Late

namespace LanguageServer

open Json (Value)

/-- What a client may ask the analyzer about a document. -/
inductive Inquiry where
  | hints (p : InlayHintParams)
  | diagnostics (p : DiagnosticParams)
  deriving DecidableEq

/-- The response that tells what an analysis has led to. -/
def Response.ofAnalysis (id : RequestId) : Except AnalyzerError Value → Response
  | .ok v => .success id v
  | .error e => .failure id (.of .internalError e.message)

namespace Inquiry

def uri : Inquiry → String
  | hints p => p.document.uri
  | diagnostics p => p.document.uri

/-- What the analyzer finds in a text, with everything in the order in which it is found. -/
def result (q : Inquiry) (a : Analyzer) (text : String) : Except AnalyzerError Value :=
  match q with
  | hints p =>
    (a.inlayHints p.document.uri text p.range).map fun found => .list (found.map Payload.toValue)
  | diagnostics p =>
    (a.diagnostics p.document.uri text).map fun found =>
      .object [("kind", .text "full"), ("items", .list (found.map Payload.toValue))]

/-- The response to an inquiry about a text. -/
def response (q : Inquiry) (a : Analyzer) (text : String) (id : RequestId) : Response :=
  .ofAnalysis id (q.result a text)

end Inquiry

namespace Message

/-- The document that a message opens, changes or closes. -/
def document? (m : Message) : Option String :=
  if m.asks Method.didOpen then (m.content? DidOpenParams).map (·.document.uri)
  else if m.asks Method.didChange then (m.content? DidChangeParams).map (·.document.uri)
  else if m.asks Method.didClose then (m.content? DidCloseParams).map (·.document.uri)
  else none

end Message

namespace Handler

variable {a : Analyzer} {s : Session} {params : Value}

end Handler

namespace Dispatcher

variable {a : Analyzer} {s : Session} {ms : List Message} {m : Message} {id : RequestId}
  {q : Inquiry}

/-- Shows a whole text as a hint at the start of the range, and fails on it for diagnostics. -/
def echo : Analyzer where
  inlayHints _ text range := .ok [⟨range.start, text⟩]
  diagnostics uri text := .error ⟨uri, text⟩

end Dispatcher

end LanguageServer
