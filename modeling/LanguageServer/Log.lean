namespace LanguageServer

namespace Log

inductive Level where
  | error
  | warn
  | info
  | debug
  | trace
  deriving DecidableEq

/-- How far down the scale from errors to traces a level lies. -/
def Level.rank : Level → Nat
  | .error => 1
  | .warn => 2
  | .info => 3
  | .debug => 4
  | .trace => 5

def Level.name : Level → String
  | .error => "ERROR"
  | .warn => "WARN"
  | .info => "INFO"
  | .debug => "DEBUG"
  | .trace => "TRACE"

/-- The part of the server that an event comes from. -/
inductive Source where
  | transport
  | server
  | dispatcher
  | handlers
  | documents
  | analyzer
  deriving DecidableEq

/-- The name of a part in the log, which filters refer to. -/
def Source.name : Source → String
  | .transport => "loom_lsp::rpc::transport"
  | .server => "loom_lsp::lsp::server"
  | .dispatcher => "loom_lsp::lsp::dispatcher"
  | .handlers => "loom_lsp::lsp::handlers"
  | .documents => "loom_lsp::analysis::state"
  | .analyzer => "loom_lsp::analysis::analyzer"

/-- One line of the log. -/
structure Event where
  level : Level
  source : Source
  message : String
  deriving DecidableEq

end Log

end LanguageServer
