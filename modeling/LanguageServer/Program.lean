import LanguageServer.Log.Filter
import LanguageServer.Server
import LanguageServer.Settings

namespace LanguageServer.Program

def versionText : String := s!"loom-lsp {Dispatcher.serverInfo.version}\n"

/-- One line of the help: an option, and what it is for. -/
def helpLine (option purpose : String) : String :=
  "  " ++ String.ofList (option.toList.rightpad 30 ' ') ++ purpose ++ "\n"

def helpText : String :=
  "A Language Server Protocol endpoint for Loom type analysis\n\n" ++
  "Usage: loom-lsp [OPTIONS]\n\n" ++
  "Options:\n" ++
  helpLine ("    " ++ Setting.logFile.usage)
    "Log file path [default: $XDG_DATA_HOME/loom-lsp/loom-lsp.log]" ++
  helpLine ("    " ++ Setting.logFilter.usage)
    s!"Log filter used when RUST_LOG is not set [default: {Settings.defaultLogFilter}]" ++
  helpLine ("    " ++ Setting.delay.usage)
    "Artificial delay added to each analysis request, in milliseconds [default: 0]" ++
  helpLine ("    " ++ Flag.stdio.usage)
    "Use stdio transport (the only transport; accepted for editor compatibility)" ++
  helpLine ("-h, " ++ Flag.help.usage) "Print help" ++
  helpLine ("-V, " ++ Flag.version.usage) "Print version"

/-- What is said instead of running: to the user who asked for it, or about an error. -/
def refusalText : Refusal → String
  | .help => helpText
  | .version => versionText
  | .error e => "error: " ++ e.message

/-- Being asked for information is no failure. -/
def refusalCode : Refusal → Nat
  | .help => 0
  | .version => 0
  | .error _ => 2

/-- What failures without a code of their own exit with. -/
def failureCode : Nat := 1

/-- What a program exits with that breaks off. -/
def abortCode : Nat := 101

/-- The filter of the surroundings if they have a well-formed one, else that of the settings. -/
def filter (e : Surroundings) (s : Settings) : Except Log.FilterFault Log.Filter :=
  match (e.logFilter.bind Bytes.toText?).map Log.Filter.parse with
  | some (.ok f) => .ok f
  | some (.error .misaligned) => .error .misaligned
  | some (.error .malformed) => Log.Filter.parse s.logFilter
  | none => Log.Filter.parse s.logFilter

/-- Without a filter the program fails. It does not get as far as failing where a filter could not
even be cut into its parts. -/
def filterFaultCode : Log.FilterFault → Nat
  | .malformed => failureCode
  | .misaligned => abortCode

def startEvent : Log.Event := Server.note .info "Starting loom-lsp server"

def stopEvent (o : Outcome) : Log.Event :=
  Server.note .info s!"loom-lsp server stopped: {o.display}"

/-- What is logged at the end. A failing device leaves no time for it. -/
def stopLog : Except TransportError Outcome → List Log.Event
  | .ok o => [stopEvent o]
  | .error _ => []

def resultCode : Except TransportError Outcome → Nat
  | .ok o => o.exitCode
  | .error _ => failureCode

/-- How the program ends, and what it says then. -/
structure Ending where
  exitCode : Nat
  output : String := ""
  /-- What is said on the side of the output. -/
  complaint : String := ""
  deriving DecidableEq

def complaint (message : String) : String := "Error: " ++ message ++ "\n"

/-- Only what the user asked for is output. -/
def refuse : Refusal → Ending
  | .error e =>
    { exitCode := refusalCode (.error e), complaint := refusalText (.error e) ++ "\n" }
  | r => { exitCode := refusalCode r, output := refusalText r }

def refuseFilter (fault : Log.FilterFault) : Ending where
  exitCode := filterFaultCode fault
  complaint := complaint "invalid filter directive"

/-- The end of a server is the end of the program. -/
def conclude : Except TransportError Outcome → Ending
  | .ok o => { exitCode := resultCode (.ok o) }
  | .error e => { exitCode := resultCode (.error e), complaint := complaint e.message }

/-- What the program is going to do. -/
inductive Plan where
  | stop (ending : Ending)
  /-- It opens its log, and then it serves if there is a filter for the log. -/
  | serve (s : Settings) (f : Except Ending Log.Filter)

/-- All that can be decided before the log is open. -/
def plan (e : Surroundings) (arguments : List Bytes) : Plan :=
  match Arguments.parse arguments with
  | .error r => .stop (refuse r)
  | .ok given =>
    let s := Settings.ofArguments e given
    .serve s ((filter e s).mapError refuseFilter)

/-- What can be seen of the program from outside, but for complaints. -/
structure Effect where
  exitCode : Nat
  output : Bytes := []
  /-- The lines of the log, if there is a log. -/
  log : Option (List Log.Event) := none
  deriving DecidableEq

def Ending.effect (ending : Ending) (log : Option (List Log.Event)) : Effect :=
  ⟨ending.exitCode, Bytes.ofText ending.output, log⟩

/-- A server with given settings, which reads all of its input. -/
def serve (f : Log.Filter) (s : Settings) (input : List Arrival) : Effect :=
  let run := Server.serve (.standard (.sample s.delay)) input {} {} {}
  { exitCode := (conclude run.result).exitCode
    output := run.sink.taken
    log := some ((startEvent :: run.log ++ stopLog run.result).filter f.allows) }

/-- The program from start to end. `logOpens` says whether the log can be opened at a path. -/
def run (e : Surroundings) (logOpens : Bytes → Bool) (arguments : List Bytes)
    (input : List Arrival) : Effect :=
  match plan e arguments with
  | .stop ending => ending.effect none
  | .serve s f =>
    if logOpens s.logPath then
      match f with
      | .error ending => ending.effect (some [])
      | .ok f => serve f s input
    else { exitCode := failureCode }

end LanguageServer.Program
