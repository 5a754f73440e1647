import LanguageServer.Program

namespace LanguageServer

/-- One line of the log. -/
def Log.Event.line (e : Log.Event) : Bytes :=
  (Json.Value.object [
    ("level", .text e.level.name),
    ("fields", .object [("message", .text e.message)]),
    ("target", .text e.source.name)]).render ++ [10]

namespace Program

def packed (b : Bytes) : ByteArray := ⟨b.toArray⟩

/-- Opens the log, in a directory that is made if need be. -/
def openLog (path : Bytes) : IO IO.FS.Handle := do
  let some file := path.toText? | throw (IO.userError "the path of the log is no text")
  let directory := Text.lossy (Path.parent path)
  unless directory.isEmpty do
    IO.FS.createDirAll directory
  IO.FS.Handle.mk file .append

def writeLog (f : Log.Filter) (log : IO.FS.Handle) (events : List Log.Event) : IO Unit := do
  for e in events do
    if f.allows e then
      log.write (packed e.line)
      log.flush

/-- The longest that a program sleeps at once, in milliseconds. -/
def longestSleep : Nat := Nat.pow 2 32 - 1

def pause (delay : Nat) : IO Unit :=
  if delay = 0 then pure () else IO.sleep (min delay longestSleep).toUInt32

/-- The next signal of the reader, after as many reads as it takes. -/
partial def nextSignal (note : List Log.Event → IO Unit) (r : Reader) : IO (Signal × Reader) := do
  match r.signal? with
  | some (signal, after, events) =>
    note events
    return (signal, after)
  | none =>
    let chunk ← (← IO.getStdin).read readSize.toUSize
    if chunk.isEmpty then
      let reading := r.close []
      note reading.log
      return (reading.signal, reading.reader)
    else nextSignal note { r with buffer := r.buffer ++ chunk.toList }

/-- Serves standard input and output until the end. -/
partial def serveStreams (d : Dispatcher) (note : List Log.Event → IO Unit) (r : Reader)
    (s : Session) : IO (Except TransportError Outcome) := do
  let (signal, r) ← nextSignal note r
  match Server.step d s signal with
  | .stop result => return result
  | .skip events =>
    note events
    serveStreams d note r s
  | .answer a =>
    pause a.delay
    note a.log
    match a.response with
    | none => pure ()
    | some response =>
      let stdout ← IO.getStdout
      stdout.write (packed response.encode)
      stdout.flush
    match Server.exitOf a.session with
    | some outcome => return .ok outcome
    | none => serveStreams d note r a.session

/-- Says what there is to say and gives the exit code. -/
def finish (ending : Ending) : IO Nat := do
  IO.print ending.output
  IO.eprint ending.complaint
  return ending.exitCode

/-- Runs a server whose log has such a filter, or none. -/
def serveWith (s : Settings) (f : Except Ending Log.Filter) : IO Nat := do
  let log ← openLog s.logPath
  match f with
  | .error ending => finish ending
  | .ok f =>
    let note := writeLog f log
    note [startEvent]
    let result ← serveStreams (.standard (.sample s.delay)) note {} {}
    note (stopLog result)
    finish (conclude result)

/-- The value of an environment variable. -/
def lookUp (name : String) : IO (Option Bytes) := do
  return (← IO.getEnv name).map Bytes.ofText

def surroundings : IO Surroundings := do
  return {
    logFilter := ← lookUp "RUST_LOG"
    dataHome := ← lookUp "XDG_DATA_HOME"
    home := ← lookUp "HOME" }

/-- Runs the program and gives its exit code. -/
def start (arguments : List String) : IO Nat := do
  match plan (← surroundings) (arguments.map Bytes.ofText) with
  | .stop ending => finish ending
  | .serve s f =>
    try serveWith s f
    catch failure => finish { exitCode := failureCode, complaint := complaint (toString failure) }

end Program

end LanguageServer

def main (arguments : List String) : IO UInt32 := do
  return (← LanguageServer.Program.start arguments).toUInt32
