import LanguageServer.Dispatcher
import LanguageServer.Transport.Reader
import LanguageServer.Transport.Sink

namespace LanguageServer

/-- How the work of a server comes to its end. -/
inductive Outcome where
  | endOfStream
  | exit (clean : Bool)
  deriving DecidableEq

namespace Outcome

/-- Only an exit without shutting down before it counts as a failure. -/
def exitCode : Outcome → Nat
  | .endOfStream => 0
  | .exit true => 0
  | .exit false => 1

/-- The form of an outcome in the log. -/
def display : Outcome → String
  | .endOfStream => "EndOfStream"
  | .exit clean => "Exit \x7b clean: " ++ toString clean ++ " \x7d"

end Outcome

/-- A whole run of a server. -/
structure Run where
  result : Except TransportError Outcome
  session : Session
  sink : Sink
  log : List Log.Event

namespace Run

/-- A run with entries of the log before it. -/
def after (log : List Log.Event) (r : Run) : Run := { r with log := log ++ r.log }

end Run

/-- What a server does about one signal of its reader. -/
inductive Step where
  /-- It comes to its end. -/
  | stop (result : Except TransportError Outcome)
  /-- It only logs something. -/
  | skip (log : List Log.Event)
  /-- It sends the response, if there is one, and ends if the session has exited. -/
  | answer (a : Dispatched)

namespace Server

def note (level : Log.Level) (message : String) : Log.Event := ⟨level, .server, message⟩

/-- What one signal leads to. Malformed frames and bodies that are no messages are passed over. -/
def step (d : Dispatcher) (s : Session) : Signal → Step
  | .done => .stop (.ok .endOfStream)
  | .error (.io reason) => .stop (.error (.io reason))
  | .error (.framing e) => .skip [note .error s!"Got a framing error: {e.message}"]
  | .body body =>
    match Message.decode body with
    | .error e => .skip [note .error s!"Got an error: {e.message}"]
    | .ok message => .answer (d.dispatch s message)

theorem step_done (d : Dispatcher) (s : Session) : step d s .done = .stop (.ok .endOfStream) := rfl

/-- Sends a response, if there is one. Every response can be written down, so only the output can
fail. -/
def reply (sink : Sink) : Option Response → Except TransportError Unit × Sink
  | none => (.ok (), sink)
  | some r => sink.send r.encode

/-- The outcome of a session that has exited. -/
def exitOf (s : Session) : Option Outcome :=
  match s.lifecycle with
  | .exited clean => some (.exit clean)
  | _ => none

theorem exitOf_isSome (s : Session) : (exitOf s).isSome = s.hasExited := by
  unfold exitOf Session.hasExited
  cases s.lifecycle <;> rfl

/-- Reads frames and handles them one at a time, until the input ends, a message asks to exit, or
input or output fails. -/
def serve (d : Dispatcher) (input : List Arrival) (reader : Reader) (s : Session) (sink : Sink) :
    Run :=
  let reading := reader.next input
  match _h : step d s reading.signal with
  | .stop result => ⟨result, s, sink, reading.log⟩
  | .skip log => (serve d reading.input reading.reader s sink).after (reading.log ++ log)
  | .answer a =>
    let log := reading.log ++ a.log
    match reply sink a.response with
    | (.error e, sink) => ⟨.error e, a.session, sink, log⟩
    | (.ok (), sink) =>
      match exitOf a.session with
      | some outcome => ⟨.ok outcome, a.session, sink, log⟩
      | none => (serve d reading.input reading.reader a.session sink).after log
termination_by reader.size input
decreasing_by
  all_goals
    refine Reader.size_next_lt fun hdone => ?_
    rw [hdone, step_done] at _h
    cases _h

end Server

end LanguageServer
