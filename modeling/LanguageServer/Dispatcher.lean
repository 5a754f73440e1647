import LanguageServer.Handler
import LanguageServer.Json.Inspect

namespace LanguageServer

open Json (Value)

/-- Handlers under the names of methods, the latest binding of a name first. -/
structure Dispatcher where
  bindings : List (String × Handler)
  analyzer : Analyzer

/-- What a message leaves behind. -/
structure Dispatched where
  session : Session
  response : Option Response := none
  log : List Log.Event := []
  /-- Milliseconds that it took. -/
  delay : Nat := 0

namespace Dispatcher

/-- The server as clients see it. -/
def serverInfo : ServerInfo := ⟨"Loom", "0.0.1"⟩

def empty (a : Analyzer) : Dispatcher := ⟨[], a⟩

/-- Binds a method to a handler. An older binding of the method no longer counts. -/
def register (d : Dispatcher) (method : String) (h : Handler) : Dispatcher :=
  { d with bindings := (method, h) :: d.bindings }

def registerAll (d : Dispatcher) (bindings : List (String × Handler)) : Dispatcher :=
  bindings.foldl (fun d b => d.register b.1 b.2) d

/-- Every method that the server knows. -/
def standardBindings : List (String × Handler) := [
  (Method.handshake, .handshake serverInfo),
  (Method.handshakeDone, .handshakeDone),
  (Method.shutdown, .shutdown),
  (Method.exit, .exit),
  (Method.didOpen, .didOpen),
  (Method.didChange, .didChange),
  (Method.didClose, .didClose),
  (Method.inlayHint, .inlayHints),
  (Method.diagnostic, .diagnostics)]

def standard (a : Analyzer) : Dispatcher := (empty a).registerAll standardBindings

def handler? (d : Dispatcher) (method : String) : Option Handler := d.bindings.lookup method

def handles (d : Dispatcher) (method : String) : Bool := (d.handler? method).isSome

def note (level : Log.Level) (message : String) : Log.Event := ⟨level, .dispatcher, message⟩

/-- Whether a message comes too late: a session that shuts down follows nothing but exit. -/
def isLate (s : Session) (method : String) : Bool := s.isShuttingDown && method != Method.exit

/-- A request gets one response, with its own id, unless nothing handles its method. -/
def request (d : Dispatcher) (s : Session) (id : RequestId) (method : String) (params : Value) :
    Dispatched :=
  let received := note .info s!"Received request {method} (id {id.display})"
  if isLate s method then
    { session := s
      response := some (.failure id (.of .invalidRequest "server is shutting down"))
      log := [received, note .warn s!"Rejecting {method} after shutdown"] }
  else
    match d.handler? method with
    | none => { session := s, log := [received, note .warn s!"[unhandled]: {method}"] }
    | some h =>
      let handled := h.handle d.analyzer s params
      match handled.result with
      | .ok result =>
        { session := handled.session
          response := some (.success id (result.getD .null))
          log := received :: handled.log ++
            [note .info s!"Sent {method} response (id {id.display})"]
          delay := handled.delay }
      | .error e =>
        { session := handled.session
          response := some (.failure id e.toResponseError)
          log := received :: handled.log ++
            [note .error s!"Got an error for {method} request: {e.message}"]
          delay := handled.delay }

/-- A notification gets no response, whatever becomes of it. -/
def notification (d : Dispatcher) (s : Session) (method : String) (params : Value) : Dispatched :=
  let received := note .info s!"Received notification {method}"
  if isLate s method then
    { session := s, log := [received, note .warn s!"Ignoring {method} after shutdown"] }
  else
    match d.handler? method with
    | none => { session := s, log := [received, note .warn s!"[unhandled]: {method}"] }
    | some h =>
      let handled := h.handle d.analyzer s params
      match handled.result with
      | .ok _ =>
        { session := handled.session
          log := received :: handled.log
          delay := handled.delay }
      | .error e =>
        { session := handled.session
          log := received :: handled.log ++
            [note .error s!"Got an error for {method} notification: {e.message}"]
          delay := handled.delay }

/-- Handles one message. The responses of clients are not used. -/
def dispatch (d : Dispatcher) (s : Session) : Message → Dispatched
  | .request id method params => d.request s id method params
  | .notification method params => d.notification s method params
  | .response id _ error =>
    let shownId := inspectOption RequestId.inspect id
    let shownError := inspectOption Value.inspect error
    { session := s
      log := [note .debug s!"Ignoring client response (id {shownId}, error {shownError})"] }

end Dispatcher

end LanguageServer
