import LanguageServer.Documents

namespace LanguageServer

/-- Where a session is between its start and its end. -/
inductive Lifecycle where
  | running
  /-- Only the request to exit is still followed. -/
  | shuttingDown
  /-- The end is clean if shutting down came before it. -/
  | exited (clean : Bool)
  deriving DecidableEq

/-- The form of a lifecycle in the log. -/
def Lifecycle.display : Lifecycle → String
  | .running => "Running"
  | .shuttingDown => "ShuttingDown"
  | .exited clean => "Exited \x7b clean: " ++ toString clean ++ " \x7d"

/-- All that a server remembers between two messages. -/
structure Session where
  documents : Documents := {}
  /-- How many changes were followed. A message counts once at most, so a word of 64 bits is enough
  for fewer than `2 ^ 64` messages. -/
  changeCount : Nat := 0
  lifecycle : Lifecycle := .running
  deriving DecidableEq

namespace Session

def isShuttingDown (s : Session) : Bool := s.lifecycle = .shuttingDown

def hasExited (s : Session) : Bool :=
  match s.lifecycle with
  | .exited _ => true
  | _ => false

/-- A running session shuts down, and any other goes on as it is. -/
def beginShutdown (s : Session) : Session :=
  match s.lifecycle with
  | .running => { s with lifecycle := .shuttingDown }
  | _ => s

def exit (s : Session) : Session := { s with lifecycle := .exited s.isShuttingDown }

def putText (s : Session) (uri text : String) : Session :=
  { s with documents := s.documents.put uri text }

def close (s : Session) (uri : String) : Session :=
  { s with documents := s.documents.close uri }

def countChange (s : Session) : Session := { s with changeCount := s.changeCount + 1 }

theorem hasExited_exit (s : Session) : s.exit.hasExited = true := rfl

theorem documents_beginShutdown (s : Session) : s.beginShutdown.documents = s.documents := by
  unfold beginShutdown
  split <;> rfl

theorem changeCount_beginShutdown (s : Session) :
    s.beginShutdown.changeCount = s.changeCount := by
  unfold beginShutdown
  split <;> rfl

end Session

end LanguageServer
