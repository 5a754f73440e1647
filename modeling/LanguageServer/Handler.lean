import LanguageServer.Analyzer
import LanguageServer.Message.Response
import LanguageServer.Payload.Handshake
import LanguageServer.Session

namespace LanguageServer

open Json (Value)

namespace Method

/-! The names under which clients ask for something. -/

def handshake : String := "initialize"
def handshakeDone : String := "initialized"
def shutdown : String := "shutdown"
def exit : String := "exit"
def didOpen : String := "textDocument/didOpen"
def didChange : String := "textDocument/didChange"
def didClose : String := "textDocument/didClose"
def inlayHint : String := "textDocument/inlayHint"
def diagnostic : String := "textDocument/diagnostic"

end Method

/-- Why a handler has no result. Every result can be put into a value, so none fails there. -/
inductive HandlerError where
  | invalidParams (method : String) (cause : Json.Cause)
  | analysis (error : AnalyzerError)
  deriving DecidableEq

namespace HandlerError

def message : HandlerError → String
  | .invalidParams method cause => s!"invalid params for {method}: {cause.message}"
  | .analysis error => error.message

def code : HandlerError → ErrorCode
  | .invalidParams _ _ => .invalidParams
  | .analysis _ => .internalError

def toResponseError (e : HandlerError) : ResponseError := .of e.code e.message

end HandlerError

/-- What answers the messages of one method. -/
inductive Handler where
  | handshake (server : ServerInfo)
  | handshakeDone
  | shutdown
  | exit
  | didOpen
  | didChange
  | didClose
  | inlayHints
  | diagnostics
  deriving DecidableEq

/-- What a handler leaves behind. -/
structure Handled where
  session : Session
  result : Except HandlerError (Option Value)
  log : List Log.Event := []
  /-- Milliseconds that it took. -/
  delay : Nat := 0

namespace Handler

def note (level : Log.Level) (message : String) : Log.Event := ⟨level, .handlers, message⟩

/-- Goes on with the params as what they should be. Params that are something else change
nothing. -/
def withParams (α : Type) [Payload α] (method : String) (s : Session) (params : Value)
    (go : α → Handled) : Handled :=
  match Payload.ofValue α params with
  | .error cause => { session := s, result := .error (.invalidParams method cause) }
  | .ok p => go p

def clientLog : Option ClientInfo → Log.Event
  | some client =>
    let version := client.version.getD ""
    note .info s!"Connected to {client.name} {version}"
  | none => note .info "Connected to unnamed client"

def handleHandshake (server : ServerInfo) (s : Session) (params : Value) : Handled :=
  let greet (p : HandshakeParams) : Handled :=
    { session := s
      result := .ok (some (HandshakeResult.toValue ⟨.offered, server⟩))
      log := [clientLog p.clientInfo] }
  if params.isNull then greet ⟨none⟩
  else withParams HandshakeParams Method.handshake s params greet

def handleOpen (s : Session) (p : DidOpenParams) : Handled where
  session := s.putText p.document.uri p.document.text
  result := .ok none
  log := [note .info s!"Opened document: {p.document.uri}", note .debug p.document.text]

/-- The session after one change. -/
def applyChange (uri : String) (s : Session) (c : ContentChange) : Session := s.putText uri c.text

/-- What is logged for changes, each one applied before the next. -/
def changeLog (uri : String) (s : Session) : List ContentChange → List Log.Event
  | [] => []
  | c :: cs =>
    (if c.range.isSome then
      [note .warn s!"Ignoring range on content change for {uri}"] else []) ++
    s.documents.updateLog uri ++ changeLog uri (applyChange uri s c) cs

def handleChange (s : Session) (p : DidChangeParams) : Handled :=
  let uri := p.document.uri
  let counted := s.countChange
  let counts := s!"({p.changes.length} changes, change count {counted.changeCount})"
  { session := p.changes.foldl (applyChange uri) counted
    result := .ok none
    log :=
      note .info s!"Changed document: {uri} {counts}" :: changeLog uri counted p.changes }

def handleClose (s : Session) (p : DidCloseParams) : Handled :=
  let uri := p.document.uri
  { session := s.close uri
    result := .ok none
    log :=
      if s.documents.isOpen uri then [note .info s!"Closed document: {uri}"]
      else [note .warn s!"Close for unopened document {uri}"] }

/-- The text to analyse, which is empty for a document that is not open. -/
def analysedText (s : Session) (uri : String) : String := (s.documents.text? uri).getD ""

def textLog (s : Session) (uri : String) : List Log.Event :=
  if s.documents.isOpen uri then []
  else [note .warn s!"No text for {uri}, analyzing empty document"]

/-- The answer to a question to the analyzer. -/
def answer {α : Type} (a : Analyzer) (s : Session) (uri question noun : String)
    (found : Except AnalyzerError (List α)) (toValue : List α → Value) : Handled :=
  let asked := note .info question :: textLog s uri ++ a.startLog
  match found with
  | .error e => { session := s, result := .error (.analysis e), log := asked, delay := a.delay }
  | .ok items =>
    { session := s
      result := .ok (some (toValue items))
      log := asked ++ [note .debug s!"Returning {items.length} {noun}"]
      delay := a.delay }

def handleHints (a : Analyzer) (s : Session) (p : InlayHintParams) : Handled :=
  let uri := p.document.uri
  let start := p.range.start
  answer a s uri
    s!"Got inlay hint request for {uri} at {start.line.val} ({start.character.val})"
    "inlay hints" (a.inlayHints uri (analysedText s uri) p.range) Payload.toValue

def handleDiagnostics (a : Analyzer) (s : Session) (p : DiagnosticParams) : Handled :=
  let uri := p.document.uri
  answer a s uri s!"Got diagnostics request for {uri}" "diagnostics"
    (a.diagnostics uri (analysedText s uri)) fun items => DiagnosticReport.toValue ⟨items⟩

/-- Handles the params of one message. -/
def handle (h : Handler) (a : Analyzer) (s : Session) (params : Value) : Handled :=
  match h with
  | .handshake server => handleHandshake server s params
  | .handshakeDone =>
    { session := s, result := .ok none, log := [note .info "Client finished initialization"] }
  | .shutdown =>
    { session := s.beginShutdown
      result := .ok (some .null)
      log := [note .info "Shutting down"] }
  | .exit =>
    { session := s.exit
      result := .ok none
      log := [note .info s!"Exit requested ({s.exit.lifecycle.display})"] }
  | .didOpen => withParams DidOpenParams Method.didOpen s params (handleOpen s)
  | .didChange => withParams DidChangeParams Method.didChange s params (handleChange s)
  | .didClose => withParams DidCloseParams Method.didClose s params (handleClose s)
  | .inlayHints => withParams InlayHintParams Method.inlayHint s params (handleHints a s)
  | .diagnostics =>
    withParams DiagnosticParams Method.diagnostic s params (handleDiagnostics a s)

end Handler

end LanguageServer
