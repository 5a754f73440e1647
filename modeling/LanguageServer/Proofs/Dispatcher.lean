import Mathlib.Tactic
import LanguageServer.Dispatcher
import LanguageServer.Proofs.Message.Response

namespace LanguageServer

open Json (Value)

namespace Session

theorem lifecycle_foldl_applyChange (uri : String) (changes : List ContentChange) (s : Session) :
    (changes.foldl (Handler.applyChange uri) s).lifecycle = s.lifecycle := by
  induction changes generalizing s with
  | nil => rfl
  | cons c changes ih =>
    rw [List.foldl_cons, ih]
    rfl

end Session

namespace Handler

variable {a : Analyzer} {s : Session} {params : Value}

theorem lifecycle_withParams {α : Type} [Payload α] {method : String} {go : α → Handled}
    (h : ∀ p, (go p).session.lifecycle = s.lifecycle) :
    (withParams α method s params go).session.lifecycle = s.lifecycle := by
  unfold withParams
  cases Payload.ofValue α params with
  | error cause => rfl
  | ok p => exact h p

theorem lifecycle_answer {α : Type} {uri question noun : String}
    {found : Except AnalyzerError (List α)} {toValue : List α → Value} :
    (answer a s uri question noun found toValue).session.lifecycle = s.lifecycle := by
  unfold answer
  cases found <;> rfl

/-- Only two handlers change how far a session is from its end. -/
theorem lifecycle_handle {h : Handler} (hshutdown : h ≠ .shutdown) (hexit : h ≠ .exit) :
    (h.handle a s params).session.lifecycle = s.lifecycle := by
  cases h with
  | handshake server =>
    unfold handle handleHandshake
    dsimp only
    split
    · rfl
    · exact lifecycle_withParams fun p => rfl
  | handshakeDone => rfl
  | shutdown => exact absurd rfl hshutdown
  | exit => exact absurd rfl hexit
  | didOpen => exact lifecycle_withParams fun p => rfl
  | didChange =>
    apply lifecycle_withParams
    intro p
    exact Session.lifecycle_foldl_applyChange p.document.uri p.changes s.countChange
  | didClose => exact lifecycle_withParams fun p => rfl
  | inlayHints => exact lifecycle_withParams fun p => lifecycle_answer
  | diagnostics => exact lifecycle_withParams fun p => lifecycle_answer

end Handler

namespace Message

def asks (method : String) (m : Message) : Bool := m.method? = some method

@[simp] theorem asks_request (id : RequestId) (method' : String) (params : Value)
    (method : String) : (request id method' params).asks method = decide (method' = method) := by
  simp [asks, method?]

@[simp] theorem asks_notification (method' : String) (params : Value) (method : String) :
    (notification method' params).asks method = decide (method' = method) := by
  simp [asks, method?]

@[simp] theorem asks_response (id : Option RequestId) (result error : Option Value)
    (method : String) : (response id result error).asks method = false := rfl

theorem asks_eq_false {m : Message} {method other : String} (h : m.asks method = true)
    (hne : method ≠ other) : m.asks other = false := by
  simp only [asks, decide_eq_true_eq] at h
  simp [asks, h, hne]

/-- The refusal of a request that comes after shutting down. -/
def refusal? : Message → Option Response
  | .request id _ _ => some (.failure id (.of .invalidRequest "server is shutting down"))
  | _ => none

/-- The id with which a request awaits its answer. -/
def awaitedId? : Message → Option RequestId
  | .request id _ _ => some id
  | _ => none

/-- The empty success that answers a request to shut down or to exit. -/
def consent? : Message → Option Response
  | .request id _ _ => some (.success id .null)
  | _ => none

end Message

namespace Frame

/-- Whoever reads the frame finds that the request of this id came too late, and nothing else. -/
structure Refuses (frame : Bytes) (id : RequestId) : Prop where
  whole : IsWhole frame
  decode : Message.decode (content frame) = .ok (.response (some id) none
    (some (.object [("code", .number (.integer (-32600))),
      ("message", .text "server is shutting down")])))

theorem refuses_failure (id : RequestId) :
    Refuses (Response.encode (.failure id (.of .invalidRequest "server is shutting down"))) id where
  whole := isWhole_encode _
  decode := Response.decode_content_failure id _

/-- Among messages that come too late, each request has a frame of its own, in the same order. -/
theorem forall₂_refuses (ms : List Message) :
    List.Forall₂ Refuses ((ms.filterMap Message.refusal?).map Response.encode)
      (ms.filterMap Message.awaitedId?) := by
  induction ms with
  | nil => exact .nil
  | cons m ms ih =>
    cases m with
    | request id method params => exact .cons (refuses_failure id) ih
    | notification method params => exact ih
    | response id result error => exact ih

end Frame

namespace Dispatcher

variable {d : Dispatcher} {a : Analyzer} {s : Session} {m : Message}

theorem mem_of_handler?_standard {method : String} {h : Handler}
    (hm : (standard a).handler? method = some h) : (method, h) ∈ standardBindings := by
  have hbindings : (standard a).bindings = standardBindings.reverse := rfl
  rw [handler?, hbindings, List.lookup_eq_some_iff] at hm
  obtain ⟨before, after, hsplit, -⟩ := hm
  rw [← List.mem_reverse, hsplit]
  simp

/-- The handlers that lead to the end of a session have the methods for it. -/
theorem ne_of_handler?_standard {method : String} {h : Handler}
    (hm : (standard a).handler? method = some h) (hshutdown : method ≠ Method.shutdown)
    (hexit : method ≠ Method.exit) : h ≠ .shutdown ∧ h ≠ .exit := by
  have all : ∀ e ∈ standardBindings,
      (e.2 = .shutdown → e.1 = Method.shutdown) ∧ (e.2 = .exit → e.1 = Method.exit) := by decide
  have hmem := all _ (mem_of_handler?_standard hm)
  exact ⟨fun h => hshutdown (hmem.1 h), fun h => hexit (hmem.2 h)⟩

theorem isLate_eq_false (h : s.isShuttingDown = false) (method : String) :
    isLate s method = false := by
  simp [isLate, h]

theorem isLate_exit (s : Session) : isLate s Method.exit = false := by
  simp [isLate]

/-- While shutting down, whatever does not ask to exit is refused and changes nothing. -/
theorem dispatch_of_shuttingDown (hs : s.isShuttingDown = true)
    (hm : m.asks Method.exit = false) :
    (d.dispatch s m).session = s ∧ (d.dispatch s m).response = m.refusal? := by
  have hlate (method : String) (hne : method ≠ Method.exit) : isLate s method = true := by
    simp [isLate, hs, hne]
  cases m with
  | request id method params =>
    have hmethod : method ≠ Method.exit := by simpa using hm
    unfold dispatch request
    dsimp only
    rw [if_pos (hlate method hmethod)]
    exact ⟨rfl, rfl⟩
  | notification method params =>
    have hmethod : method ≠ Method.exit := by simpa using hm
    unfold dispatch notification
    dsimp only
    rw [if_pos (hlate method hmethod)]
    exact ⟨rfl, rfl⟩
  | response id result error => exact ⟨rfl, rfl⟩

theorem dispatch_of_handler {method : String} {h : Handler} (hm : m.asks method = true)
    (hlate : isLate s method = false) (hhandler : d.handler? method = some h) :
    ∃ params, (d.dispatch s m).session = (h.handle d.analyzer s params).session ∧
      ∀ result, (h.handle d.analyzer s params).result = .ok result → result.getD .null = .null →
        (d.dispatch s m).response = m.consent? := by
  cases m with
  | request id method' params =>
    have hmethod : method' = method := by simpa using hm
    subst hmethod
    refine ⟨params, ?_, ?_⟩
    · simp only [dispatch, request, hlate, hhandler, Bool.false_eq_true, if_false]
      split <;> rfl
    · intro result hresult hnull
      simp only [dispatch, request, hlate, hhandler, hresult, hnull, Bool.false_eq_true, if_false]
      rfl
  | notification method' params =>
    have hmethod : method' = method := by simpa using hm
    subst hmethod
    refine ⟨params, ?_, ?_⟩
    · simp only [dispatch, notification, hlate, hhandler, Bool.false_eq_true, if_false]
      split <;> rfl
    · intro result hresult _
      simp only [dispatch, notification, hlate, hhandler, hresult, Bool.false_eq_true, if_false]
      rfl
  | response id result error => simp at hm

theorem session_dispatch_of_none {method : String} (hm : m.asks method = true)
    (hhandler : d.handler? method = none) : (d.dispatch s m).session = s := by
  cases m with
  | request id method' params =>
    have hmethod : method' = method := by simpa using hm
    subst hmethod
    simp only [dispatch, request, hhandler]
    split <;> rfl
  | notification method' params =>
    have hmethod : method' = method := by simpa using hm
    subst hmethod
    simp only [dispatch, notification, hhandler]
    split <;> rfl
  | response id result error => rfl

theorem dispatch_exit (hm : m.asks Method.exit = true) :
    ((standard a).dispatch s m).session = s.exit ∧
      ((standard a).dispatch s m).response = m.consent? := by
  have hhandler : (standard a).handler? Method.exit = some .exit := rfl
  obtain ⟨params, hsession, hresponse⟩ := dispatch_of_handler hm (isLate_exit s) hhandler
  exact ⟨hsession, hresponse none rfl rfl⟩

theorem dispatch_shutdown (hm : m.asks Method.shutdown = true)
    (hs : s.isShuttingDown = false) :
    ((standard a).dispatch s m).session = s.beginShutdown ∧
      ((standard a).dispatch s m).response = m.consent? := by
  have hhandler : (standard a).handler? Method.shutdown = some .shutdown := rfl
  have hlate := isLate_eq_false hs Method.shutdown
  obtain ⟨params, hsession, hresponse⟩ := dispatch_of_handler hm hlate hhandler
  exact ⟨hsession, hresponse (some .null) rfl rfl⟩

/-- No other message changes how far a session is from its end. -/
theorem lifecycle_dispatch (hexit : m.asks Method.exit = false)
    (hshutdown : m.asks Method.shutdown = false) :
    ((standard a).dispatch s m).session.lifecycle = s.lifecycle := by
  cases hs : s.isShuttingDown with
  | true => rw [(dispatch_of_shuttingDown hs hexit).1]
  | false =>
    cases hmethod : m.method? with
    | none =>
      cases m with
      | request id method params => cases hmethod
      | notification method params => cases hmethod
      | response id result error => rfl
    | some method =>
      have hm : m.asks method = true := by simp [Message.asks, hmethod]
      have hneShutdown : method ≠ Method.shutdown := by
        intro heq
        subst heq
        exact absurd hm (by simp [hshutdown])
      have hneExit : method ≠ Method.exit := by
        intro heq
        subst heq
        exact absurd hm (by simp [hexit])
      cases hhandler : (standard a).handler? method with
      | none => rw [session_dispatch_of_none hm hhandler]
      | some h =>
        have hne := ne_of_handler?_standard hhandler hneShutdown hneExit
        have hlate := isLate_eq_false hs method
        obtain ⟨params, hsession, -⟩ := dispatch_of_handler hm hlate hhandler
        rw [hsession]
        exact Handler.lifecycle_handle hne.1 hne.2

end Dispatcher

end LanguageServer
