import LanguageServer.Proofs.Dispatcher

namespace LanguageServer

open Json (Value)

namespace Message

/-- What a message says besides its method. -/
def params? : Message → Option Value
  | .request _ _ params => some params
  | .notification _ params => some params
  | .response _ _ _ => none

theorem exists_params_of_asks {m : Message} {method : String} (h : m.asks method = true) :
    ∃ params, m.params? = some params := by
  cases m with
  | request id method' params => exact ⟨params, rfl⟩
  | notification method' params => exact ⟨params, rfl⟩
  | response id result error => simp at h

/-- The params of a message as what they should be, if they can be read so. -/
def content? (α : Type) [Payload α] (m : Message) : Option α :=
  m.params?.bind fun params => (Payload.ofValue α params).toOption

theorem content?_eq {α : Type} [Payload α] {m : Message} {params : Value}
    (h : m.params? = some params) : m.content? α = (Payload.ofValue α params).toOption := by
  rw [content?, h]
  rfl

end Message

namespace Dispatcher

variable {d : Dispatcher} {s : Session} {m : Message} {method : String} {params : Value}

/-- Dispatches messages one after the other, also after an exit. -/
def follow (d : Dispatcher) (s : Session) (ms : List Message) : Session :=
  ms.foldl (fun s m => (d.dispatch s m).session) s

theorem follow_cons (d : Dispatcher) (s : Session) (m : Message) (ms : List Message) :
    d.follow s (m :: ms) = d.follow (d.dispatch s m).session ms := rfl

/-- The handler that gets to see a message. -/
def reached? (d : Dispatcher) (s : Session) (m : Message) : Option Handler :=
  m.method?.bind fun method => if isLate s method then none else d.handler? method

theorem reached?_request (id : RequestId) (method : String) (params : Value) :
    d.reached? s (.request id method params) =
      if isLate s method then none else d.handler? method := rfl

theorem reached?_notification (method : String) (params : Value) :
    d.reached? s (.notification method params) =
      if isLate s method then none else d.handler? method := rfl

theorem reached?_of_asks (hm : m.asks method = true) :
    d.reached? s m = if isLate s method then none else d.handler? method := by
  have hmethod : m.method? = some method := by simpa [Message.asks] using hm
  rw [reached?, hmethod]
  rfl

/-- A session changes only by the handler that a message reaches. -/
theorem session_dispatch_of_reached {h : Handler} (hreached : d.reached? s m = some h)
    (hparams : m.params? = some params) :
    (d.dispatch s m).session = (h.handle d.analyzer s params).session := by
  cases m with
  | request id method params' =>
    cases hparams
    rw [reached?_request] at hreached
    split at hreached
    · cases hreached
    · rename_i hlate
      simp only [dispatch, request, hlate, hreached, Bool.false_eq_true, if_false]
      split <;> rfl
  | notification method params' =>
    cases hparams
    rw [reached?_notification] at hreached
    split at hreached
    · cases hreached
    · rename_i hlate
      simp only [dispatch, notification, hlate, hreached, Bool.false_eq_true, if_false]
      split <;> rfl
  | response id result error => cases hparams

theorem session_dispatch_of_unreached (hreached : d.reached? s m = none) :
    (d.dispatch s m).session = s := by
  cases m with
  | request id method params =>
    rw [reached?_request] at hreached
    split at hreached
    · rename_i hlate
      simp only [dispatch, request, hlate, if_true]
    · rename_i hlate
      simp only [dispatch, request, hlate, hreached, Bool.false_eq_true, if_false]
  | notification method params =>
    rw [reached?_notification] at hreached
    split at hreached
    · rename_i hlate
      simp only [dispatch, notification, hlate, if_true]
    · rename_i hlate
      simp only [dispatch, notification, hlate, hreached, Bool.false_eq_true, if_false]
  | response id result error => rfl

end Dispatcher

end LanguageServer
