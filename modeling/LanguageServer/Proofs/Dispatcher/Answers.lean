import LanguageServer.Proofs.Dispatcher
import LanguageServer.Proofs.Handler
import LanguageServer.Proofs.Message.Response

namespace LanguageServer

open Json (Value)

/-- A request that is answered, with the session that it meets. -/
structure Question where
  session : Session
  id : RequestId
  method : String
  params : Value

namespace Response

/-- The code of the error that a response carries, if it carries one. -/
def code? (r : Response) : Option Int := r.error.map fun e => e.code.val

/-- The response that tells what a handler has led to. -/
def ofResult (id : RequestId) : Except HandlerError (Option Value) → Response
  | .ok v => success id (v.getD .null)
  | .error e => failure id e.toResponseError

end Response

namespace Dispatcher

/-- A message asks for an answer if it is a request and comes too late or has a handler. -/
def question? (d : Dispatcher) (s : Session) : Message → Option Question
  | .request id method params =>
    if isLate s method || d.handles method then some ⟨s, id, method, params⟩ else none
  | _ => none

/-- The requests among messages that are answered, in the order in which they come. -/
def questions (d : Dispatcher) (s : Session) : List Message → List Question
  | [] => []
  | m :: ms => (d.question? s m).toList ++ d.questions (d.dispatch s m).session ms

/-- The answers to messages, in the order in which they are given. -/
def responses (d : Dispatcher) (s : Session) : List Message → List Response
  | [] => []
  | m :: ms => (d.dispatch s m).response.toList ++ d.responses (d.dispatch s m).session ms

/-- The code of the error that a request leads to: it comes too late, its params cannot be read, or
the analyzer fails on them. -/
def errorCode? (d : Dispatcher) (q : Question) : Option Int :=
  if isLate q.session q.method then some (-32600)
  else
    match d.handler? q.method with
    | none => none
    | some h =>
      if !h.accepts q.params then some (-32602)
      else if h.analysisFails d.analyzer q.session q.params then some (-32603)
      else none

/-- The response has the id of the request and either a result or the error that the request leads
to, and whoever reads the frame finds all of it again. A result that is null is read as none. -/
structure Answers (d : Dispatcher) (q : Question) (r : Response) : Prop where
  id : r.id = q.id
  one : r.result.isSome = !r.error.isSome
  code : r.code? = d.errorCode? q
  split : r.body.length ≤ maxBodyLength →
    Frame.split r.encode = .ok (some ⟨r.body, r.encode.length⟩)
  decode : Message.decode r.body = .ok (.response (some q.id) (r.result.filter (!·.isNull))
    (r.error.map Payload.toValue))

variable {d : Dispatcher} {q : Question} {h : Handler}

theorem answers_failure {e : ErrorCode} (h : d.errorCode? q = some e.code.val)
    (message : String) : d.Answers q (.failure q.id (.of e message)) where
  id := rfl
  one := rfl
  code := h.symm
  split := Response.split_encode
  decode := Response.decode_body rfl (by simp [Response.failure])

theorem answers_success {v : Value} (h : d.errorCode? q = none) (hv : v.Fits 126) :
    d.Answers q (.success q.id v) where
  id := rfl
  one := rfl
  code := h.symm
  split := Response.split_encode
  decode := Response.decode_body rfl (by simpa [Response.success] using hv)

theorem errorCode?_of_late (h : isLate q.session q.method = true) :
    d.errorCode? q = some (-32600) := if_pos h

theorem errorCode?_of_handler (hlate : isLate q.session q.method = false)
    (hh : d.handler? q.method = some h) : d.errorCode? q =
      if !h.accepts q.params then some (-32602)
      else if h.analysisFails d.analyzer q.session q.params then some (-32603)
      else none := by
  simp only [errorCode?, hlate, hh, Bool.false_eq_true, if_false]

theorem answers_of_outcome {result : Except HandlerError (Option Value)}
    (hlate : isLate q.session q.method = false) (hh : d.handler? q.method = some h)
    (houtcome : Handler.Outcome (h.accepts q.params)
      (h.analysisFails d.analyzer q.session q.params) result) :
    d.Answers q (.ofResult q.id result) := by
  have hcode := errorCode?_of_handler hlate hh
  cases houtcome with
  | refused method cause haccepted _ =>
    rw [haccepted] at hcode
    exact answers_failure hcode _
  | failed e haccepted hfailed =>
    rw [haccepted, hfailed] at hcode
    exact answers_failure hcode _
  | done v haccepted hfailed hfits =>
    rw [haccepted, hfailed] at hcode
    exact answers_success hcode (hfits.mono (by decide))

theorem response_of_handler {s : Session} {method : String} (hlate : isLate s method = false)
    (hh : d.handler? method = some h) (id : RequestId) (params : Value) :
    (d.dispatch s (.request id method params)).response =
      some (.ofResult id (h.handle d.analyzer s params).result) := by
  simp only [dispatch, request, hlate, hh, Bool.false_eq_true, if_false]
  split
  · rename_i result hresult
    rw [hresult]
    rfl
  · rename_i e hresult
    rw [hresult]
    rfl

theorem response_notification (d : Dispatcher) (s : Session) (method : String) (params : Value) :
    (d.dispatch s (.notification method params)).response = none := by
  simp only [dispatch, notification]
  split
  · rfl
  · split
    · rfl
    · split <;> rfl

/-- Every message is either no question and stays without an answer, or it gets one. -/
theorem answers_dispatch (d : Dispatcher) (s : Session) (m : Message) :
    (d.question? s m = none ∧ (d.dispatch s m).response = none) ∨
      ∃ q r, d.question? s m = some q ∧ (d.dispatch s m).response = some r ∧ d.Answers q r := by
  cases m with
  | notification method params => exact .inl ⟨rfl, response_notification d s method params⟩
  | response id result error => exact .inl ⟨rfl, rfl⟩
  | request id method params =>
    cases hlate : isLate s method with
    | true =>
      have hresponse : (d.dispatch s (.request id method params)).response =
          some (.failure id (.of .invalidRequest "server is shutting down")) := by
        simp only [dispatch, request, hlate, if_true]
      exact .inr ⟨⟨s, id, method, params⟩, _, by simp [question?, hlate], hresponse,
        answers_failure (errorCode?_of_late hlate) _⟩
    | false =>
      cases hh : d.handler? method with
      | none => exact .inl (by simp [question?, dispatch, request, handles, hlate, hh])
      | some h =>
        exact .inr ⟨⟨s, id, method, params⟩, _, by simp [question?, handles, hh],
          response_of_handler hlate hh id params,
          answers_of_outcome hlate hh (h.outcome_handle d.analyzer s params)⟩

theorem isSome_response (d : Dispatcher) (s : Session) (m : Message) :
    (d.dispatch s m).response.isSome = (d.question? s m).isSome := by
  rcases d.answers_dispatch s m with ⟨hq, hr⟩ | ⟨q, r, hq, hr, -⟩
  · rw [hq, hr]
    rfl
  · rw [hq, hr]
    rfl

theorem answers_questions (d : Dispatcher) (s : Session) (ms : List Message) :
    List.Forall₂ d.Answers (d.questions s ms) (d.responses s ms) := by
  induction ms generalizing s with
  | nil => exact .nil
  | cons m ms ih =>
    rcases d.answers_dispatch s m with ⟨hq, hr⟩ | ⟨q, r, hq, hr, hanswers⟩
    · rw [questions, responses, hq, hr]
      exact ih _
    · rw [questions, responses, hq, hr]
      exact .cons hanswers (ih _)

theorem bindings_registerAll (d : Dispatcher) (bindings : List (String × Handler)) :
    (d.registerAll bindings).bindings = bindings.reverse ++ d.bindings := by
  induction bindings generalizing d with
  | nil => rfl
  | cons b bindings ih =>
    have hstep : d.registerAll (b :: bindings) = (d.register b.1 b.2).registerAll bindings := rfl
    rw [hstep, ih, register]
    simp

theorem handles_registerAll (a : Analyzer) (bindings : List (String × Handler)) (method : String) :
    ((empty a).registerAll bindings).handles method = true ↔ method ∈ bindings.map Prod.fst := by
  rw [handles, handler?, bindings_registerAll, empty, List.append_nil, List.lookup_isSome_iff]
  simp

theorem isSome_question? (d : Dispatcher) (s : Session) (m : Message) :
    (d.question? s m).isSome = true ↔ ∃ id method params, m = .request id method params ∧
      (s.isShuttingDown = true ∧ method ≠ Method.exit ∨ d.handles method = true) := by
  cases m with
  | request id method params =>
    simp [question?, isLate]
  | notification method params => simp [question?]
  | response id result error => simp [question?]

/-- The requests that come too late or have a handler are answered, each by its own response and in
their order, and nothing else is answered. -/
theorem registerAll_answers (a : Analyzer) (bindings : List (String × Handler)) (s : Session)
    (ms : List Message) :
    let d := (empty a).registerAll bindings
    (∀ s m, (d.dispatch s m).response.isSome = true ↔ ∃ id method params,
      m = .request id method params ∧
        (s.isShuttingDown = true ∧ method ≠ Method.exit ∨ method ∈ bindings.map Prod.fst)) ∧
      List.Forall₂ d.Answers (d.questions s ms) (d.responses s ms) := by
  intro d
  refine ⟨?_, d.answers_questions s ms⟩
  intro s m
  simp only [isSome_response, isSome_question?, d, handles_registerAll]

/-- The answer to shutting down has a result, which is null, and is read as an answer that has
none. -/
theorem exists_answer_without_result :
    ∃ r, (((empty (.sample 0)).registerAll [(Method.shutdown, .shutdown)]).dispatch {}
        (.request (.number { val := 1 }) Method.shutdown .null)).response = some r ∧
      r.result = some .null ∧ r.body.length ≤ maxBodyLength ∧
      Message.decode r.body = .ok (.response (some (.number { val := 1 })) none none) := by
  have hfits : Value.null.Fits 126 := Value.fits_null.mono (by decide)
  refine ⟨.success (.number { val := 1 }) .null, rfl, rfl, by decide +kernel, ?_⟩
  exact Response.decode_body rfl (by simpa [Response.success] using hfits)

end Dispatcher

end LanguageServer
