import LanguageServer.Handler
import LanguageServer.Proofs.Schema.ToValue

namespace LanguageServer

open Json (Value)

theorem HandshakeResult.fits_toValue (r : HandshakeResult) : r.toValue.Fits 3 := by
  have hsync : (Payload.toValue r.capabilities.sync).isExact = true := Word.isExact_val _
  refine ⟨?_, Nat.le_refl 3⟩
  simp [toValue, Capabilities.toValue, Value.isExact, Value.membersExact, hsync]

theorem DiagnosticReport.fits_toValue (r : DiagnosticReport) : r.toValue.Fits 5 := by
  have hitems : (Payload.toValue r.items).Fits 4 := Payload.fits_toValue (by decide) r.items
  refine Value.fits_object (by simp) ?_
  intro m hm
  simp only [List.mem_cons, List.not_mem_nil, or_false] at hm
  rcases hm with rfl | rfl
  · exact (Value.fits_text _).mono (by decide)
  · exact hitems

namespace Handler

variable {a : Analyzer} {s : Session} {params : Value}

/-- Whether a handler can read params. -/
def accepts (params : Value) : Handler → Bool
  | .handshake _ => params.isNull || (Payload.ofValue HandshakeParams params).isOk
  | .didOpen => (Payload.ofValue DidOpenParams params).isOk
  | .didChange => (Payload.ofValue DidChangeParams params).isOk
  | .didClose => (Payload.ofValue DidCloseParams params).isOk
  | .inlayHints => (Payload.ofValue InlayHintParams params).isOk
  | .diagnostics => (Payload.ofValue DiagnosticParams params).isOk
  | _ => true

/-- Whether the analyzer fails on what params ask it. -/
def analysisFails (a : Analyzer) (s : Session) (params : Value) : Handler → Bool
  | .inlayHints =>
    match Payload.ofValue InlayHintParams params with
    | .ok p =>
      !(a.inlayHints p.document.uri (analysedText s p.document.uri) p.range).isOk
    | .error _ => false
  | .diagnostics =>
    match Payload.ofValue DiagnosticParams params with
    | .ok p => !(a.diagnostics p.document.uri (analysedText s p.document.uri)).isOk
    | .error _ => false
  | _ => false

/-- What a handler answers: that it cannot read the params, that the analyzer has failed, or a
result. -/
inductive Outcome (accepted failed : Bool) : Except HandlerError (Option Value) → Prop where
  | refused (method : String) (cause : Json.Cause) (haccepted : accepted = false)
    (hfailed : failed = false) : Outcome accepted failed (.error (.invalidParams method cause))
  | failed (e : AnalyzerError) (haccepted : accepted = true) (hfailed : failed = true) :
    Outcome accepted failed (.error (.analysis e))
  | done (v : Option Value) (haccepted : accepted = true) (hfailed : failed = false)
    (hfits : (v.getD .null).Fits 5) : Outcome accepted failed (.ok v)

theorem outcome_withParams {α : Type} [Payload α] {method : String} {go : α → Handled}
    {failed : Bool} (hfailed : ∀ cause, Payload.ofValue α params = .error cause → failed = false)
    (h : ∀ p, Payload.ofValue α params = .ok p → Outcome true failed (go p).result) :
    Outcome (Payload.ofValue α params).isOk failed (withParams α method s params go).result := by
  unfold withParams
  cases hp : Payload.ofValue α params with
  | error cause => exact .refused method cause rfl (hfailed cause hp)
  | ok p => exact h p hp

theorem outcome_answer {α : Type} {uri question noun : String}
    {found : Except AnalyzerError (List α)} {toValue : List α → Value}
    (h : ∀ items, (toValue items).Fits 5) :
    Outcome true (!found.isOk) (answer a s uri question noun found toValue).result := by
  unfold answer
  cases found with
  | error e => exact .failed e rfl rfl
  | ok items => exact .done _ rfl rfl (h items)

theorem outcome_handle (h : Handler) (a : Analyzer) (s : Session) (params : Value) :
    Outcome (h.accepts params) (h.analysisFails a s params) (h.handle a s params).result := by
  have hnull : Value.null.Fits 5 := Value.fits_null.mono (Nat.zero_le 5)
  cases h with
  | handshake server =>
    have hgreet : (HandshakeResult.toValue ⟨.offered, server⟩).Fits 5 :=
      (HandshakeResult.fits_toValue _).mono (by decide)
    unfold handle handleHandshake
    dsimp only
    split
    · rename_i habsent
      exact .done _ (by simp [accepts, habsent]) rfl hgreet
    · rename_i hpresent
      rw [accepts, Bool.eq_false_iff.mpr hpresent, Bool.false_or]
      exact outcome_withParams (fun _ _ => rfl) fun p _ => .done _ rfl rfl hgreet
  | handshakeDone => exact .done none rfl rfl hnull
  | shutdown => exact .done (some .null) rfl rfl hnull
  | exit => exact .done none rfl rfl hnull
  | didOpen => exact outcome_withParams (fun _ _ => rfl) fun p _ => .done none rfl rfl hnull
  | didChange => exact outcome_withParams (fun _ _ => rfl) fun p _ => .done none rfl rfl hnull
  | didClose => exact outcome_withParams (fun _ _ => rfl) fun p _ => .done none rfl rfl hnull
  | inlayHints =>
    refine outcome_withParams (fun cause hp => by simp only [analysisFails, hp]) fun p hp => ?_
    simp only [analysisFails, hp]
    exact outcome_answer fun items => (Payload.fits_toValue (by decide) items).mono (by decide)
  | diagnostics =>
    refine outcome_withParams (fun cause hp => by simp only [analysisFails, hp]) fun p hp => ?_
    simp only [analysisFails, hp]
    exact outcome_answer fun items => DiagnosticReport.fits_toValue ⟨items⟩

end Handler

end LanguageServer
