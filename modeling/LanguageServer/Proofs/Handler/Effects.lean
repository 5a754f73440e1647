import LanguageServer.Proofs.Dispatcher.Documents
import LanguageServer.Proofs.Message.Response

namespace LanguageServer

open Json (Cause Value)

theorem exists_error_of_mem_readAll {α : Type} {read : Value → Except Cause α} {v : Value}
    {vs : List Value} (hv : v ∈ vs) (h : ∃ cause, read v = .error cause) :
    ∃ cause, readAll read vs = .error cause := by
  induction vs with
  | nil => cases hv
  | cons w vs ih =>
    rw [readAll]
    cases hw : read w with
    | error cause => exact ⟨cause, rfl⟩
    | ok a =>
      have hne : v ≠ w := by
        intro heq
        subst heq
        obtain ⟨cause, hcause⟩ := h
        rw [hw] at hcause
        cases hcause
      obtain ⟨cause, hcause⟩ := ih ((List.mem_cons.mp hv).resolve_left hne)
      rw [hcause]
      exact ⟨cause, rfl⟩

/-- A member that no slots can take keeps the object from being read, wherever it stands. -/
theorem exists_error_of_mem_meetAll {σ : Type} {meet : String → Value → σ → Except Cause σ}
    {m : String × Value} {ms : List (String × Value)} (hm : m ∈ ms)
    (h : ∀ slots, ∃ cause, meet m.1 m.2 slots = .error cause) (slots : σ) :
    ∃ cause, meetAll meet ms slots = .error cause := by
  induction ms generalizing slots with
  | nil => cases hm
  | cons n ms ih =>
    rw [meetAll]
    rcases List.mem_cons.mp hm with rfl | hm
    · obtain ⟨cause, hcause⟩ := h slots
      rw [hcause]
      exact ⟨cause, rfl⟩
    · cases meet n.1 n.2 slots with
      | error cause => exact ⟨cause, rfl⟩
      | ok next => exact ih hm next

theorem Schema.exists_error_of_mem {name : String} {members : Members} {m : String × Value}
    {ms : List (String × Value)} (hm : m ∈ ms)
    (h : ∀ slots, ∃ cause, members.meet m.1 m.2 slots = .error cause) :
    ∃ cause, Schema.ofValue (.record name members) (.object ms) = .error cause := by
  obtain ⟨cause, hmeet⟩ := exists_error_of_mem_meetAll hm h members.empty
  exact ⟨cause, by rw [Schema.ofValue_object, hmeet]⟩

namespace DidChangeParams

/-- The params carry a list of changes, in an object or in its place in a list. -/
def Carries (params : Value) (changes : List Value) : Prop :=
  (∃ members, params = .object members ∧ ("contentChanges", .list changes) ∈ members) ∨
    ∃ document more, params = .list (document :: .list changes :: more)

/-- One change that cannot be read keeps all of them from being read. -/
theorem exists_error_of_carries {params v : Value} {changes : List Value}
    (h : Carries params changes) (hv : v ∈ changes)
    (hbad : (Payload.ofValue ContentChange v).isOk = false) :
    ∃ cause, Payload.ofValue DidChangeParams params = .error cause := by
  have hentry : ∃ cause, (Payload.schema ContentChange).ofValue v = .error cause := by
    unfold Payload.ofValue at hbad
    cases hread : (Payload.schema ContentChange).ofValue v with
    | error cause => exact ⟨cause, rfl⟩
    | ok c =>
      rw [hread] at hbad
      cases hbad
  obtain ⟨cause, hlist⟩ : ∃ cause,
      (Payload.schema (List ContentChange)).ofValue (.list changes) = .error cause :=
    exists_error_of_mem_readAll hv hentry
  have hparams : ∃ cause, (Payload.schema DidChangeParams).ofValue params = .error cause := by
    rcases h with ⟨members, rfl, hmem⟩ | ⟨document, more, rfl⟩
    · refine Schema.exists_error_of_mem hmem fun (_, slot, _) => ?_
      cases slot <;> simp [Members.meet, hlist]
    · change ∃ cause, Schema.ofValue (.record _ _) (.list (document :: .list changes :: more)) =
        .error cause
      rw [Schema.ofValue, Members.ofItems]
      cases hdocument : (Payload.schema ChangedDocument).ofValue document with
      | error cause => exact ⟨cause, rfl⟩
      | ok d =>
        rw [Members.ofItems, hlist]
        exact ⟨cause, rfl⟩
  obtain ⟨cause, hparams⟩ := hparams
  exact ⟨cause, by rw [Payload.ofValue, hparams]⟩

end DidChangeParams

namespace Handler

variable {a : Analyzer} {s : Session} {params : Value}

/-- The handlers that answer and change nothing. -/
def onlyAnswers : Handler → Bool
  | .handshake _ | .handshakeDone | .inlayHints | .diagnostics => true
  | _ => false

/-- The document that the params of a handler name. -/
def document? (params : Value) : Handler → Option String
  | .didOpen => (Payload.ofValue DidOpenParams params).toOption.map (·.document.uri)
  | .didChange => (Payload.ofValue DidChangeParams params).toOption.map (·.document.uri)
  | .didClose => (Payload.ofValue DidCloseParams params).toOption.map (·.document.uri)
  | _ => none

/-- What a handler leaves of a session, with its result: the session itself if it only answers or
cannot read its params, and one change of the session if it has not failed. -/
inductive Effect (s : Session) (params : Value) :
    Handler → Except HandlerError (Option Value) → Session → Prop where
  | answered {h : Handler} (hanswers : h.onlyAnswers = true)
    (result : Except HandlerError (Option Value)) : Effect s params h result s
  | refused (h : Handler) (method : String) (cause : Cause) :
    Effect s params h (.error (.invalidParams method cause)) s
  | shutdown : Effect s params .shutdown (.ok (some .null)) s.beginShutdown
  | exited : Effect s params .exit (.ok none) s.exit
  | opened {p : DidOpenParams} (hp : Payload.ofValue DidOpenParams params = .ok p) :
    Effect s params .didOpen (.ok none) (s.putText p.document.uri p.document.text)
  | changed {p : DidChangeParams} (hp : Payload.ofValue DidChangeParams params = .ok p) :
    Effect s params .didChange (.ok none)
      (p.changes.foldl (applyChange p.document.uri) s.countChange)
  | closed {p : DidCloseParams} (hp : Payload.ofValue DidCloseParams params = .ok p) :
    Effect s params .didClose (.ok none) (s.close p.document.uri)

theorem effect_withParams {α : Type} [Payload α] {h : Handler} {method : String}
    {go : α → Handled}
    (hgo : ∀ p, Payload.ofValue α params = .ok p → Effect s params h (go p).result (go p).session) :
    Effect s params h (withParams α method s params go).result
      (withParams α method s params go).session := by
  unfold withParams
  cases hp : Payload.ofValue α params with
  | error cause => exact .refused h method cause
  | ok p => exact hgo p hp

theorem session_answer {α : Type} (a : Analyzer) (s : Session) (uri question noun : String)
    (found : Except AnalyzerError (List α)) (toValue : List α → Value) :
    (answer a s uri question noun found toValue).session = s := by
  unfold answer
  cases found <;> rfl

theorem effect_handle (h : Handler) (a : Analyzer) (s : Session) (params : Value) :
    Effect s params h (h.handle a s params).result (h.handle a s params).session := by
  have answered {h : Handler} {x : Handled} (hanswers : h.onlyAnswers = true)
      (hx : x.session = s) : Effect s params h x.result x.session := by
    rw [hx]
    exact .answered hanswers x.result
  cases h with
  | handshake server =>
    unfold handle handleHandshake
    dsimp only
    split
    · exact answered rfl rfl
    · exact effect_withParams fun p _ => answered rfl rfl
  | handshakeDone => exact answered rfl rfl
  | shutdown => exact .shutdown
  | exit => exact .exited
  | didOpen => exact effect_withParams fun p hp => .opened hp
  | didChange => exact effect_withParams fun p hp => .changed hp
  | didClose => exact effect_withParams fun p hp => .closed hp
  | inlayHints => exact effect_withParams fun p _ => answered rfl (session_answer ..)
  | diagnostics => exact effect_withParams fun p _ => answered rfl (session_answer ..)

namespace Effect

variable {h : Handler} {result : Except HandlerError (Option Value)} {after : Session}

theorem eq_of_error (heffect : Effect s params h result after) {e : HandlerError}
    (he : result = .error e) : after = s := by
  cases heffect with
  | answered => rfl
  | refused => rfl
  | _ => cases he

theorem eq_of_onlyAnswers (heffect : Effect s params h result after)
    (hanswers : h.onlyAnswers = true) : after = s := by
  cases heffect with
  | answered => rfl
  | refused => rfl
  | _ => cases hanswers

/-- Only the text of the document that the params name can change, and only by the handlers that
read the name of a document there. -/
theorem text?_eq (heffect : Effect s params h result after) {uri : String}
    (huri : h.document? params ≠ some uri) :
    after.documents.text? uri = s.documents.text? uri := by
  have hne {name : String} (hname : h.document? params = some name) : name ≠ uri := by
    intro heq
    exact huri (heq ▸ hname)
  cases heffect with
  | answered => rfl
  | refused => rfl
  | shutdown => rw [s.documents_beginShutdown]
  | exited => rfl
  | @opened p hp =>
    have hother : p.document.uri ≠ uri := hne (by simp [document?, hp, Except.toOption])
    rw [Session.putText, Documents.text?_put, if_neg hother.symm]
  | @changed p hp =>
    have hother : p.document.uri ≠ uri := hne (by simp [document?, hp, Except.toOption])
    rw [Session.text?_foldl_applyChange, DidChangeParams.edit?, if_neg hother]
    rfl
  | @closed p hp =>
    have hother : p.document.uri ≠ uri := hne (by simp [document?, hp, Except.toOption])
    rw [Session.close, Documents.text?_close, if_neg hother.symm]

end Effect

/-- A handler does all or nothing. One that fails leaves the session as it is, and so does one that
only answers. A handler of documents changes the text of no document but the one in its params, and
one that ends the session changes no document. A list of changes with one that cannot be read is
neither applied nor counted. -/
theorem handle_effects (h : Handler) (a : Analyzer) (s : Session) (params : Value) :
    let result := (h.handle a s params).result
    let after := (h.handle a s params).session
    (∀ e, result = .error e → after = s) ∧
      (h.onlyAnswers = true → after = s) ∧
      (h = .didOpen ∨ h = .didChange ∨ h = .didClose → after.lifecycle = s.lifecycle ∧
        ∀ uri, h.document? params ≠ some uri →
          after.documents.text? uri = s.documents.text? uri) ∧
      (h = .shutdown ∨ h = .exit →
        after.documents = s.documents ∧ after.changeCount = s.changeCount) ∧
      (h = .didChange → ∀ changes, DidChangeParams.Carries params changes →
        (∃ v ∈ changes, (Payload.ofValue ContentChange v).isOk = false) →
        (∃ cause, result = .error (.invalidParams Method.didChange cause)) ∧ after = s) := by
  intro result after
  have heffect : Effect s params h result after := effect_handle h a s params
  refine ⟨fun e => heffect.eq_of_error, heffect.eq_of_onlyAnswers, ?_, ?_, ?_⟩
  · intro hdocument
    refine ⟨lifecycle_handle ?_ ?_, fun uri => heffect.text?_eq⟩ <;>
      rcases hdocument with rfl | rfl | rfl <;> exact Handler.noConfusion
  · intro hends
    rcases hends with rfl | rfl
    · exact ⟨s.documents_beginShutdown, s.changeCount_beginShutdown⟩
    · exact ⟨rfl, rfl⟩
  · intro hchange changes hcarries hmalformed
    subst hchange
    obtain ⟨v, hv, hbad⟩ := hmalformed
    obtain ⟨cause, hcause⟩ := DidChangeParams.exists_error_of_carries hcarries hv hbad
    have hresult : result = .error (.invalidParams Method.didChange cause) := by
      simp only [result, handle, withParams, hcause]
    exact ⟨⟨cause, hresult⟩, heffect.eq_of_error hresult⟩

/-- The second of three changes cannot be read, so that the first is not applied either. Params that
can be read change the text of their own document and of no other. -/
theorem handle_effects_secondChange :
    let a := Analyzer.sample 0
    let s := ({} : Session).putText "a" "old"
    let text (t : String) := Value.object [("text", .text t)]
    let changes := [text "one", .null, text "two"]
    let params (uri : String) (changes : List Value) := Value.object
      [("textDocument", .object [("uri", .text uri)]), ("contentChanges", .list changes)]
    let refused := Handler.didChange.handle a s (params "a" changes)
    let applied := Handler.didChange.handle a s (params "b" [text "new"])
    (∃ cause, refused.result = .error (.invalidParams Method.didChange cause)) ∧
      refused.session = s ∧ applied.session.documents.text? "a" = some "old" ∧
      applied.session.documents.text? "b" = some "new" := by
  intro a s text changes params refused applied
  have hcarries : DidChangeParams.Carries (params "a" changes) changes :=
    .inl ⟨_, rfl, by simp⟩
  have hnull : ∃ v ∈ changes, (Payload.ofValue ContentChange v).isOk = false :=
    ⟨.null, by simp [changes], rfl⟩
  obtain ⟨-, -, -, -, hchanges⟩ := handle_effects .didChange a s (params "a" changes)
  obtain ⟨-, -, hothers, -⟩ := handle_effects .didChange a s (params "b" [text "new"])
  have hname : Handler.didChange.document? (params "b" [text "new"]) = some "b" := by
    decide +kernel
  obtain ⟨-, htext⟩ := hothers (.inr (.inl rfl))
  obtain ⟨hcause, hsession⟩ := hchanges rfl changes hcarries hnull
  refine ⟨hcause, hsession, ?_, by decide +kernel⟩
  rw [show applied.session.documents.text? "a" = _ from htext "a" (by rw [hname]; decide)]
  decide +kernel

end Handler

end LanguageServer
