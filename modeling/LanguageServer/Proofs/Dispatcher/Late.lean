import LanguageServer.Proofs.Dispatcher.Answers
import LanguageServer.Proofs.Dispatcher.Follow
import LanguageServer.Proofs.Dispatcher.Replay

namespace LanguageServer

open Json (Value)

namespace Session

/-- Two sessions remember the same documents and changes, however far they are from their end. -/
structure Agree (s t : Session) : Prop where
  documents : s.documents = t.documents
  changeCount : s.changeCount = t.changeCount

variable {s t : Session}

theorem Agree.refl (s : Session) : Agree s s := ⟨rfl, rfl⟩

theorem Agree.putText (h : Agree s t) (uri text : String) :
    Agree (s.putText uri text) (t.putText uri text) :=
  ⟨congrArg (·.put uri text) h.documents, h.changeCount⟩

theorem Agree.close (h : Agree s t) (uri : String) : Agree (s.close uri) (t.close uri) :=
  ⟨congrArg (·.close uri) h.documents, h.changeCount⟩

theorem Agree.countChange (h : Agree s t) : Agree s.countChange t.countChange :=
  ⟨h.documents, congrArg (· + 1) h.changeCount⟩

theorem Agree.beginShutdown (h : Agree s t) : Agree s.beginShutdown t.beginShutdown := by
  refine ⟨?_, ?_⟩
  · rw [documents_beginShutdown, documents_beginShutdown, h.documents]
  · rw [changeCount_beginShutdown, changeCount_beginShutdown, h.changeCount]

theorem Agree.exit (h : Agree s t) : Agree s.exit t.exit := ⟨h.documents, h.changeCount⟩

theorem Agree.foldl_applyChange (h : Agree s t) (uri : String) (changes : List ContentChange) :
    Agree (changes.foldl (Handler.applyChange uri) s)
      (changes.foldl (Handler.applyChange uri) t) := by
  induction changes generalizing s t with
  | nil => exact h
  | cons c changes ih => exact ih (h.putText uri c.text)

end Session

namespace Handled

/-- Two handlers end in the same result, in sessions that agree. -/
structure Agree (x y : Handled) : Prop where
  session : x.session.Agree y.session
  result : x.result = y.result

end Handled

namespace Handler

variable {a : Analyzer} {s t : Session} {params : Value}

theorem agree_withParams {α : Type} [Payload α] {method : String} {go go' : α → Handled}
    (hst : s.Agree t) (h : ∀ p, (go p).Agree (go' p)) :
    (withParams α method s params go).Agree (withParams α method t params go') := by
  unfold withParams
  cases Payload.ofValue α params with
  | error cause => exact ⟨hst, rfl⟩
  | ok p => exact h p

theorem agree_answer {α : Type} {uri question noun : String}
    {found : Except AnalyzerError (List α)} {toValue : List α → Value} (hst : s.Agree t) :
    (answer a s uri question noun found toValue).Agree
      (answer a t uri question noun found toValue) := by
  unfold answer
  cases found with
  | error e => exact ⟨hst, rfl⟩
  | ok items => exact ⟨hst, rfl⟩

/-- What a handler does to the documents, and what it answers, does not depend on how far the
session is from its end. -/
theorem agree_handle (hst : s.Agree t) (h : Handler) (a : Analyzer) (params : Value) :
    (h.handle a s params).Agree (h.handle a t params) := by
  have htext (uri : String) : analysedText s uri = analysedText t uri := by
    rw [analysedText, hst.documents]
    rfl
  cases h with
  | handshake server =>
    unfold handle handleHandshake
    dsimp only
    split
    · exact ⟨hst, rfl⟩
    · exact agree_withParams hst fun p => ⟨hst, rfl⟩
  | handshakeDone => exact ⟨hst, rfl⟩
  | shutdown => exact ⟨hst.beginShutdown, rfl⟩
  | exit => exact ⟨hst.exit, rfl⟩
  | didOpen =>
    exact agree_withParams hst fun p => ⟨hst.putText p.document.uri p.document.text, rfl⟩
  | didChange =>
    exact agree_withParams hst fun p =>
      ⟨hst.countChange.foldl_applyChange p.document.uri p.changes, rfl⟩
  | didClose => exact agree_withParams hst fun p => ⟨hst.close p.document.uri, rfl⟩
  | inlayHints =>
    refine agree_withParams hst fun p => ?_
    rw [handleHints, handleHints, htext]
    exact agree_answer hst
  | diagnostics =>
    refine agree_withParams hst fun p => ?_
    rw [handleDiagnostics, handleDiagnostics, htext]
    exact agree_answer hst

end Handler

namespace Dispatcher

variable {d : Dispatcher} {a : Analyzer} {s t : Session} {m : Message} {ms : List Message}

/-- All that counts of how far a session is from its end is whether it shuts down. -/
theorem agree_dispatch (hst : s.Agree t) (hshut : s.isShuttingDown = t.isShuttingDown)
    (d : Dispatcher) (m : Message) :
    (d.dispatch s m).session.Agree (d.dispatch t m).session ∧
      (d.dispatch s m).response = (d.dispatch t m).response := by
  have hlate (method : String) : isLate s method = isLate t method := by
    rw [isLate, isLate, hshut]
  have hsession (hreached : d.reached? s m = d.reached? t m) :
      (d.dispatch s m).session.Agree (d.dispatch t m).session := by
    cases hhandler : d.reached? s m with
    | none =>
      rw [session_dispatch_of_unreached hhandler,
        session_dispatch_of_unreached (hreached.symm.trans hhandler)]
      exact hst
    | some h =>
      cases hparams : m.params? with
      | none =>
        cases m with
        | request id method params => cases hparams
        | notification method params => cases hparams
        | response id result error => cases hhandler
      | some params =>
        rw [session_dispatch_of_reached hhandler hparams,
          session_dispatch_of_reached (hreached.symm.trans hhandler) hparams]
        exact (Handler.agree_handle hst h d.analyzer params).session
  cases m with
  | response id result error => exact ⟨hst, rfl⟩
  | notification method params =>
    refine ⟨hsession ?_, ?_⟩
    · rw [reached?_notification, reached?_notification, hlate]
    · rw [response_notification, response_notification]
  | request id method params =>
    refine ⟨hsession ?_, ?_⟩
    · rw [reached?_request, reached?_request, hlate]
    · cases hl : isLate t method with
      | true => simp only [dispatch, request, hlate, hl, if_true]
      | false =>
        cases hh : d.handler? method with
        | none => simp only [dispatch, request, hlate, hl, hh, Bool.false_eq_true, if_false]
        | some h =>
          rw [response_of_handler ((hlate method).trans hl) hh, response_of_handler hl hh,
            (Handler.agree_handle hst h d.analyzer params).result]

theorem hasExited_dispatch_of_exit (hm : m.asks Method.exit = true) :
    ((standard a).dispatch s m).session.hasExited = true := by
  rw [(dispatch_exit hm).1]
  exact s.hasExited_exit

/-- A session that has exited never runs again and never shuts down. -/
theorem hasExited_dispatch_of_exited (hs : s.hasExited = true) (m : Message) :
    ((standard a).dispatch s m).session.hasExited = true := by
  obtain ⟨clean, hlifecycle⟩ := Session.exists_exited hs
  have hnot : s.isShuttingDown = false := by simp [Session.isShuttingDown, hlifecycle]
  cases hexit : m.asks Method.exit with
  | true => exact hasExited_dispatch_of_exit hexit
  | false =>
    cases hshutdown : m.asks Method.shutdown with
    | true =>
      rw [(dispatch_shutdown hshutdown hnot).1]
      simp [Session.beginShutdown, Session.hasExited, hlifecycle]
    | false =>
      have hsame := lifecycle_dispatch (a := a) (s := s) hexit hshutdown
      simp [Session.hasExited, hsame, hlifecycle]

theorem hasExited_follow (h : s.hasExited = true ∨ ∃ m ∈ ms, m.asks Method.exit = true) :
    ((standard a).follow s ms).hasExited = true := by
  induction ms generalizing s with
  | nil =>
    rcases h with h | ⟨m, hm, -⟩
    · exact h
    · cases hm
  | cons m ms ih =>
    rw [follow_cons]
    apply ih
    rcases h with h | ⟨x, hx, hexit⟩
    · exact .inl (hasExited_dispatch_of_exited h m)
    · rcases List.mem_cons.mp hx with rfl | hx
      · exact .inl (hasExited_dispatch_of_exit hexit)
      · exact .inr ⟨x, hx, hexit⟩

theorem lifecycle_follow (hs : s.hasExited = false) (h : ∀ m ∈ ms, m.asks Method.exit = false) :
    ((standard a).follow s ms).lifecycle =
      if ms.any (Message.asks Method.shutdown) then .shuttingDown else s.lifecycle := by
  induction ms generalizing s with
  | nil => rfl
  | cons m ms ih =>
    have hm := h m List.mem_cons_self
    rw [follow_cons, ih (hasExited_dispatch hs hm) fun x hx => h x (List.mem_cons_of_mem m hx),
      lifecycle_dispatch_of_not_exited hs hm, List.any_cons]
    cases m.asks Method.shutdown <;> simp

/-- From the first message to shut down up to the first exit no message changes documents or counts,
and whatever does not ask to exit is refused. From an exit on, every message is treated as if the
session were running. -/
theorem dispatch_after_shutdown (a : Analyzer) (s : Session) {ms : List Message}
    (hshutdown : ms.any (Message.asks Method.shutdown) = true) (m : Message) :
    let now := (standard a).follow s ms
    let next := (standard a).dispatch now m
    ((s.hasExited = false ∧ ∀ x ∈ ms, x.asks Method.exit = false) →
      next.session.Agree now ∧ (m.asks Method.exit = false → next.response = m.refusal?)) ∧
    ((s.hasExited = true ∨ ∃ x ∈ ms, x.asks Method.exit = true) →
      let unhindered := (standard a).dispatch { now with lifecycle := .running } m
      next.session.Agree unhindered.session ∧ next.response = unhindered.response) := by
  intro now next
  refine ⟨?_, ?_⟩
  · intro h
    have hlifecycle := lifecycle_follow (a := a) h.1 h.2
    rw [if_pos hshutdown] at hlifecycle
    have hnow : now.isShuttingDown = true := by simp [Session.isShuttingDown, now, hlifecycle]
    cases hexit : m.asks Method.exit with
    | true =>
      have hsession : next.session = now.exit := (dispatch_exit hexit).1
      rw [hsession]
      exact ⟨⟨rfl, rfl⟩, fun hne => by cases hne⟩
    | false =>
      obtain ⟨hsession, hresponse⟩ := dispatch_of_shuttingDown (d := standard a) hnow hexit
      have hagree : next.session = now := hsession
      rw [hagree]
      exact ⟨.refl now, fun _ => hresponse⟩
  · intro h
    obtain ⟨clean, hlifecycle⟩ := Session.exists_exited (hasExited_follow (a := a) h)
    have hnot : now.isShuttingDown = false := by simp [Session.isShuttingDown, now, hlifecycle]
    have hagree : now.Agree { now with lifecycle := .running } := ⟨rfl, rfl⟩
    exact agree_dispatch hagree hnot (standard a) m

/-- A document is not opened while the session shuts down, and is opened once it has exited. -/
theorem dispatch_after_shutdown_openedLate :
    let shutdown := Message.notification Method.shutdown .null
    let exit := Message.notification Method.exit .null
    let opened := Message.notification Method.didOpen (.object
      [("textDocument", .object [("uri", .text "file:///a"), ("text", .text "late")])])
    let d := standard (.sample 0)
    [shutdown].any (Message.asks Method.shutdown) = true ∧
      [shutdown, exit].any (Message.asks Method.shutdown) = true ∧
      (d.dispatch (d.follow {} [shutdown]) opened).session.documents.text? "file:///a" = none ∧
      (d.dispatch (d.follow {} [shutdown, exit]) opened).session.documents.text? "file:///a" =
        some "late" := by
  intro shutdown exit opened d
  have hshut : [shutdown].any (Message.asks Method.shutdown) = true := by decide
  have hexited : [shutdown, exit].any (Message.asks Method.shutdown) = true := by decide
  obtain ⟨hrefused, -⟩ := dispatch_after_shutdown (.sample 0) {} hshut opened
  obtain ⟨-, hdone⟩ := dispatch_after_shutdown (.sample 0) {} hexited opened
  refine ⟨hshut, hexited, ?_, ?_⟩
  · obtain ⟨hagree, -⟩ := hrefused ⟨rfl, by simp [shutdown, Method.shutdown, Method.exit]⟩
    rw [hagree.documents]
    decide +kernel
  · obtain ⟨hagree, -⟩ := hdone (.inr ⟨exit, by simp, by decide⟩)
    rw [hagree.documents]
    decide +kernel

end Dispatcher

end LanguageServer
