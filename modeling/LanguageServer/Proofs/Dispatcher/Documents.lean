import Mathlib.Data.List.TakeWhile
import Mathlib.Data.Set.Card
import LanguageServer.Proofs.Dispatcher.Follow
import LanguageServer.Proofs.Dispatcher.Replay

namespace LanguageServer

open Json (Value)

/-! What params say about the text of one document: nothing, or the text that it gets, or that it
has none any more. -/

namespace DidOpenParams

def edit? (uri : String) (p : DidOpenParams) : Option (Option String) :=
  if p.document.uri = uri then some (some p.document.text) else none

end DidOpenParams

namespace DidChangeParams

/-- The last change counts, whatever its range. -/
def edit? (uri : String) (p : DidChangeParams) : Option (Option String) :=
  if p.document.uri = uri then p.changes.getLast?.map fun c => some c.text else none

end DidChangeParams

namespace DidCloseParams

def edit? (uri : String) (p : DidCloseParams) : Option (Option String) :=
  if p.document.uri = uri then some none else none

end DidCloseParams

namespace Message

/-- What a message says about the text of a document. Params that cannot be read say nothing. -/
def edit? (m : Message) (uri : String) : Option (Option String) :=
  if m.asks Method.didOpen then (m.content? DidOpenParams).bind (DidOpenParams.edit? uri)
  else if m.asks Method.didChange then (m.content? DidChangeParams).bind (DidChangeParams.edit? uri)
  else if m.asks Method.didClose then (m.content? DidCloseParams).bind (DidCloseParams.edit? uri)
  else none

def isChange (m : Message) : Bool :=
  m.asks Method.didChange && (m.content? DidChangeParams).isSome

variable {m : Message}

theorem edit?_didOpen (h : m.asks Method.didOpen = true) :
    m.edit? = (fun uri => (m.content? DidOpenParams).bind (DidOpenParams.edit? uri)) ∧
      m.isChange = false := by
  have hchange : m.asks Method.didChange = false := asks_eq_false h (by decide)
  exact ⟨funext fun uri => if_pos h, by simp [isChange, hchange]⟩

theorem edit?_didChange (h : m.asks Method.didChange = true) :
    m.edit? = (fun uri => (m.content? DidChangeParams).bind (DidChangeParams.edit? uri)) ∧
      m.isChange = (m.content? DidChangeParams).isSome := by
  have hopen : m.asks Method.didOpen = false := asks_eq_false h (by decide)
  exact ⟨funext fun uri => by simp [edit?, hopen, h], by simp [isChange, h]⟩

theorem edit?_didClose (h : m.asks Method.didClose = true) :
    m.edit? = (fun uri => (m.content? DidCloseParams).bind (DidCloseParams.edit? uri)) ∧
      m.isChange = false := by
  have hopen : m.asks Method.didOpen = false := asks_eq_false h (by decide)
  have hchange : m.asks Method.didChange = false := asks_eq_false h (by decide)
  exact ⟨funext fun uri => by simp [edit?, hopen, hchange, h], by simp [isChange, hchange]⟩

theorem edit?_other (hopen : m.asks Method.didOpen = false)
    (hchange : m.asks Method.didChange = false) (hclose : m.asks Method.didClose = false) :
    m.edit? = (fun _ => none) ∧ m.isChange = false :=
  ⟨funext fun uri => by simp [edit?, hopen, hchange, hclose], by simp [isChange, hchange]⟩

end Message

namespace Documents

theorem encard_isOpen (d : Documents) : Set.encard {uri | d.isOpen uri = true} = d.size := by
  have hkeys : {uri | d.isOpen uri = true} = ↑(d.entries.map Prod.fst).toFinset := by
    ext uri
    simp only [Set.mem_ofPred_eq, isOpen, text?_isSome_iff, List.coe_toFinset]
  rw [hkeys, Set.encard_coe_eq_coe_finsetCard, List.toFinset_card_of_nodup d.nodup,
    List.length_map]
  rfl

end Documents

namespace Session

theorem text?_foldl_applyChange (uri other : String) (changes : List ContentChange) (s : Session) :
    (changes.foldl (Handler.applyChange uri) s).documents.text? other =
      ((DidChangeParams.mk ⟨uri, none⟩ changes).edit? other).getD (s.documents.text? other) := by
  induction changes using List.reverseRecOn with
  | nil => simp [DidChangeParams.edit?]
  | append_singleton changes c ih =>
    rw [List.foldl_append, List.foldl_cons, List.foldl_nil, Handler.applyChange, putText,
      Documents.text?_put, ih]
    by_cases h : uri = other
    · simp [DidChangeParams.edit?, h]
    · simp [DidChangeParams.edit?, h, Ne.symm h]

theorem changeCount_foldl_applyChange (uri : String) (changes : List ContentChange)
    (s : Session) :
    (changes.foldl (Handler.applyChange uri) s).changeCount = s.changeCount := by
  induction changes generalizing s with
  | nil => rfl
  | cons c changes ih =>
    rw [List.foldl_cons, ih]
    rfl

/-- One session follows another by what is said about the texts of documents and how many changes
are counted. -/
def Edited (s next : Session) (edit? : String → Option (Option String)) (changes : Nat) : Prop :=
  (∀ uri, next.documents.text? uri = (edit? uri).getD (s.documents.text? uri)) ∧
    next.changeCount = s.changeCount + changes

theorem edited_of_eq {s next : Session} (hdocuments : next.documents = s.documents)
    (hcount : next.changeCount = s.changeCount) : Edited s next (fun _ => none) 0 := by
  refine ⟨fun uri => ?_, hcount⟩
  rw [hdocuments]
  rfl

theorem Edited.trans {s next last : Session} {first? second? : String → Option (Option String)}
    {m n : Nat} (h : Edited s next first? m) (h' : Edited next last second? n) :
    Edited s last (fun uri => (second? uri).or (first? uri)) (m + n) := by
  refine ⟨fun uri => ?_, ?_⟩
  · rw [h'.1, h.1, Option.getD_or]
  · rw [h'.2, h.2, Nat.add_assoc]

end Session

namespace Handler

open Session (Edited edited_of_eq)

variable {a : Analyzer} {s : Session} {params : Value}

theorem edited_withParams {α : Type} [Payload α] {method : String} {go : α → Handled}
    {edit? : String → α → Option (Option String)} {changes : Nat}
    (h : ∀ p, Edited s (go p).session (edit? · p) changes) :
    Edited s (withParams α method s params go).session
      (fun uri => (Payload.ofValue α params).toOption.bind (edit? uri))
      (if (Payload.ofValue α params).toOption.isSome then changes else 0) := by
  unfold withParams
  cases Payload.ofValue α params with
  | error cause => exact edited_of_eq rfl rfl
  | ok p => exact h p

theorem edited_withParams_uncounted {α : Type} [Payload α] {method : String} {go : α → Handled}
    {edit? : String → α → Option (Option String)}
    (h : ∀ p, Edited s (go p).session (edit? · p) 0) :
    Edited s (withParams α method s params go).session
      (fun uri => (Payload.ofValue α params).toOption.bind (edit? uri)) 0 := by
  have hedited : Edited s (withParams α method s params go).session _ (if _ then 0 else 0) :=
    edited_withParams h
  rwa [ite_self] at hedited

theorem edited_didOpen : Edited s (handle .didOpen a s params).session
    (fun uri => (Payload.ofValue DidOpenParams params).toOption.bind (DidOpenParams.edit? uri))
    0 := by
  apply edited_withParams_uncounted
  intro p
  refine ⟨fun uri => ?_, rfl⟩
  simp only [handleOpen, Session.putText, Documents.text?_put, DidOpenParams.edit?, eq_comm]
  split <;> rfl

theorem edited_didChange : Edited s (handle .didChange a s params).session
    (fun uri => (Payload.ofValue DidChangeParams params).toOption.bind (DidChangeParams.edit? uri))
    (if (Payload.ofValue DidChangeParams params).toOption.isSome then 1 else 0) := by
  apply edited_withParams
  intro p
  refine ⟨fun uri => ?_, ?_⟩
  · exact Session.text?_foldl_applyChange p.document.uri uri p.changes s.countChange
  · exact Session.changeCount_foldl_applyChange p.document.uri p.changes s.countChange

theorem edited_didClose : Edited s (handle .didClose a s params).session
    (fun uri => (Payload.ofValue DidCloseParams params).toOption.bind (DidCloseParams.edit? uri))
    0 := by
  apply edited_withParams_uncounted
  intro p
  refine ⟨fun uri => ?_, rfl⟩
  simp only [handleClose, Session.close, Documents.text?_close, DidCloseParams.edit?, eq_comm]
  split <;> rfl

/-- The other handlers leave documents and their changes alone. -/
theorem edited_handle {h : Handler} (hopen : h ≠ .didOpen) (hchange : h ≠ .didChange)
    (hclose : h ≠ .didClose) : Edited s (h.handle a s params).session (fun _ => none) 0 := by
  have same {α : Type} [Payload α] {method : String} {go : α → Handled}
      (hgo : ∀ p, (go p).session = s) :
      Edited s (withParams α method s params go).session (fun _ => none) 0 := by
    unfold withParams
    cases Payload.ofValue α params with
    | error cause => exact edited_of_eq rfl rfl
    | ok p =>
      rw [show (go p).session = s from hgo p]
      exact edited_of_eq rfl rfl
  have asked {α : Type} {uri question noun : String} {found : Except AnalyzerError (List α)}
      {toValue : List α → Value} : (answer a s uri question noun found toValue).session = s := by
    unfold answer
    cases found <;> rfl
  cases h with
  | handshake server =>
    unfold handle handleHandshake
    dsimp only
    split
    · exact edited_of_eq rfl rfl
    · exact same fun p => rfl
  | handshakeDone => exact edited_of_eq rfl rfl
  | shutdown =>
    exact edited_of_eq s.documents_beginShutdown s.changeCount_beginShutdown
  | exit => exact edited_of_eq rfl rfl
  | didOpen => exact absurd rfl hopen
  | didChange => exact absurd rfl hchange
  | didClose => exact absurd rfl hclose
  | inlayHints => exact same fun p => asked
  | diagnostics => exact same fun p => asked

end Handler

namespace Dispatcher

open Session (Edited edited_of_eq)

variable {d : Dispatcher} {a : Analyzer} {s : Session} {m : Message} {ms : List Message}

/-- The handlers of documents have the methods for them. -/
theorem handler?_standard_ne {method : String} {h : Handler}
    (hm : (standard a).handler? method = some h) (hopen : method ≠ Method.didOpen)
    (hchange : method ≠ Method.didChange) (hclose : method ≠ Method.didClose) :
    h ≠ .didOpen ∧ h ≠ .didChange ∧ h ≠ .didClose := by
  have all : ∀ e ∈ standardBindings, (e.2 = .didOpen → e.1 = Method.didOpen) ∧
      (e.2 = .didChange → e.1 = Method.didChange) ∧
      (e.2 = .didClose → e.1 = Method.didClose) := by decide
  obtain ⟨h₁, h₂, h₃⟩ := all _ (mem_of_handler?_standard hm)
  exact ⟨fun h => hopen (h₁ h), fun h => hchange (h₂ h), fun h => hclose (h₃ h)⟩

theorem session_dispatch_standard {method : String} {h : Handler} (hs : s.isShuttingDown = false)
    (hm : m.asks method = true) (hhandler : (standard a).handler? method = some h) :
    ∃ params, m.params? = some params ∧
      ((standard a).dispatch s m).session = (h.handle a s params).session := by
  obtain ⟨params, hparams⟩ := Message.exists_params_of_asks hm
  have hreached : (standard a).reached? s m = some h := by
    rw [reached?_of_asks hm, isLate_eq_false hs method]
    exact hhandler
  exact ⟨params, hparams, session_dispatch_of_reached hreached hparams⟩

theorem edited_dispatch_other (hopen : m.asks Method.didOpen = false)
    (hchange : m.asks Method.didChange = false) (hclose : m.asks Method.didClose = false) :
    Edited s ((standard a).dispatch s m).session (fun _ => none) 0 := by
  cases hreached : (standard a).reached? s m with
  | none =>
    rw [session_dispatch_of_unreached hreached]
    exact edited_of_eq rfl rfl
  | some h =>
    obtain ⟨method, hmethod, hhandler⟩ := Option.bind_eq_some_iff.mp hreached
    have hm : m.asks method = true := by simp [Message.asks, hmethod]
    have hne {other : String} (h : m.asks other = false) : method ≠ other := by
      rintro rfl
      rw [hm] at h
      cases h
    split at hhandler
    · cases hhandler
    · obtain ⟨h₁, h₂, h₃⟩ := handler?_standard_ne hhandler (hne hopen) (hne hchange) (hne hclose)
      obtain ⟨params, hparams⟩ := Message.exists_params_of_asks hm
      rw [session_dispatch_of_reached hreached hparams]
      exact Handler.edited_handle h₁ h₂ h₃

/-- What a message says about documents is done, if it does not come too late. -/
theorem edited_dispatch (hs : s.isShuttingDown = false) :
    Edited s ((standard a).dispatch s m).session m.edit? (if m.isChange then 1 else 0) := by
  cases hopen : m.asks Method.didOpen with
  | true =>
    obtain ⟨params, hparams, hsession⟩ := session_dispatch_standard hs hopen (a := a) rfl
    obtain ⟨hedit, hcount⟩ := Message.edit?_didOpen hopen
    rw [hsession, hedit, hcount, Message.content?_eq hparams]
    exact Handler.edited_didOpen
  | false =>
    cases hchange : m.asks Method.didChange with
    | true =>
      obtain ⟨params, hparams, hsession⟩ := session_dispatch_standard hs hchange (a := a) rfl
      obtain ⟨hedit, hcount⟩ := Message.edit?_didChange hchange
      rw [hsession, hedit, hcount, Message.content?_eq hparams]
      exact Handler.edited_didChange
    | false =>
      cases hclose : m.asks Method.didClose with
      | true =>
        obtain ⟨params, hparams, hsession⟩ := session_dispatch_standard hs hclose (a := a) rfl
        obtain ⟨hedit, hcount⟩ := Message.edit?_didClose hclose
        rw [hsession, hedit, hcount, Message.content?_eq hparams]
        exact Handler.edited_didClose
      | false =>
        obtain ⟨hedit, hcount⟩ := Message.edit?_other hopen hchange hclose
        rw [hedit, hcount]
        exact edited_dispatch_other hopen hchange hclose

theorem follow_of_shuttingDown (hs : s.isShuttingDown = true)
    (hexit : ∀ m ∈ ms, m.asks Method.exit = false) : d.follow s ms = s := by
  induction ms with
  | nil => rfl
  | cons m ms ih =>
    rw [follow_cons, (dispatch_of_shuttingDown hs (hexit m List.mem_cons_self)).1]
    exact ih fun x hx => hexit x (List.mem_cons_of_mem m hx)

/-- The last message about a document decides its text. From the first message to shut down on,
nothing is done to the documents. -/
theorem edited_follow (hs : s.lifecycle = .running)
    (hexit : ∀ m ∈ ms, m.asks Method.exit = false) :
    let before := ms.takeWhile fun m => !m.asks Method.shutdown
    Edited s ((standard a).follow s ms) (fun uri => before.reverse.findSome? (·.edit? uri))
      (before.countP Message.isChange) := by
  induction ms generalizing s with
  | nil => exact edited_of_eq rfl rfl
  | cons m ms ih =>
    have hnot : s.isShuttingDown = false := by simp [Session.isShuttingDown, hs]
    have hlater : ∀ x ∈ ms, x.asks Method.exit = false :=
      fun x hx => hexit x (List.mem_cons_of_mem m hx)
    cases hm : m.asks Method.shutdown with
    | true =>
      have hshut : s.beginShutdown.isShuttingDown = true := by
        simp [Session.beginShutdown, Session.isShuttingDown, hs]
      rw [follow_cons, (dispatch_shutdown (a := a) hm hnot).1, follow_of_shuttingDown hshut hlater,
        List.takeWhile_cons_of_neg (by simp [hm])]
      exact edited_of_eq s.documents_beginShutdown s.changeCount_beginShutdown
    | false =>
      have hrunning : ((standard a).dispatch s m).session.lifecycle = .running := by
        rw [lifecycle_dispatch (hexit m List.mem_cons_self) hm, hs]
      have hall := (edited_dispatch (a := a) (m := m) hnot).trans (ih hrunning hlater)
      rw [follow_cons, List.takeWhile_cons_of_pos (by simp [hm])]
      simpa [List.findSome?_append, List.countP_cons, Nat.add_comm] using hall

/-- The documents are what the messages before shutting down have made of them. The last message
about a document decides its text, every change that can be read is counted once, and as many
documents are there as have a text. -/
theorem documents_follow (a : Analyzer) (ms : List Message) (hlength : ms.length < 2 ^ 64)
    (hexit : ∀ m ∈ ms, m.asks Method.exit = false) :
    let before := ms.takeWhile fun m => !m.asks Method.shutdown
    let s := (standard a).follow {} ms
    (∀ uri, s.documents.text? uri = (before.reverse.findSome? (·.edit? uri)).join) ∧
      s.changeCount = before.countP Message.isChange ∧ s.changeCount < 2 ^ 64 ∧
      (s.documents.size : ℕ∞) = Set.encard {uri | (s.documents.text? uri).isSome = true} := by
  intro before s
  obtain ⟨htext, hchanges⟩ := edited_follow (a := a) (s := {}) rfl hexit
  have htotal : s.changeCount = before.countP Message.isChange := hchanges.trans (Nat.zero_add _)
  refine ⟨fun uri => ?_, htotal, ?_, s.documents.encard_isOpen.symm⟩
  · have hlast : s.documents.text? uri = (before.reverse.findSome? (·.edit? uri)).getD none :=
      htext uri
    rw [hlast]
    cases before.reverse.findSome? (·.edit? uri) <;> rfl
  · have hle : before.countP Message.isChange ≤ ms.length :=
      List.countP_le_length.trans (List.takeWhile_prefix _).length_le
    omega

/-- The params of a message about a document. -/
def about (uri : String) (members : List (String × Value)) (more : List (String × Value)) : Value :=
  .object (("textDocument", .object (("uri", .text uri) :: members)) :: more)

/-- One document is opened, changed twice by a request, changed by params that cannot be read, and
closed after shutting down. Another one is opened and closed before that. -/
def changedDocument : List Message := [
  .notification Method.didOpen (about "a" [("text", .text "one")] []),
  .notification Method.didOpen (about "b" [("text", .text "")] []),
  .request (.text "7") Method.didChange (about "a" [] [("contentChanges",
    .list [.object [("text", .text "two")], .object [("text", .text "three")]])]),
  .notification Method.didChange (about "a" [] [("contentChanges",
    .list [.object [("text", .text "four")], .null])]),
  .request (.text "8") Method.didClose (about "b" [] []),
  .notification Method.shutdown .null,
  .notification Method.didClose (about "a" [] [])]

theorem documents_follow_changedDocument :
    changedDocument.length < 2 ^ 64 ∧ (∀ m ∈ changedDocument, m.asks Method.exit = false) ∧
      let s := (standard (.sample 0)).follow {} changedDocument
      s.documents.text? "a" = some "three" ∧ s.documents.text? "b" = none ∧ s.changeCount = 1 := by
  have hlength : changedDocument.length < 2 ^ 64 := by decide
  have hexit : ∀ m ∈ changedDocument, m.asks Method.exit = false := by decide +kernel
  obtain ⟨htext, hcount, -⟩ := documents_follow (.sample 0) changedDocument hlength hexit
  refine ⟨hlength, hexit, ?_, ?_, ?_⟩
  · exact (htext "a").trans (by decide +kernel)
  · exact (htext "b").trans (by decide +kernel)
  · exact hcount.trans (by decide +kernel)

end Dispatcher

end LanguageServer
