import LanguageServer.Proofs.Dispatcher
import LanguageServer.Server

namespace LanguageServer

theorem Session.exists_exited {s : Session} (h : s.hasExited = true) :
    ∃ clean, s.lifecycle = .exited clean := by
  cases hlifecycle : s.lifecycle with
  | running => simp [hasExited, hlifecycle] at h
  | shuttingDown => simp [hasExited, hlifecycle] at h
  | exited clean => exact ⟨clean, rfl⟩

/-- What following messages one after the other leaves behind. -/
structure Replay where
  session : Session
  responses : List Response := []
  /-- Whether the exit was clean, if a message asked to exit. -/
  exit : Option Bool := none

namespace Replay

def frames (r : Replay) : List Bytes := r.responses.map Response.encode

/-- How a server ends whose reader has failed with `failure`, if it has: not before an exit. -/
def result (r : Replay) (failure : Option TransportError) : Except TransportError Outcome :=
  match r.exit, failure with
  | some clean, _ => .ok (.exit clean)
  | none, some e => .error e
  | none, none => .ok .endOfStream

theorem result_of_exit {r : Replay} {clean : Bool} (h : r.exit = some clean)
    (failure : Option TransportError) : r.result failure = .ok (.exit clean) := by
  simp only [result, h]

theorem result_of_no_exit {r : Replay} (h : r.exit = none) :
    r.result none = .ok .endOfStream := by
  simp only [result, h]

theorem failure_of_result {r : Replay} {failure : Option TransportError} {e : TransportError}
    (h : r.result failure = .error e) : failure = some e := by
  cases hexit : r.exit with
  | some clean =>
    rw [result_of_exit hexit] at h
    cases h
  | none =>
    cases failure with
    | none =>
      rw [result_of_no_exit hexit] at h
      cases h
    | some e' =>
      simp only [result, hexit, Except.error.injEq] at h
      rw [h]

theorem exit_of_result {r : Replay} {failure : Option TransportError} {clean : Bool}
    (h : r.result failure = .ok (.exit clean)) : r.exit = some clean := by
  cases hexit : r.exit with
  | some clean' =>
    rw [result_of_exit hexit] at h
    cases h
    rfl
  | none => cases failure <;> simp [result, hexit] at h

def after (responses : List Response) (r : Replay) : Replay :=
  { r with responses := responses ++ r.responses }

theorem after_after (r : Replay) (responses more : List Response) :
    (r.after responses).after more = r.after (more ++ responses) := by
  simp [after]

end Replay

namespace Dispatcher

/-- Follows messages one after the other, up to the one that makes the session exit. -/
def replay (d : Dispatcher) (s : Session) : List Message → Replay
  | [] => { session := s }
  | message :: rest =>
    let a := d.dispatch s message
    match a.session.lifecycle with
    | .exited clean => ⟨a.session, a.response.toList, some clean⟩
    | _ => (d.replay a.session rest).after a.response.toList

variable {d : Dispatcher} {a : Analyzer} {s : Session} {m : Message} {before ms : List Message}

theorem replay_cons_of_exited {clean : Bool}
    (h : (d.dispatch s m).session.lifecycle = .exited clean) :
    d.replay s (m :: ms) =
      ⟨(d.dispatch s m).session, (d.dispatch s m).response.toList, some clean⟩ := by
  simp only [replay, h]

theorem replay_cons_of_not_exited (h : (d.dispatch s m).session.hasExited = false) :
    d.replay s (m :: ms) =
      (d.replay (d.dispatch s m).session ms).after (d.dispatch s m).response.toList := by
  cases hlifecycle : (d.dispatch s m).session.lifecycle with
  | running => simp only [replay, hlifecycle]
  | shuttingDown => simp only [replay, hlifecycle]
  | exited clean => simp [Session.hasExited, hlifecycle] at h

theorem replay_append (h : (d.replay s before).exit = none) (ms : List Message) :
    d.replay s (before ++ ms) =
      (d.replay (d.replay s before).session ms).after (d.replay s before).responses := by
  induction before generalizing s with
  | nil => rfl
  | cons m before ih =>
    cases hexited : (d.dispatch s m).session.hasExited with
    | true =>
      obtain ⟨clean, hlifecycle⟩ := Session.exists_exited hexited
      rw [replay_cons_of_exited hlifecycle] at h
      cases h
    | false =>
      rw [replay_cons_of_not_exited hexited] at h ⊢
      have hrest := ih (s := (d.dispatch s m).session) h
      rw [List.cons_append, replay_cons_of_not_exited hexited, hrest, Replay.after_after]
      rfl

/-- How a message that does not ask to exit moves a session on. -/
theorem lifecycle_dispatch_of_not_exited (hs : s.hasExited = false)
    (hm : m.asks Method.exit = false) :
    ((standard a).dispatch s m).session.lifecycle =
      if m.asks Method.shutdown then .shuttingDown else s.lifecycle := by
  cases hshutdown : m.asks Method.shutdown with
  | false => exact lifecycle_dispatch hm hshutdown
  | true =>
    cases hlifecycle : s.lifecycle with
    | running =>
      have hnot : s.isShuttingDown = false := by simp [Session.isShuttingDown, hlifecycle]
      rw [(dispatch_shutdown hshutdown hnot).1]
      simp [Session.beginShutdown, hlifecycle]
    | shuttingDown =>
      have hnow : s.isShuttingDown = true := by simp [Session.isShuttingDown, hlifecycle]
      rw [(dispatch_of_shuttingDown hnow hm).1, hlifecycle]
      rfl
    | exited clean => simp [Session.hasExited, hlifecycle] at hs

theorem hasExited_dispatch (hs : s.hasExited = false) (hm : m.asks Method.exit = false) :
    ((standard a).dispatch s m).session.hasExited = false := by
  have hlifecycle := lifecycle_dispatch_of_not_exited (a := a) hs hm
  cases hshutdown : m.asks Method.shutdown with
  | false =>
    rw [hshutdown] at hlifecycle
    simpa [Session.hasExited, hlifecycle] using hs
  | true =>
    rw [hshutdown] at hlifecycle
    simp [Session.hasExited, hlifecycle]

/-- Without a message that asks to exit there is no exit, and a session shuts down with the first
message that asks for that. -/
theorem replay_of_no_exit (hs : s.hasExited = false) (h : ∀ m ∈ ms, m.asks Method.exit = false) :
    ((standard a).replay s ms).exit = none ∧
      ((standard a).replay s ms).session.lifecycle =
        if ms.any (Message.asks Method.shutdown) then .shuttingDown else s.lifecycle := by
  induction ms generalizing s with
  | nil => exact ⟨rfl, rfl⟩
  | cons m ms ih =>
    have hm := h m List.mem_cons_self
    have hexited := hasExited_dispatch (a := a) hs hm
    obtain ⟨hexit, hlifecycle⟩ := ih hexited fun x hx => h x (List.mem_cons_of_mem m hx)
    rw [replay_cons_of_not_exited hexited]
    refine ⟨hexit, ?_⟩
    rw [Replay.after, hlifecycle, lifecycle_dispatch_of_not_exited hs hm, List.any_cons]
    cases m.asks Method.shutdown <;> simp

theorem isShuttingDown_replay (hs : s.lifecycle = .running)
    (h : ∀ m ∈ ms, m.asks Method.exit = false) :
    ((standard a).replay s ms).session.isShuttingDown = ms.any (Message.asks Method.shutdown) := by
  have hexited : s.hasExited = false := by simp [Session.hasExited, hs]
  obtain ⟨-, hlifecycle⟩ := replay_of_no_exit (a := a) hexited h
  rw [Session.isShuttingDown, hlifecycle, hs]
  cases ms.any (Message.asks Method.shutdown) <;> rfl

/-- The first message that asks to exit is the last one that is followed. -/
theorem replay_of_exit (hs : s.hasExited = false)
    (hbefore : ∀ x ∈ before, x.asks Method.exit = false) (hm : m.asks Method.exit = true)
    (after : List Message) :
    (standard a).replay s (before ++ m :: after) =
      let r := (standard a).replay s before
      ⟨r.session.exit, r.responses ++ m.consent?.toList, some r.session.isShuttingDown⟩ := by
  obtain ⟨hexit, -⟩ := replay_of_no_exit (a := a) hs hbefore
  have hlifecycle :
      ((standard a).dispatch ((standard a).replay s before).session m).session.lifecycle =
        .exited ((standard a).replay s before).session.isShuttingDown := by
    rw [(dispatch_exit hm).1]
    rfl
  rw [replay_append hexit, replay_cons_of_exited hlifecycle, (dispatch_exit hm).1,
    (dispatch_exit hm).2]
  rfl

/-- What comes after the first message that asks to exit does not matter, and the exit is clean if a
message before it asks to shut down. -/
theorem replay_up_to_exit (hs : s.lifecycle = .running)
    (hbefore : ∀ x ∈ before, x.asks Method.exit = false) (hm : m.asks Method.exit = true)
    (after : List Message) :
    (standard a).replay s (before ++ m :: after) = (standard a).replay s (before ++ [m]) ∧
      ((standard a).replay s (before ++ [m])).exit =
        some (before.any (Message.asks Method.shutdown)) := by
  have hexited : s.hasExited = false := by simp [Session.hasExited, hs]
  have hall := replay_of_exit (a := a) hexited hbefore hm
  constructor
  · rw [hall after, hall []]
  · rw [hall [], ← isShuttingDown_replay (a := a) hs hbefore]

theorem replay_of_shuttingDown (hs : s.isShuttingDown = true)
    (h : ∀ m ∈ ms, m.asks Method.exit = false) :
    d.replay s ms = ⟨s, ms.filterMap Message.refusal?, none⟩ := by
  induction ms with
  | nil => rfl
  | cons m ms ih =>
    obtain ⟨hsession, hresponse⟩ := dispatch_of_shuttingDown (d := d) hs (h m List.mem_cons_self)
    have hexited : (d.dispatch s m).session.hasExited = false := by
      simp only [Session.isShuttingDown, decide_eq_true_eq] at hs
      rw [hsession, Session.hasExited, hs]
    rw [replay_cons_of_not_exited hexited, hsession, hresponse,
      ih fun x hx => h x (List.mem_cons_of_mem m hx), Replay.after, List.filterMap_cons]
    cases m.refusal? <;> rfl

end Dispatcher

end LanguageServer
