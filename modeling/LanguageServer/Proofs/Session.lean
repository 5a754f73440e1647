import Mathlib.Data.List.TakeWhile
import LanguageServer.Session

namespace LanguageServer.Session

/-- What can be done to a session, one thing at a time. -/
inductive Operation where
  | openDocument (uri text : String)
  | updateDocument (uri text : String)
  | closeDocument (uri : String)
  | beginShutdown
  | exit
  deriving DecidableEq

def perform (s : Session) : Operation → Session
  | .openDocument uri text => s.putText uri text
  | .updateDocument uri text => s.putText uri text
  | .closeDocument uri => s.close uri
  | .beginShutdown => s.beginShutdown
  | .exit => s.exit

def performAll (s : Session) (ops : List Operation) : Session := ops.foldl perform s

variable {s : Session} {op : Operation} {ops before after : List Operation} {clean : Bool}

theorem performAll_cons (s : Session) (op : Operation) (ops : List Operation) :
    s.performAll (op :: ops) = (s.perform op).performAll ops := rfl

theorem performAll_append (s : Session) (before after : List Operation) :
    s.performAll (before ++ after) = (s.performAll before).performAll after :=
  List.foldl_append

/-- Up to the first exit a session only ever begins to shut down. -/
theorem lifecycle_perform_of_not_exited (hs : s.hasExited = false) (hop : op ≠ .exit) :
    (s.perform op).lifecycle =
      if op = .beginShutdown then .shuttingDown else s.lifecycle := by
  cases op with
  | openDocument uri text => rfl
  | updateDocument uri text => rfl
  | closeDocument uri => rfl
  | exit => exact absurd rfl hop
  | beginShutdown =>
    rw [if_pos rfl, perform, beginShutdown]
    cases hlifecycle : s.lifecycle with
    | running => rfl
    | shuttingDown => exact hlifecycle
    | exited clean => simp [hasExited, hlifecycle] at hs

theorem hasExited_perform (hs : s.hasExited = false) (hop : op ≠ .exit) :
    (s.perform op).hasExited = false := by
  have hlifecycle := lifecycle_perform_of_not_exited hs hop
  by_cases hbegin : op = .beginShutdown
  · rw [if_pos hbegin] at hlifecycle
    simp [hasExited, hlifecycle]
  · rw [if_neg hbegin] at hlifecycle
    simpa [hasExited, hlifecycle] using hs

theorem lifecycle_performAll_of_no_exit (hs : s.hasExited = false) (hops : .exit ∉ ops) :
    (s.performAll ops).lifecycle =
      if .beginShutdown ∈ ops then .shuttingDown else s.lifecycle := by
  induction ops generalizing s with
  | nil => simp [performAll]
  | cons op ops ih =>
    have hop : op ≠ .exit := fun h => hops (h ▸ List.mem_cons_self)
    have hrest : .exit ∉ ops := fun h => hops (List.mem_cons_of_mem op h)
    rw [performAll_cons, ih (hasExited_perform hs hop) hrest,
      lifecycle_perform_of_not_exited hs hop]
    by_cases hbegin : op = .beginShutdown
    · simp [hbegin]
    · simp [hbegin, Ne.symm hbegin]

/-- An exit asks how the session has ended even if it has: another one is never clean. -/
theorem lifecycle_perform_of_exited (hs : s.lifecycle = .exited clean) (op : Operation) :
    (s.perform op).lifecycle = .exited (clean && op ≠ .exit) := by
  cases op with
  | openDocument uri text => simpa [perform, putText] using hs
  | updateDocument uri text => simpa [perform, putText] using hs
  | closeDocument uri => simpa [perform, close] using hs
  | beginShutdown => simp [perform, beginShutdown, hs]
  | exit => simp [perform, exit, isShuttingDown, hs]

theorem lifecycle_performAll_of_exited (hs : s.lifecycle = .exited clean)
    (ops : List Operation) :
    (s.performAll ops).lifecycle = .exited (clean && .exit ∉ ops) := by
  induction ops generalizing s clean with
  | nil => simpa [performAll] using hs
  | cons op ops ih =>
    rw [performAll_cons, ih (lifecycle_perform_of_exited hs op)]
    by_cases hop : op = .exit
    · simp [hop]
    · simp [hop, Ne.symm hop]

/-- The end of a session is clean if it began to shut down before the first exit and there has been
no other exit. Nothing but an exit changes how a session has ended, and that leaves it unclean. -/
theorem lifecycle_performAll (hops : .exit ∈ ops) :
    (performAll {} ops).lifecycle =
        .exited (.beginShutdown ∈ ops.takeWhile (· ≠ .exit) ∧ ops.count .exit = 1) ∧
      ∀ op, ((performAll {} ops).perform op).lifecycle =
        if op = .exit then .exited false else (performAll {} ops).lifecycle := by
  obtain ⟨before, after, rfl, hbefore⟩ := List.eq_append_cons_of_mem hops
  have hfirst : (before ++ .exit :: after).takeWhile (· ≠ .exit) = before := by
    rw [List.takeWhile_append_of_pos]
    · simp
    · intro op hop
      have hne : op ≠ .exit := fun h => hbefore (h ▸ hop)
      simp [hne]
  have hcount : (before ++ .exit :: after).count .exit = 1 ↔ .exit ∉ after := by
    rw [List.count_append, List.count_eq_zero_of_not_mem hbefore, List.count_cons_self,
      Nat.zero_add, Nat.add_eq_right, List.count_eq_zero]
  have hexited : ((performAll {} before).perform .exit).lifecycle =
      .exited (.beginShutdown ∈ before) := by
    have hlifecycle := lifecycle_performAll_of_no_exit (s := {}) rfl hbefore
    rw [perform, exit, isShuttingDown, hlifecycle]
    by_cases hbegin : .beginShutdown ∈ before <;> simp [hbegin]
  have hall : (performAll {} (before ++ .exit :: after)).lifecycle =
      .exited (.beginShutdown ∈ before ∧ .exit ∉ after) := by
    rw [performAll_append, performAll_cons, lifecycle_performAll_of_exited hexited after]
    simp
  refine ⟨?_, ?_⟩
  · rw [hall, hfirst]
    simp only [hcount]
  · intro op
    rw [lifecycle_perform_of_exited hall op, hall]
    by_cases hop : op = .exit <;> simp [hop]

/-- A session that began to shut down ends cleanly with its first exit, and with its second one
no longer. -/
theorem lifecycle_performAll_exit_again :
    Operation.exit ∈ [.beginShutdown, .exit] ∧
      (performAll {} [.beginShutdown, .exit]).lifecycle = .exited true ∧
      ((performAll {} [.beginShutdown, .exit]).perform .exit).lifecycle = .exited false := by
  have hmem : Operation.exit ∈ [.beginShutdown, .exit] := by decide
  obtain ⟨hlifecycle, hnext⟩ := lifecycle_performAll hmem
  exact ⟨hmem, hlifecycle, hnext .exit⟩

end LanguageServer.Session
