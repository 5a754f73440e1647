import LanguageServer.Proofs.Transport.Bodies

namespace LanguageServer

namespace Reader

open Arrival (content Unbroken)

variable {r after : Reader} {cs : List Arrival} {signal : Signal} {log : List Log.Event}

/-- A signal of the buffer before the end of the stream is known. -/
theorem signal?_of_open (h : r.ended = false) (hsignal : r.signal? = some (signal, after, log)) :
    after.ended = false ∧ signal ≠ .done ∧
      ∀ expected received, signal ≠ .error (.framing (.truncated expected received)) := by
  rcases signal?_cases hsignal with ⟨f, -, rfl, rfl⟩ | ⟨e, he, rfl, rfl⟩ | ⟨-, hended, -, -⟩
  · exact ⟨h, by simp, by simp⟩
  · refine ⟨h, by simp, fun expected received htruncated => ?_⟩
    cases htruncated
    exact Frame.split_ne_truncated _ _ _ he
  · rw [h] at hended
    cases hended

/-- An ended reader with nothing in its buffer says so again and reads nothing. -/
theorem next_of_ended (hended : r.ended = true) (hbuffer : r.buffer = []) (input : List Arrival) :
    r.next input = ⟨.done, r, input, []⟩ := by
  apply next_of_signal?
  have hr : r = ⟨[], true⟩ := by rw [← hended, ← hbuffer]
  rw [hr]
  rfl

/-- What a call does when reads come behind those that it may see: the same, or it has read all of
the others before and goes on with these. -/
inductive Continues (r : Reader) (cs : List Arrival) : Prop where
  | before (hended : (r.next cs).reader.ended = false) (hdone : (r.next cs).signal ≠ .done)
      (hwhole : ∀ expected received,
        (r.next cs).signal ≠ .error (.framing (.truncated expected received)))
      (hnext : ∀ more, r.next (cs ++ more) = ⟨(r.next cs).signal, (r.next cs).reader,
        (r.next cs).input ++ more, (r.next cs).log⟩)
  | behind (last : Reader) (hended : last.ended = false)
      (hwait : Frame.split last.buffer = .ok none) (hbuffer : last.buffer = r.buffer ++ content cs)
      (hnext : ∀ more, r.next (cs ++ more) = last.next more)

theorem continues_of_signal? (hended : r.ended = false)
    (hsignal : r.signal? = some (signal, after, log)) (cs : List Arrival) : r.Continues cs := by
  -- Nothing is read for this call, so that it is the same for every input.
  obtain ⟨hstill, hdone, hwhole⟩ := signal?_of_open hended hsignal
  have hnext (input : List Arrival) : r.next input = ⟨signal, after, input, log⟩ :=
    next_of_signal? hsignal input
  apply Continues.before
  · rw [hnext]
    exact hstill
  · rw [hnext]
    exact hdone
  · rw [hnext]
    exact hwhole
  · intro more
    rw [hnext, hnext]

theorem continues (hended : r.ended = false) (hcs : Unbroken cs) : r.Continues cs := by
  induction cs generalizing r with
  | nil =>
    cases hsignal : r.signal? with
    | some x => exact continues_of_signal? hended hsignal []
    | none =>
      obtain ⟨-, hwait⟩ := split_of_signal?_eq_none hsignal
      exact .behind r hended hwait (List.append_nil _).symm fun _ => rfl
  | cons a rest ih =>
    cases hsignal : r.signal? with
    | some x => exact continues_of_signal? hended hsignal (a :: rest)
    | none =>
      have hrest : Unbroken rest := fun h => hcs (List.mem_cons_of_mem a h)
      match a with
      | .bytes [] => exact absurd List.mem_cons_self hcs
      | .bytes (b :: bs) =>
        -- The first read is taken in whatever comes behind it, and the rest is the same call.
        have hmore (input : List Arrival) := next_of_bytes hsignal b bs input
        cases ih (r := { r with buffer := r.buffer ++ b :: bs }) hended hrest with
        | before hstill hdone hwhole hnext =>
          rw [← hmore] at hstill hdone hwhole
          refine .before hstill hdone hwhole fun more => ?_
          rw [List.cons_append, hmore, hmore]
          exact hnext more
        | behind last hlast hwait hbuffer hnext =>
          refine .behind last hlast hwait ?_ fun more => ?_
          · rw [hbuffer, content, List.append_assoc]
          · rw [List.cons_append, hmore]
            exact hnext more
      | .failure reason =>
        have hnext (input : List Arrival) := next_of_failure hsignal reason input
        apply Continues.before
        · rw [hnext]
          exact hended
        · simp [hnext]
        · simp [hnext]
        · intro more
          rw [List.cons_append, hnext, hnext]

end Reader

end LanguageServer
