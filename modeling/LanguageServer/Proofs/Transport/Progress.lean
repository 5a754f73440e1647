import LanguageServer.Proofs.Transport.Buffer
import LanguageServer.Proofs.Transport.Continued
import LanguageServer.Proofs.Transport.Messages

namespace LanguageServer

namespace Arrival

def isFailure : Arrival → Bool
  | .bytes _ => false
  | .failure _ => true

end Arrival

namespace Reader

open Arrival (content isFailure)

/-- What one round inside a call comes to: the call returns, or it has read and goes round again. -/
inductive Round where
  | returns (reading : Reading)
  | again (r : Reader) (input : List Arrival) (log : List Log.Event)

def closed : Log.Event := ⟨.debug, .transport, "Input stream closed"⟩

/-- One round of a call. A read that brings no bytes takes nothing from the stream, but the next
round knows that it has ended. -/
def round (r : Reader) (input : List Arrival) : Round :=
  match r.signal? with
  | some (signal, after, log) => .returns ⟨signal, after, input, log⟩
  | none =>
    match input with
    | [] => .again (r.fill []) [] [closed]
    | .bytes [] :: rest => .again (r.fill []) rest [closed]
    | .bytes (b :: bs) :: rest => .again (r.fill (b :: bs)) rest []
    | .failure reason :: rest => .returns ⟨.error (.io reason), r, rest, []⟩

/-- What a call of at most `n` rounds gives, if it returns. -/
def rounds : Nat → Reader → List Arrival → Option Reading
  | 0, _, _ => none
  | n + 1, r, input =>
    match r.round input with
    | .returns reading => some reading
    | .again next rest log =>
      (rounds n next rest).map fun reading => { reading with log := log ++ reading.log }

variable {r after : Reader} {input rest : List Arrival} {signal : Signal} {log : List Log.Event}

theorem rounds_of_signal? (h : r.signal? = some (signal, after, log)) (n : Nat)
    (input : List Arrival) : rounds (n + 1) r input = some ⟨signal, after, input, log⟩ := by
  simp only [rounds, round, h]

theorem rounds_fill_nil (h : r.signal? = none) (n : Nat) (rest : List Arrival) :
    (rounds (n + 1) (r.fill []) rest).map (fun reading =>
      { reading with log := closed :: reading.log }) = some (r.close rest) := by
  rw [rounds_of_signal? (signal?_fill_nil h), fill_nil]
  rfl

/-- A call goes round once for each read and at most twice more. -/
theorem rounds_eq_next (r : Reader) (input : List Arrival) :
    rounds (input.length + 2) r input = some (r.next input) := by
  induction input generalizing r with
  | nil =>
    cases hsignal : r.signal? with
    | some x => rw [rounds_of_signal? hsignal, next_of_signal? hsignal]
    | none =>
      rw [next_of_nil hsignal, rounds, round, hsignal]
      exact rounds_fill_nil hsignal 0 []
  | cons a rest ih =>
    cases hsignal : r.signal? with
    | some x => rw [rounds_of_signal? hsignal, next_of_signal? hsignal]
    | none =>
      match a with
      | .bytes [] =>
        rw [next_of_end hsignal, rounds, round, hsignal]
        exact rounds_fill_nil hsignal (rest.length + 1) rest
      | .bytes (b :: bs) =>
        obtain ⟨hended, -⟩ := split_of_signal?_eq_none hsignal
        rw [next_of_bytes hsignal, ← fill_cons hended, rounds, round, hsignal]
        change (rounds (rest.length + 2) _ rest).map _ = _
        rw [ih]
        rfl
      | .failure reason => rw [next_of_failure hsignal, rounds, round, hsignal]

/-! The bytes and the failing reads that are left. -/

/-- The bytes that are buffered or still to be read. -/
def remaining (r : Reader) (input : List Arrival) : Bytes := r.buffer ++ content input

/-- How many bytes leave the buffer with the signal that it gives: a frame, what an error drops, or
at the end of the stream whatever is left. -/
def given (r : Reader) : Nat :=
  match Frame.split r.buffer with
  | .ok (some f) => f.consumed
  | .error _ => Frame.resync r.buffer
  | .ok none => r.buffer.length

/-- How many bytes a call takes from those that remain. -/
def taken (r : Reader) (input : List Arrival) : Nat :=
  match r.signal? with
  | some _ => r.given
  | none =>
    match input with
    | [] => r.given
    | .bytes [] :: _ => r.given
    | .bytes (b :: bs) :: rest => taken { r with buffer := r.buffer ++ b :: bs } rest
    | .failure _ :: _ => 0

/-- The failing reads that are still to come. -/
def failures (input : List Arrival) : Nat := input.countP isFailure

/-- What a call leaves that takes `n` of the bytes that remain, with so many failing reads before
it. -/
structure Spends (s : Bytes) (n failing : Nat) (reading : Reading) : Prop where
  remaining : reading.reader.remaining reading.input = s.drop n
  le : n ≤ s.length
  pos : reading.signal.fatal? = none → reading.signal ≠ .done → 0 < n
  fatal : reading.signal.fatal?.isSome = true → n = 0
  failing : failures reading.input + reading.signal.fatal?.isSome.toNat = failing
  done : reading.signal = .done → reading.reader.ended = true ∧ reading.reader.buffer = []

theorem finish_of_nil (h : r.buffer = []) : r.finish.1 = .done := by
  unfold finish
  rw [h]
  rfl

theorem spends_of_signal? (h : r.signal? = some (signal, after, log)) (input : List Arrival)
    (log' : List Log.Event) :
    Spends (r.remaining input) r.given (failures input) ⟨signal, after, input, log'⟩ := by
  have hfatal : signal.fatal? = none := fatal?_signal? h
  have hfailing : failures input + signal.fatal?.isSome.toNat = failures input := by
    rw [hfatal]
    rfl
  suffices hcut : after.buffer = r.buffer.drop r.given ∧ r.given ≤ r.buffer.length ∧
      (signal ≠ .done → 0 < r.given) ∧
      (signal = .done → after.ended = true ∧ after.buffer = []) by
    obtain ⟨hbuffer, hle, hpos, hdone⟩ := hcut
    exact {
      remaining := by rw [remaining, remaining, hbuffer, List.drop_append_of_le_length hle]
      le := by rw [remaining, List.length_append]; omega
      pos := fun _ => hpos
      fatal := by simp [hfatal]
      failing := hfailing
      done := hdone }
  unfold given
  rcases signal?_cases h with ⟨f, hsplit, rfl, rfl⟩ | ⟨e, hsplit, rfl, rfl⟩ |
    ⟨hsplit, hended, rfl, rfl⟩
  · rw [hsplit]
    exact ⟨rfl, (Frame.consumed_of_split hsplit).2, fun _ => Frame.consumed_pos hsplit, by simp⟩
  · rw [hsplit]
    have hne := Frame.ne_nil_of_split_error hsplit
    exact ⟨rfl, Frame.resync_le _, fun _ => Frame.resync_pos hne, by simp⟩
  · obtain ⟨-, hbuffer, hstill⟩ := finish_spec r
    rw [hsplit, hbuffer, hstill, List.drop_length]
    exact ⟨rfl, Nat.le_refl _, fun hne => List.length_pos_iff.mpr (hne ∘ finish_of_nil),
      fun _ => ⟨hended, rfl⟩⟩

/-- Finding the end of the stream takes what is left in the buffer. -/
theorem spends_close (h : r.signal? = none) (rest : List Arrival) :
    Spends (r.remaining rest) r.given (failures rest) (r.close rest) := by
  have hbuffer : (r.fill []).buffer = r.buffer := List.append_nil _
  have hspends := spends_of_signal? (signal?_fill_nil h) rest [closed]
  rw [fill_nil] at hspends
  exact hspends

/-- What a call takes is gone from the front of what remains. A failing read takes nothing, and any
other signal before the end takes something. -/
theorem spends_next (r : Reader) (input : List Arrival) :
    Spends (r.remaining input) (r.taken input) (failures input) (r.next input) := by
  fun_induction r.next input with
  | case1 input r signal after log h =>
    have htaken : r.taken input = r.given := by
      unfold taken
      rw [h]
    rw [htaken]
    exact spends_of_signal? h input log
  | case2 r h =>
    rw [taken, h]
    exact spends_close h []
  | case3 r h rest =>
    rw [taken, h]
    exact spends_close h rest
  | case4 r h b bs rest ih =>
    have hremaining : r.remaining (.bytes (b :: bs) :: rest) =
        remaining { r with buffer := r.buffer ++ b :: bs } rest :=
      (List.append_assoc r.buffer (b :: bs) (content rest)).symm
    rw [taken, h, hremaining]
    exact ih
  | case5 r h reason rest =>
    rw [taken, h]
    exact {
      remaining := rfl
      le := Nat.zero_le _
      pos := by simp [Signal.fatal?, TransportError.isFatal]
      fatal := fun _ => rfl
      failing := (List.countP_cons_of_pos rfl).symm
      done := by simp }

theorem spends_signals (r : Reader) (input : List Arrival) :
    (r.signals input).countP (fun signal => signal.fatal?.isNone) ≤ (r.remaining input).length ∧
      (r.signals input).countP (fun signal => signal.fatal?.isSome) ≤ failures input := by
  obtain ⟨hremaining, hle, hpos, -, hfailing, -⟩ := spends_next r input
  by_cases hdone : (r.next input).signal = .done
  · rw [signals_of_done hdone]
    exact ⟨Nat.zero_le _, Nat.zero_le _⟩
  · obtain ⟨hbytes, hfails⟩ := spends_signals (r.next input).reader (r.next input).input
    rw [hremaining, List.length_drop] at hbytes
    rw [signals_of_ne_done hdone, List.countP_cons, List.countP_cons]
    cases hfatal : (r.next input).signal.fatal? with
    | none =>
      have hpos := hpos hfatal hdone
      simp [hfatal] at hfailing ⊢
      omega
    | some e =>
      simp [hfatal] at hfailing ⊢
      omega
termination_by r.size input
decreasing_by exact size_next_lt ‹_›

/-! One call after the other. -/

/-- What call number `k` gives, from zero on. -/
def call : Nat → Reader → List Arrival → Reading
  | 0, r, input => r.next input
  | k + 1, r, input => call k (r.next input).reader (r.next input).input

/-- A reader that has given up everything at the end of the stream only says so again. -/
theorem call_of_ended (hended : r.ended = true) (hbuffer : r.buffer = []) (k : Nat)
    (input : List Arrival) : call k r input = ⟨.done, r, input, []⟩ := by
  have hnext : r.next input = ⟨.done, r, input, []⟩ := next_of_ended hended hbuffer input
  induction k with
  | zero => exact hnext
  | succ k ih =>
    rw [call, hnext]
    exact ih

theorem done_notMem_signals (r : Reader) (input : List Arrival) : .done ∉ r.signals input := by
  by_cases hdone : (r.next input).signal = .done
  · simp [signals_of_done hdone]
  · rw [signals_of_ne_done hdone, List.mem_cons, not_or]
    exact ⟨Ne.symm hdone, done_notMem_signals _ _⟩
termination_by r.size input
decreasing_by exact size_next_lt ‹_›

/-- The signals come one at each call, and behind them the end comes at every call. -/
theorem signal_call (k : Nat) (r : Reader) (input : List Arrival) :
    (call k r input).signal = (r.signals input)[k]?.getD .done := by
  induction k generalizing r input with
  | zero =>
    by_cases hdone : (r.next input).signal = .done
    · rw [signals_of_done hdone, call, hdone]
      rfl
    · rw [signals_of_ne_done hdone, call]
      rfl
  | succ k ih =>
    by_cases hdone : (r.next input).signal = .done
    · obtain ⟨hended, hbuffer⟩ := (spends_next r input).done hdone
      rw [signals_of_done hdone, call, call_of_ended hended hbuffer]
      rfl
    · rw [signals_of_ne_done hdone, call, ih, List.getElem?_cons_succ]

theorem call_add_one (k : Nat) (r : Reader) (input : List Arrival) :
    call (k + 1) r input = (call k r input).reader.next (call k r input).input := by
  induction k generalizing r input with
  | zero => rfl
  | succ k ih => exact ih _ _

theorem call_done {k : Nat} (h : (call k r input).signal = .done) :
    (call k r input).reader.ended = true ∧ (call k r input).reader.buffer = [] := by
  cases k with
  | zero => exact (spends_next r input).done h
  | succ k =>
    rw [call_add_one] at h ⊢
    exact (spends_next _ _).done h

/-- Every call returns, after one round for each read and two more at most. A body or a framing
error leaves fewer bytes, and a failing read is used up by the error that it is. So the signals are
no more than there are bytes and failing reads, and then the end comes. After that nothing is
buffered, and every call only says so again and reads nothing, whatever is still there to be
read. -/
theorem call_progress (r : Reader) (input : List Arrival) :
    rounds (input.length + 2) r input = some (r.next input) ∧
      (match (r.next input).signal with
        | .body _ | .error (.framing _) =>
          ((r.next input).reader.remaining (r.next input).input).length <
              (r.remaining input).length ∧
            failures (r.next input).input = failures input
        | .error (.io _) =>
          (r.next input).reader.remaining (r.next input).input = r.remaining input ∧
            failures (r.next input).input + 1 = failures input
        | .done => (r.next input).reader.buffer = []) ∧
      (r.signals input).countP (fun signal => signal.fatal?.isNone) ≤
        (r.remaining input).length ∧
      (r.signals input).countP (fun signal => signal.fatal?.isSome) ≤ failures input ∧
      (∀ k, (call k r input).signal = (r.signals input)[k]?.getD .done) ∧
      .done ∉ r.signals input ∧
      ∀ k, (r.signals input).length ≤ k → (call k r input).reader.buffer = [] ∧
        call (k + 1) r input = ⟨.done, (call k r input).reader, (call k r input).input, []⟩ := by
  obtain ⟨hbytes, hfailing⟩ := spends_signals r input
  refine ⟨rounds_eq_next r input, ?_, hbytes, hfailing, fun k => signal_call k r input,
    done_notMem_signals r input, ?_⟩
  · obtain ⟨hremaining, hle, hpos, hfatal, hfailing, hdone⟩ := spends_next r input
    have hfewer (hn : 0 < r.taken input) :
        ((r.next input).reader.remaining (r.next input).input).length <
          (r.remaining input).length := by
      rw [hremaining, List.length_drop]
      omega
    rcases hsignal : (r.next input).signal with b | ⟨reason | e⟩ | _ <;>
      rw [hsignal] at hpos hfatal hfailing hdone
    · exact ⟨hfewer (hpos rfl (by simp)), hfailing⟩
    · rw [hfatal rfl, List.drop_zero] at hremaining
      exact ⟨hremaining, hfailing⟩
    · exact ⟨hfewer (hpos rfl (by simp)), hfailing⟩
    · exact (hdone rfl).2
  · intro k hk
    have hdone : (call k r input).signal = .done := by
      rw [signal_call, List.getElem?_eq_none hk]
      rfl
    obtain ⟨hended, hbuffer⟩ := call_done hdone
    refine ⟨hbuffer, ?_⟩
    rw [call_add_one]
    exact call_of_ended hended hbuffer 0 _

end Reader

end LanguageServer
