import LanguageServer.Proofs.Stream.Cuts
import LanguageServer.Transport.Reader

namespace LanguageServer

namespace Arrival

def content : List Arrival → Bytes
  | [] => []
  | .bytes b :: rest => b ++ content rest
  | .failure _ :: rest => content rest

/-- The places where reads end, the first of which is `n`. -/
def readEnds (n : Nat) : List Arrival → List Nat
  | [] => [n]
  | .bytes b :: rest => n :: readEnds (n + b.length) rest
  | .failure _ :: rest => readEnds n rest

/-- No read finds the end of the stream but behind everything that arrives. -/
def Unbroken (input : List Arrival) : Prop := .bytes [] ∉ input

instance (input : List Arrival) : Decidable (Unbroken input) :=
  inferInstanceAs (Decidable (_ ∉ _))

/-- A read before the end of an unbroken stream that does not fail brings at least one byte. -/
theorem exists_bytes_of_cons {a : Arrival} {rest : List Arrival} (hinput : Unbroken (a :: rest))
    (hreads : ∀ reason, .failure reason ∉ a :: rest) :
    (∃ b bs, a = .bytes (b :: bs)) ∧ Unbroken rest ∧ ∀ reason, .failure reason ∉ rest := by
  refine ⟨?_, fun h => hinput (List.mem_cons_of_mem a h),
    fun reason h => hreads reason (List.mem_cons_of_mem a h)⟩
  cases a with
  | bytes chunk =>
    cases chunk with
    | nil => exact absurd List.mem_cons_self hinput
    | cons b bs => exact ⟨b, bs, rfl⟩
  | failure reason => exact absurd List.mem_cons_self (hreads reason)

theorem le_of_mem_readEnds {n c : Nat} {input : List Arrival} (h : c ∈ readEnds n input) :
    n ≤ c := by
  induction input generalizing n with
  | nil => exact (List.mem_singleton.mp h).ge
  | cons a rest ih =>
    cases a with
    | bytes b =>
      rcases List.mem_cons.mp h with rfl | h
      · exact Nat.le_refl _
      · have := ih h
        omega
    | failure reason => exact ih h

theorem self_mem_readEnds (n : Nat) (input : List Arrival) : n ∈ readEnds n input := by
  induction input with
  | nil => exact List.mem_singleton_self n
  | cons a rest ih =>
    cases a with
    | bytes b => exact List.mem_cons_self
    | failure reason => exact ih

theorem shift_readEnds {k n : Nat} (h : k ≤ n) (input : List Arrival) :
    Stream.shift k (readEnds n input) = readEnds (n - k) input := by
  induction input generalizing n with
  | nil => rfl
  | cons a rest ih =>
    cases a with
    | bytes b =>
      have := ih (n := n + b.length) (by omega)
      simp only [readEnds, Stream.shift, List.map_cons, List.cons.injEq, true_and] at this ⊢
      rw [this, Nat.sub_add_comm h]
    | failure reason => exact ih h

end Arrival

namespace Signal

def body? : Signal → Option Bytes
  | .body b => some b
  | _ => none

end Signal

namespace Reader

open Arrival (content readEnds Unbroken)

def bodies (r : Reader) (input : List Arrival) : List Bytes :=
  (r.signals input).filterMap Signal.body?

/-- At the end of the stream a reader has given up what it held. -/
def Settled (r : Reader) : Prop := r.ended = true → r.buffer = []

theorem settled_of_not_ended {r : Reader} (h : r.ended = false) : r.Settled := by
  intro hended
  rw [h] at hended
  cases hended

/-- The bodies that are still to come, from the bytes alone and the places where reads end. -/
def pending (r : Reader) (input : List Arrival) : List Bytes :=
  if r.ended then []
  else Stream.bodies (readEnds r.buffer.length input) (r.buffer ++ content input)

theorem pending_of_ended {r : Reader} (h : r.ended = true) (input : List Arrival) :
    r.pending input = [] := if_pos h

theorem finish_spec (r : Reader) : r.finish.1.body? = none ∧ r.finish.2.buffer = [] ∧
    r.finish.2.ended = r.ended := by
  unfold finish
  split <;> exact ⟨rfl, rfl, rfl⟩

/-- A signal of the buffer by itself is a frame, an error, or at the end of the stream what is said
about the rest. -/
theorem signal?_cases {r after : Reader} {signal : Signal} {log : List Log.Event}
    (h : r.signal? = some (signal, after, log)) :
    (∃ f, Frame.split r.buffer = .ok (some f) ∧ signal = .body f.body ∧
      after = { r with buffer := r.buffer.drop f.consumed }) ∨
    (∃ e, Frame.split r.buffer = .error e ∧ signal = .error (.framing e) ∧
      after = { r with buffer := r.buffer.drop (Frame.resync r.buffer) }) ∨
    (Frame.split r.buffer = .ok none ∧ r.ended = true ∧ signal = r.finish.1 ∧
      after = r.finish.2) := by
  unfold signal? at h
  split at h
  · rename_i f hf
    cases h
    exact .inl ⟨f, hf, rfl, rfl⟩
  · rename_i e he
    cases h
    exact .inr (.inl ⟨e, he, rfl, rfl⟩)
  · rename_i hwait
    split at h
    · rename_i hended
      cases h
      exact .inr (.inr ⟨hwait, hended, rfl, rfl⟩)
    · cases h

theorem next_of_signal? {r after : Reader} {signal : Signal} {log : List Log.Event}
    (h : r.signal? = some (signal, after, log)) (input : List Arrival) :
    r.next input = ⟨signal, after, input, log⟩ := by
  unfold next
  rw [h]

/-! What a call does that needs a read, from what the read finds. -/

section Read

variable {r : Reader} (h : r.signal? = none)

include h

theorem next_of_nil : r.next [] = r.close [] := by
  rw [next]
  simp only [h]

theorem next_of_end (rest : List Arrival) : r.next (.bytes [] :: rest) = r.close rest := by
  rw [next]
  simp only [h]

theorem next_of_bytes (b : UInt8) (bs : Bytes) (rest : List Arrival) :
    r.next (.bytes (b :: bs) :: rest) = next { r with buffer := r.buffer ++ b :: bs } rest := by
  rw [next]
  simp only [h]

theorem next_of_failure (reason : String) (rest : List Arrival) :
    r.next (.failure reason :: rest) = ⟨.error (.io reason), r, rest, []⟩ := by
  rw [next]
  simp only [h]

end Read

theorem not_overruns {b more : Bytes} {e : Nat} {ends : List Nat}
    (hfind : Bytes.find Frame.terminator b = some e) (h : ∀ c ∈ ends, b.length ≤ c) :
    Stream.overruns ends (b ++ more) = false := by
  apply Stream.overruns_eq_false (Frame.find_terminator_append hfind more)
  intro c hc _
  exact (Frame.find_terminator_le hfind).trans (h c hc)

theorem bodies_of_split_some {b more : Bytes} {f : Frame} {ends : List Nat}
    (h : Frame.split b = .ok (some f)) (hends : ∀ c ∈ ends, b.length ≤ c) :
    Stream.bodies ends (b ++ more) =
      f.body :: Stream.bodies (Stream.shift f.consumed ends) (b.drop f.consumed ++ more) := by
  obtain ⟨e, n, hd, -⟩ := Frame.declares_of_split_some h
  have hverdict : Stream.verdict ends (b ++ more) = .ok (some f) :=
    (Stream.verdict_of_not_overruns (not_overruns hd.find hends)).trans
      (Frame.split_append_of_some h more)
  rw [Stream.bodies_of_frame hverdict,
    List.drop_append_of_le_length (Frame.consumed_of_split h).2]

/-- What is refused in the buffer is refused in the stream, if the read that filled the buffer
counts as one. -/
theorem bodies_of_split_error {b more : Bytes} {error : FramingError} {ends : List Nat}
    (h : Frame.split b = .error error) (hmem : b.length ∈ ends) :
    Stream.bodies ends (b ++ more) =
      Stream.bodies (Stream.shift (Frame.resync b) ends) (b.drop (Frame.resync b) ++ more) := by
  have hne := Frame.ne_nil_of_split_error h
  obtain ⟨error', hverdict⟩ : ∃ error', Stream.verdict ends (b ++ more) = .error error' := by
    cases hfind : Bytes.find Frame.terminator b with
    | some e =>
      exact Stream.exists_verdict_of_split_error (Frame.split_append_of_error h hfind more) ends
    | none =>
      -- The buffer is too long without a terminator. If the terminator of a header that is not
      -- too long comes after all, the last read has ended inside it.
      rw [Frame.split_of_find_none hfind] at h
      split at h
      · rename_i hlong
        refine ⟨.headerTooLarge, ?_⟩
        cases hover : Stream.overruns ends (b ++ more) with
        | true => exact Stream.verdict_of_overruns hover
        | false =>
          rw [Stream.verdict_of_not_overruns hover]
          cases hmore : Bytes.find Frame.terminator (b ++ more) with
          | none =>
            rw [Frame.split_of_find_none hmore, if_pos]
            rw [List.length_append]
            omega
          | some e =>
            apply Frame.split_of_length_lt hmore
            by_contra he
            have hdivides : Stream.Divides (b ++ more) b.length :=
              ⟨e, hmore, by omega, hlong, Frame.lt_of_find_terminator_append hfind hmore⟩
            have := (Stream.overruns_eq_true_iff hmore (by omega)).mpr ⟨_, hmem, hdivides⟩
            rw [hover] at this
            cases this
      · cases h
  rw [Stream.bodies_of_error_drop hverdict (Frame.resync_le_resync_append hne more)
    (Frame.resync_pos hne), List.drop_append_of_le_length (Frame.resync_le b)]

/-- When the buffer decides nothing, the read that filled it does not matter. -/
theorem bodies_of_split_none {b : Bytes} {ends : List Nat}
    (h : Frame.split b = .ok none) (hends : ∀ c ∈ ends, b.length ≤ c) (more : Bytes) :
    Stream.bodies (b.length :: ends) (b ++ more) = Stream.bodies ends (b ++ more) := by
  rcases Frame.wait_cases h with ⟨-, hlen⟩ | ⟨e, n, hd, hlt⟩
  · exact Stream.bodies_cons_of_le hlen
  · have hcons : ∀ c ∈ b.length :: ends, b.length ≤ c := by
      intro c hc
      rcases List.mem_cons.mp hc with rfl | hc
      · exact Nat.le_refl _
      · exact hends c hc
    rw [Stream.bodies_of_declares (hd.append more) (not_overruns hd.find hends),
      Stream.bodies_of_declares (hd.append more) (not_overruns hd.find hcons)]
    have hshift : Stream.shift (e + Frame.terminator.length + n) (b.length :: ends) =
        0 :: Stream.shift (e + Frame.terminator.length + n) ends := by
      simp only [Stream.shift, List.map_cons, List.cons.injEq, and_true]
      omega
    rw [hshift, Stream.bodies_cons_of_le (Nat.zero_le _)]

/-- What a signal of the buffer by itself does to the bodies that are to come. -/
theorem pending_of_signal? {r after : Reader} {signal : Signal} {log : List Log.Event}
    (h : r.signal? = some (signal, after, log)) (hr : r.Settled) (input : List Arrival) :
    r.pending input = signal.body?.toList ++ after.pending input ∧ after.Settled ∧
      (signal = .done → after.ended = true) := by
  cases hended : r.ended with
  | true =>
    have hempty := hr hended
    unfold signal? at h
    rw [hempty, Frame.split_nil] at h
    simp only [hended, if_true, Option.some.injEq, Prod.mk.injEq] at h
    obtain ⟨hbody, hbuffer, hstill⟩ := finish_spec r
    rw [h.1, h.2.1] at *
    rw [pending_of_ended hended, pending_of_ended (hstill.trans hended), hbody]
    exact ⟨rfl, fun _ => hbuffer, fun _ => hstill.trans hended⟩
  | false =>
    have hends : ∀ c ∈ readEnds r.buffer.length input, r.buffer.length ≤ c :=
      fun c hc => Arrival.le_of_mem_readEnds hc
    have keep {k : Nat} (hk : k ≤ r.buffer.length) (b : Option Bytes)
        (hb : Stream.bodies (readEnds r.buffer.length input) (r.buffer ++ content input) =
          b.toList ++ Stream.bodies (Stream.shift k (readEnds r.buffer.length input))
            (r.buffer.drop k ++ content input)) :
        r.pending input =
            b.toList ++ pending { r with buffer := r.buffer.drop k } input ∧
          Settled { r with buffer := r.buffer.drop k } := by
      refine ⟨?_, fun he => ?_⟩
      · rw [Arrival.shift_readEnds hk] at hb
        simp only [pending, hended, List.length_drop]
        exact hb
      · rw [hended] at he
        cases he
    rcases signal?_cases h with ⟨f, hf, rfl, rfl⟩ | ⟨e, he, rfl, rfl⟩ | ⟨-, hopen, -, -⟩
    · obtain ⟨hpending, hsettled⟩ := keep (Frame.consumed_of_split hf).2 (some f.body)
        (bodies_of_split_some hf hends)
      exact ⟨hpending, hsettled, fun hdone => by cases hdone⟩
    · obtain ⟨hpending, hsettled⟩ := keep (Frame.resync_le _) none
        (bodies_of_split_error he (Arrival.self_mem_readEnds _ _))
      exact ⟨hpending, hsettled, fun hdone => by cases hdone⟩
    · rw [hended] at hopen
      cases hopen

theorem split_of_signal?_eq_none {r : Reader} (h : r.signal? = none) :
    r.ended = false ∧ Frame.split r.buffer = .ok none := by
  unfold signal? at h
  split at h
  · cases h
  · cases h
  · rename_i hsplit
    split at h
    · cases h
    · rename_i hended
      exact ⟨by simpa using hended, hsplit⟩

theorem pending_nil {r : Reader} (h : Frame.split r.buffer = .ok none) : r.pending [] = [] := by
  have hverdict : Stream.verdict [] r.buffer = .ok none := (Stream.verdict_nil _).trans h
  have hends : ∀ c ∈ ([] : List Nat), r.buffer.length ≤ c := by simp
  have hbodies := bodies_of_split_none h hends []
  rw [List.append_nil, Stream.bodies_of_wait hverdict] at hbodies
  unfold pending
  split
  · rfl
  · rw [content, readEnds, List.append_nil]
    exact hbodies

/-- One call gives the next body, if it gives one, and leaves the others to come. -/
theorem pending_next {input : List Arrival} {r : Reader} (hr : r.Settled)
    (hinput : Unbroken input) :
    r.pending input = (r.next input).signal.body?.toList ++
        (r.next input).reader.pending (r.next input).input ∧
      (r.next input).reader.Settled ∧ Unbroken (r.next input).input ∧
        ((r.next input).signal = .done → (r.next input).reader.ended = true) := by
  induction input generalizing r with
  | nil =>
    rw [next]
    split
    · rename_i signal after log h
      obtain ⟨hpending, hsettled, hdone⟩ := pending_of_signal? h hr []
      exact ⟨hpending, hsettled, hinput, hdone⟩
    · rename_i h
      obtain ⟨hended, hsplit⟩ := split_of_signal?_eq_none h
      obtain ⟨hbody, hbuffer, hstill⟩ := finish_spec { r with ended := true }
      rw [pending_nil hsplit]
      refine ⟨?_, fun _ => hbuffer, hinput, fun _ => hstill⟩
      simp only [close]
      rw [hbody, pending_of_ended hstill]
      rfl
  | cons a rest ih =>
    have hrest : Unbroken rest := fun h => hinput (List.mem_cons_of_mem a h)
    unfold next
    split
    · rename_i signal after log h
      obtain ⟨hpending, hsettled, hdone⟩ := pending_of_signal? h hr (a :: rest)
      exact ⟨hpending, hsettled, hinput, hdone⟩
    · rename_i h
      obtain ⟨hended, hsplit⟩ := split_of_signal?_eq_none h
      match a with
      | .bytes [] => exact absurd List.mem_cons_self hinput
      | .bytes (b :: bs) =>
        have hgrown : r.pending (.bytes (b :: bs) :: rest) =
            pending { r with buffer := r.buffer ++ b :: bs } rest := by
          have hends : ∀ c ∈ readEnds (r.buffer ++ b :: bs).length rest, r.buffer.length ≤ c := by
            intro c hc
            have := Arrival.le_of_mem_readEnds hc
            rw [List.length_append] at this
            omega
          have := bodies_of_split_none hsplit hends (b :: bs ++ content rest)
          rw [← List.append_assoc, List.length_append] at this
          simp only [pending, hended, content, readEnds]
          rw [← List.append_assoc, List.length_append]
          exact this
        rw [hgrown]
        exact ih (fun he => by rw [hended] at he; cases he) hrest
      | .failure reason =>
        refine ⟨rfl, hr, hrest, fun hdone => by cases hdone⟩

/-- Reading gives the bodies that are in the bytes, wherever reads end and fail. -/
theorem bodies_eq_pending {r : Reader} {input : List Arrival} (hr : r.Settled)
    (hinput : Unbroken input) : r.bodies input = r.pending input := by
  obtain ⟨hpending, hr', hinput', hdone⟩ := pending_next hr hinput
  rw [bodies, signals]
  split
  · rename_i h
    rw [hpending, pending_of_ended (hdone h), h]
    rfl
  · rename_i h
    have ih := bodies_eq_pending hr' hinput'
    rw [hpending, ← ih, bodies]
    cases hsignal : (r.next input).signal <;> rfl
termination_by r.size input
decreasing_by exact size_next_lt ‹_›

theorem bodies_new {input : List Arrival} (hinput : Unbroken input) :
    bodies {} input = Stream.bodies (Arrival.readEnds 0 input) (content input) :=
  bodies_eq_pending (fun h => by cases h) hinput

end Reader

end LanguageServer
