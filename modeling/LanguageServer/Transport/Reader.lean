import LanguageServer.Log
import LanguageServer.Transport.Error

namespace LanguageServer

/-- What one read of a stream gives. No bytes at all are the end of the stream. -/
inductive Arrival where
  | bytes (b : Bytes)
  | failure (reason : String)
  deriving DecidableEq

/-- The most that one read takes. -/
def readSize : Nat := 8 * 1024

namespace Arrival

/-- The reads that take in what arrives at once. -/
def reads : Arrival → List Arrival
  | .bytes b => (b.pieces readSize).map .bytes
  | .failure reason => [.failure reason]

/-- A read counts for itself and for every byte in it. -/
def weight : Arrival → Nat
  | .bytes b => b.length + 1
  | .failure _ => 1

def totalWeight : List Arrival → Nat
  | [] => 0
  | a :: rest => a.weight + totalWeight rest

end Arrival

/-- What a reader tells its user. -/
inductive Signal where
  | body (b : Bytes)
  | error (e : TransportError)
  | done
  deriving DecidableEq

/-- The bytes that have been read and not yet used, and whether the stream has ended. -/
structure Reader where
  buffer : Bytes := []
  ended : Bool := false
  deriving DecidableEq

/-- A signal, what is left after it, and what was logged on the way. -/
structure Reading where
  signal : Signal
  reader : Reader
  input : List Arrival
  log : List Log.Event

namespace Reader

/-- At the end of the stream blanks may be left over, and nothing else. -/
def finish (r : Reader) : Signal × Reader :=
  if r.buffer.all Bytes.isBlank then (.done, { r with buffer := [] })
  else
    let received := r.buffer.length
    let expected := (Frame.declaredLength? r.buffer).getD received
    (.error (.framing (.truncated expected received)), { r with buffer := [] })

/-- The signal that the buffer gives by itself, if it gives one. -/
def signal? (r : Reader) : Option (Signal × Reader × List Log.Event) :=
  match Frame.split r.buffer with
  | .ok (some f) => some (.body f.body, { r with buffer := r.buffer.drop f.consumed }, [])
  | .error e =>
    let n := Frame.resync r.buffer
    some (.error (.framing e), { r with buffer := r.buffer.drop n },
      [⟨.warn, .transport, s!"Dropping {n} bytes after framing error: {e.message}"⟩])
  | .ok none =>
    if r.ended then
      let (s, next) := r.finish
      some (s, next, [])
    else none

/-- What the reader says when a read has found the end of the stream. -/
def close (r : Reader) (rest : List Arrival) : Reading :=
  let (s, after) := finish { r with ended := true }
  ⟨s, after, rest, [⟨.debug, .transport, "Input stream closed"⟩]⟩

/-- Reads on until the buffer gives a signal. A failing read is a signal of its own, and an ended
stream is never read again. -/
def next (r : Reader) (input : List Arrival) : Reading :=
  match r.signal? with
  | some (s, after, log) => ⟨s, after, input, log⟩
  | none =>
    match input with
    | [] => r.close []
    | .bytes [] :: rest => r.close rest
    | .bytes (b :: bs) :: rest => next { r with buffer := r.buffer ++ b :: bs } rest
    | .failure reason :: rest => ⟨.error (.io reason), r, rest, []⟩

/-- Everything between a reader and the end of its work. -/
def size (r : Reader) (input : List Arrival) : Nat := r.buffer.length + Arrival.totalWeight input

theorem size_finish_lt {r : Reader} (h : r.finish.1 ≠ .done) :
    r.finish.2.buffer.length < r.buffer.length := by
  unfold finish at h ⊢
  split
  · rename_i hb
    simp [hb] at h
  · rename_i hb
    cases hr : r.buffer with
    | nil => simp [hr] at hb
    | cons b rest => simp

theorem signal?_size_lt {r after : Reader} {s : Signal} {log : List Log.Event}
    (h : r.signal? = some (s, after, log)) (hs : s ≠ .done) :
    after.buffer.length < r.buffer.length := by
  unfold signal? at h
  split at h
  · rename_i f hf
    cases h
    have := Frame.consumed_pos hf
    have := (Frame.consumed_of_split hf).2
    simp only [List.length_drop]
    omega
  · rename_i e he
    cases h
    have hne := Frame.ne_nil_of_split_error he
    have := Frame.resync_pos hne
    have := List.length_pos_iff.mpr hne
    simp only [List.length_drop]
    omega
  · split at h
    · cases h
      exact size_finish_lt hs
    · cases h

/-- Each call that does not find the end leaves less to do. -/
theorem size_next_lt {input : List Arrival} {r : Reader} (h : (r.next input).signal ≠ .done) :
    (r.next input).reader.size (r.next input).input < r.size input := by
  induction input generalizing r with
  | nil =>
    unfold next at h ⊢
    split at h
    · rename_i s after log hs
      have := signal?_size_lt hs h
      simp only [size]
      omega
    · have := size_finish_lt h
      simp only [size, close] at this ⊢
      omega
  | cons a rest ih =>
    unfold next at h ⊢
    split at h
    · rename_i s after log hs
      have := signal?_size_lt hs h
      simp only [size]
      omega
    · match a, h with
      | .bytes [], h =>
        have := size_finish_lt h
        simp only [size, close, Arrival.totalWeight, Arrival.weight] at this ⊢
        omega
      | .bytes (b :: bs), h =>
        have := ih h
        simp only [size, Arrival.totalWeight, Arrival.weight,
          List.length_append, List.length_cons] at this ⊢
        omega
      | .failure reason, h =>
        simp only [size, Arrival.totalWeight, Arrival.weight]
        omega

/-- All signals before the end, with every error followed by another call. -/
def signals (r : Reader) (input : List Arrival) : List Signal :=
  let reading := r.next input
  if _ : reading.signal = .done then []
  else reading.signal :: reading.reader.signals reading.input
termination_by r.size input
decreasing_by exact size_next_lt ‹_›

end Reader

end LanguageServer
