import LanguageServer.Proofs.Transport.Bodies

namespace LanguageServer

namespace Frame

variable {b : Bytes} {e n : Nat}

theorem length_lt_of_wait (h : split b = .ok none) :
    b.length < maxHeaderLength + terminator.length + maxBodyLength := by
  rcases wait_cases h with ⟨-, hlength⟩ | ⟨e, n, hd, hlt⟩
  · have hterminator : terminator.length = 4 := rfl
    omega
  · have hend := hd.end_le
    have hbody := hd.length_le
    omega

end Frame

namespace Reader

variable {r r' after : Reader} {input rest rest' : List Arrival}

/-- What a read makes of a reader. One that brings no bytes has found the end of the stream. -/
def fill (r : Reader) (b : Bytes) : Reader := ⟨r.buffer ++ b, b.isEmpty⟩

/-- One move of a reader inside a call: the buffer gives a signal, or else it reads. -/
inductive Moves : Reader → List Arrival → Reader → List Arrival → Prop where
  | signal {r after : Reader} {signal : Signal} {log : List Log.Event} {rest : List Arrival}
    (h : r.signal? = some (signal, after, log)) : Moves r rest after rest
  | read {r : Reader} {b : Bytes} {rest : List Arrival} (h : r.signal? = none) :
    Moves r (.bytes b :: rest) (r.fill b) rest
  | fail {r : Reader} {reason : String} {rest : List Arrival} (h : r.signal? = none) :
    Moves r (.failure reason :: rest) r rest
  | close {r : Reader} (h : r.signal? = none) : Moves r [] (r.fill []) []

/-- What a new reader comes to, inside its calls and between them, with what is still to be read. -/
inductive Visits (input : List Arrival) : Reader → List Arrival → Prop where
  | start : Visits input {} input
  | move {r r' : Reader} {rest rest' : List Arrival} (h : Visits input r rest)
    (hmove : Moves r rest r' rest') : Visits input r' rest'

theorem fill_nil (r : Reader) : r.fill [] = { r with ended := true } := by
  rw [fill, List.append_nil]
  rfl

theorem fill_cons (h : r.ended = false) (b : UInt8) (bs : Bytes) :
    r.fill (b :: bs) = { r with buffer := r.buffer ++ b :: bs } := by
  rw [fill, h]
  rfl

theorem signal?_fill_nil (h : r.signal? = none) :
    (r.fill []).signal? = some ((r.fill []).finish.1, (r.fill []).finish.2, []) := by
  obtain ⟨-, hsplit⟩ := split_of_signal?_eq_none h
  have hbuffer : (r.fill []).buffer = r.buffer := List.append_nil _
  rw [signal?, hbuffer, hsplit]
  rfl

theorem Visits.close (h : Visits input (r.fill []) rest) (hsignal : r.signal? = none) :
    Visits input (r.close rest).reader rest := by
  have hfinish := h.move (.signal (signal?_fill_nil hsignal))
  rw [fill_nil] at hfinish
  exact hfinish

/-- A call is made of moves. -/
theorem Visits.next (h : Visits input r rest) :
    Visits input (r.next rest).reader (r.next rest).input := by
  induction rest generalizing r with
  | nil =>
    cases hsignal : r.signal? with
    | some x =>
      rw [next_of_signal? hsignal]
      exact h.move (.signal hsignal)
    | none =>
      rw [next_of_nil hsignal]
      exact (h.move (.close hsignal)).close hsignal
  | cons a rest ih =>
    cases hsignal : r.signal? with
    | some x =>
      rw [next_of_signal? hsignal]
      exact h.move (.signal hsignal)
    | none =>
      match a with
      | .bytes [] =>
        rw [next_of_end hsignal]
        exact (h.move (.read hsignal)).close hsignal
      | .bytes (b :: bs) =>
        obtain ⟨hended, -⟩ := split_of_signal?_eq_none hsignal
        rw [next_of_bytes hsignal, ← fill_cons hended]
        exact ih (h.move (.read hsignal))
      | .failure reason =>
        rw [next_of_failure hsignal]
        exact h.move (.fail hsignal)

/-- The most that a buffer holds: one byte less than the longest frame, and one more read. -/
def capacity : Nat := maxHeaderLength + Frame.terminator.length + maxBodyLength - 1 + readSize

theorem length_of_signal? {signal : Signal} {log : List Log.Event}
    (h : r.signal? = some (signal, after, log)) : after.buffer.length ≤ r.buffer.length := by
  rcases signal?_cases h with ⟨f, -, -, rfl⟩ | ⟨e, -, -, rfl⟩ | ⟨-, -, -, rfl⟩
  · rw [List.length_drop]
    exact Nat.sub_le _ _
  · rw [List.length_drop]
    exact Nat.sub_le _ _
  · obtain ⟨-, hbuffer, -⟩ := finish_spec r
    rw [hbuffer]
    exact Nat.zero_le _

theorem length_fill_le {b : Bytes} (h : r.signal? = none) (hb : b.length ≤ readSize) :
    (r.fill b).buffer.length ≤ capacity := by
  obtain ⟨-, hsplit⟩ := split_of_signal?_eq_none h
  have hlt := Frame.length_lt_of_wait hsplit
  have hlength : (r.fill b).buffer.length = r.buffer.length + b.length := List.length_append
  unfold capacity
  omega

/-- A buffer that is not too long stays so, since it only grows by a read, which comes when the
buffer by itself is less than a frame. -/
theorem Moves.length_le (h : Moves r rest r' rest')
    (hreads : ∀ b, .bytes b ∈ rest → b.length ≤ readSize) (hle : r.buffer.length ≤ capacity) :
    r'.buffer.length ≤ capacity ∧ rest' ⊆ rest := by
  cases h with
  | signal hsignal => exact ⟨(length_of_signal? hsignal).trans hle, List.Subset.refl _⟩
  | read hsignal =>
    exact ⟨length_fill_le hsignal (hreads _ List.mem_cons_self), List.subset_cons_self _ _⟩
  | fail hsignal => exact ⟨hle, List.subset_cons_self _ _⟩
  | close hsignal => exact ⟨length_fill_le hsignal (Nat.zero_le _), List.Subset.refl _⟩

theorem Visits.length_le (h : Visits input r rest)
    (hinput : ∀ b, .bytes b ∈ input → b.length ≤ readSize) :
    r.buffer.length ≤ capacity ∧ rest ⊆ input := by
  -- What is still to be read goes along, so that the limit of a read holds at every move.
  induction h with
  | start => exact ⟨Nat.zero_le _, List.Subset.refl _⟩
  | move _ hmove ih =>
    obtain ⟨hle, hsubset⟩ := ih
    obtain ⟨hle', hsubset'⟩ := hmove.length_le (fun b hb => hinput b (hsubset hb)) hle
    exact ⟨hle', List.Subset.trans hsubset' hsubset⟩

/-- Whatever arrives, and wherever a reader is inside its calls and between them, its buffer is
bounded. When it reads, the buffer is no longer than a header may be without a terminator, and else
it is less than header, terminator and declared body together. No sum of these lengths needs more
than 64 bits. -/
theorem buffer_bounded {input : List Arrival}
    (hinput : ∀ b, .bytes b ∈ input → b.length ≤ readSize) {r : Reader} {rest : List Arrival}
    (h : Visits input r rest) :
    r.buffer.length ≤
        maxHeaderLength + Frame.terminator.length + maxBodyLength - 1 + readSize ∧
      (r.signal? = none →
        (Bytes.find Frame.terminator r.buffer = none ∧ r.buffer.length ≤ maxHeaderLength) ∨
        ∃ e n, Bytes.find Frame.terminator r.buffer = some e ∧
          Header.contentLength (r.buffer.take e) = .ok n ∧
          r.buffer.length < e + Frame.terminator.length + n) ∧
      (∀ b e n, Frame.Declares b e n → e + Frame.terminator.length + n < 2 ^ 64) ∧
      Visits input (r.next rest).reader (r.next rest).input := by
  refine ⟨(h.length_le hinput).1, ?_, fun b e n hd => hd.end_lt, h.next⟩
  intro hsignal
  obtain ⟨-, hsplit⟩ := split_of_signal?_eq_none hsignal
  rcases Frame.wait_cases hsplit with hnone | ⟨e, n, hd, hlt⟩
  · exact .inl hnone
  · exact .inr ⟨e, n, hd.find, hd.length, hlt⟩

/-- A read fails behind the start of a frame, which stays in the buffer. -/
theorem buffer_bounded_startOfFrame :
    let start := Bytes.ofText "Content-Length: 5\r\n\r\nab"
    let r : Reader := { buffer := start }
    let input := [Arrival.bytes start, .failure "reset"]
    (∀ b, .bytes b ∈ input → b.length ≤ readSize) ∧ Visits input r [] ∧ r.signal? = none ∧
      r.buffer.length ≤ capacity ∧
      ∃ e n, Bytes.find Frame.terminator r.buffer = some e ∧
        Header.contentLength (r.buffer.take e) = .ok n ∧
        r.buffer.length < e + Frame.terminator.length + n := by
  intro start r input
  have hinput : ∀ b, .bytes b ∈ input → b.length ≤ readSize := by
    intro b hb
    simp only [input, List.mem_cons, Arrival.bytes.injEq, reduceCtorEq, List.not_mem_nil,
      or_false] at hb
    rw [hb]
    decide +kernel
  have hsignal : r.signal? = none := by decide +kernel
  have hread : Visits input r [.failure "reset"] := Visits.start.move (.read rfl)
  have hvisits : Visits input r [] := hread.move (.fail hsignal)
  obtain ⟨hle, hwait, -⟩ := buffer_bounded hinput hvisits
  refine ⟨hinput, hvisits, hsignal, hle, ?_⟩
  rcases hwait hsignal with ⟨hnone, -⟩ | hframe
  · exact absurd hnone (by decide +kernel)
  · exact hframe

end Reader

end LanguageServer
