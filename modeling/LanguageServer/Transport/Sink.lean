import LanguageServer.Transport.Error

namespace LanguageServer

/-- An output that takes a limited number of bytes, or any number, and remembers what it took. -/
structure Sink where
  room : Option Nat := none
  writes : List Bytes := []
  flushes : Nat := 0
  deriving DecidableEq

namespace Sink

/-- Why an output without room refuses a write. -/
def refusal : TransportError := .io "sink closed"

/-- Writes a whole frame and flushes it. A frame that does not fit is written as far as it
goes. -/
def send (s : Sink) (frame : Bytes) : Except TransportError Unit × Sink :=
  match s.room with
  | none => (.ok (), { s with writes := s.writes ++ [frame], flushes := s.flushes + 1 })
  | some n =>
    if frame.length ≤ n then
      (.ok (), ⟨some (n - frame.length), s.writes ++ [frame], s.flushes + 1⟩)
    else if n = 0 then (.error refusal, s)
    else (.error refusal, ⟨some 0, s.writes ++ [frame.take n], s.flushes⟩)

/-- Everything that the output took. -/
def taken (s : Sink) : Bytes := s.writes.flatten

/-- With `n` bytes of room the output takes the first `n` bytes of a frame. -/
theorem taken_send_limited {s : Sink} {n : Nat} (h : s.room = some n) (frame : Bytes) :
    (s.send frame).2.taken = s.taken ++ frame.take n ∧
      ((s.send frame).1 = .ok () ↔ frame.length ≤ n) := by
  unfold send
  rw [h]
  dsimp only
  split
  · rename_i hle
    simp [taken, List.take_of_length_le hle, hle]
  · rename_i hgt
    split
    · rename_i h0
      subst h0
      simp [List.take_zero]
      intro he
      simp [he] at hgt
    · simp [taken]
      omega

end Sink

end LanguageServer
