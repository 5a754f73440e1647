import LanguageServer.Proofs.Stream.Noise
import LanguageServer.Proofs.Transport.Bodies

namespace LanguageServer

/-- A body, and the noise before its frame. -/
structure Delivery where
  noise : Bytes
  body : Bytes

namespace Delivery

def bytes (p : Delivery) : Bytes := p.noise ++ Frame.encode p.body

/-- The noise is noise, and the body is one that a header may declare. -/
structure Sound (p : Delivery) : Prop where
  noise : Frame.Noise p.noise
  body : p.body.length ≤ maxBodyLength

theorem bodies_append {p : Delivery} (h : p.Sound) (ends : List Nat) (more : Bytes) :
    Stream.bodies ends (p.bytes ++ more) =
      p.body :: Stream.bodies (Stream.shift p.bytes.length ends) more := by
  rw [bytes, List.append_assoc, List.length_append, ← Stream.shift_shift,
    Stream.bodies_noise_append h.noise (.inr (Frame.startsName_encode p.body more)),
    Stream.bodies_encode_append h.body]

theorem bodies_flatMap {deliveries : List Delivery} {last : Bytes} (h : ∀ p ∈ deliveries, p.Sound)
    (hlast : Frame.Noise last) (ends : List Nat) :
    Stream.bodies ends (deliveries.flatMap bytes ++ last) = deliveries.map body := by
  induction deliveries generalizing ends with
  | nil =>
    rw [List.flatMap_nil, List.nil_append, ← List.append_nil last,
      Stream.bodies_noise_append hlast (.inl rfl)]
    exact Stream.bodies_of_wait rfl
  | cons p deliveries ih =>
    have hp : p.Sound := h p List.mem_cons_self
    have hall : ∀ q ∈ deliveries, q.Sound := fun q hq => h q (List.mem_cons_of_mem p hq)
    rw [List.flatMap_cons, List.append_assoc, bodies_append hp, ih hall]
    rfl

end Delivery

namespace Reader

open Arrival (content Unbroken)

/-- Noise between frames, before them and behind them does not lose a frame and does not make one,
wherever reads end and however often they fail. -/
theorem bodies_of_noise {deliveries : List Delivery} {last : Bytes} {input : List Arrival}
    (hall : ∀ p ∈ deliveries, p.Sound) (hlast : Frame.Noise last) (hinput : Unbroken input)
    (hcontent : content input = deliveries.flatMap Delivery.bytes ++ last) :
    bodies {} input = deliveries.map Delivery.body := by
  rw [bodies_new hinput, hcontent, Delivery.bodies_flatMap hall hlast]

/-- A refused header goes before a frame that arrives in two reads, with a failure between them. -/
theorem bodies_of_refused_header :
    bodies {} [.bytes (Bytes.ofText "Content-Length: x\r\n\r\nContent-L"), .failure "interrupted",
        .bytes (Bytes.ofText "ength: 2\r\n\r\n\x7b\x7d\r\n")] =
      [Bytes.ofText "\x7b\x7d"] := by
  have hall : ∀ p ∈ [Delivery.mk (Bytes.ofText "Content-Length: x\r\n\r\n")
      (Bytes.ofText "\x7b\x7d")], p.Sound := by
    intro p hp
    rw [List.mem_singleton.mp hp]
    exact ⟨by decide +kernel, by decide +kernel⟩
  have hlast : Frame.Noise (Bytes.ofText "\r\n") := by decide +kernel
  refine bodies_of_noise hall hlast ?_ ?_
  · decide +kernel
  · decide +kernel

end Reader

end LanguageServer
