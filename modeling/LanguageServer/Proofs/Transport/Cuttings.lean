import LanguageServer.Proofs.Stream.Packets
import LanguageServer.Proofs.Transport.Slices

namespace LanguageServer

namespace Stream

theorem not_sensitive {s : Bytes} {c : Nat} (h : s.length ≤ maxHeaderLength + 1) :
    ¬ Sensitive s c := by
  intro hc
  obtain ⟨x, d, -, ⟨e, hfind, -, hd, hde⟩, -⟩ := hc
  have hle := Frame.find_terminator_le hfind
  rw [List.length_drop] at hle
  omega

end Stream

namespace Cutting

/-- Two cuttings give the same bodies if they agree on the sensitive places. All cuttings do exactly
if skipping a header that a read may divide makes no difference. Of packets, exactly those are lost
that a read divides. -/
theorem bodies_of_cuttings (s : Bytes) :
    (∀ c c' : Cutting s, (∀ p, Stream.Sensitive s p → (p ∈ c.ends ↔ p ∈ c'.ends)) →
      c.bodies = c'.bodies) ∧
    ((∀ c c' : Cutting s, c.bodies = c'.bodies) ↔ Stream.Indifferent s) ∧
    ∀ packets : List Packet, (∀ p ∈ packets, p.Sound) → s = packets.flatMap Packet.bytes →
      ∀ c : Cutting s, c.bodies = Packet.survivors c.ends packets := by
  refine ⟨?_, ?_, ?_⟩
  · intro c c' hends
    rw [bodies_eq, bodies_eq]
    exact Stream.bodies_congr hends
  · rw [← Stream.forall_bodies_eq_iff]
    constructor
    · intro h ends ends'
      obtain ⟨c, hc⟩ := exists_bodies_eq ends s
      obtain ⟨c', hc'⟩ := exists_bodies_eq ends' s
      rw [← hc, ← hc']
      exact h c c'
    · intro h c c'
      rw [bodies_eq, bodies_eq]
      exact h c.ends c'.ends
  · intro packets hsound hs c
    subst hs
    rw [bodies_eq]
    exact Packet.bodies_flatMap hsound c.ends

/-- Three reads, of which the first takes one byte and the second takes `n`. -/
def three (b : Bytes) (n : Nat)
    (h : 0 < n ∧ n ≤ readSize ∧ n + 1 < b.length ∧ b.length ≤ n + 1 + readSize) : Cutting b where
  reads := [b.take 1, (b.drop 1).take n, (b.drop 1).drop n]
  ne_nil := by
    simp only [List.mem_cons, List.not_mem_nil, or_false, ← List.length_pos_iff]
    intro part hpart
    rcases hpart with rfl | rfl | rfl <;> simp only [List.length_take, List.length_drop] <;> omega
  length_le := by
    have hone : 1 ≤ readSize := by decide
    simp only [List.mem_cons, List.not_mem_nil, or_false]
    intro part hpart
    rcases hpart with rfl | rfl | rfl <;> simp only [List.length_take, List.length_drop] <;> omega
  flatten := by
    simp only [List.flatten_cons, List.flatten_nil, List.append_nil, List.take_append_drop]

theorem ends_three {b : Bytes} {n : Nat}
    (h : 0 < n ∧ n ≤ readSize ∧ n + 1 < b.length ∧ b.length ≤ n + 1 + readSize) :
    (three b n h).ends = [0, 1, n + 1, b.length] := by
  simp only [ends, input, three, List.map_cons, List.map_nil, Arrival.readEnds, List.length_take,
    List.length_drop, List.cons.injEq, and_true, true_and]
  omega

def shortPacket : Packet := .spaced 1 [123, 125]

/-- A packet with a header of 8190 bytes. -/
def longPacket : Packet := .spaced 8174 [123, 125]

theorem length_shortPacket : shortPacket.bytes.length = 23 := by decide +kernel

theorem length_header_longPacket : longPacket.header.length = 8190 :=
  Header.length_ofLength 8174 2

theorem length_longPacket : longPacket.bytes.length = 8196 := by
  rw [Packet.length_bytes, length_header_longPacket]
  rfl

theorem sound_longPacket : longPacket.Sound := by
  apply Packet.sound_spaced ?_ (by decide) (by simp [Bytes.lower])
  rw [show (Packet.spaced 8174 [123, 125]).header.length = 8190 from length_header_longPacket]
  decide

def shortCutting (n : Nat) (h : 0 < n ∧ n < 22) : Cutting shortPacket.bytes :=
  three shortPacket.bytes n (by rw [length_shortPacket, readSize]; omega)

def longCutting (n : Nat) (h : 8190 ≤ n ∧ n ≤ 8192) : Cutting longPacket.bytes :=
  three longPacket.bytes n (by rw [length_longPacket, readSize]; omega)

/-- Where the reads of a short packet end does not matter. The long packet is read if the second
read ends before the last byte but one of its terminator, and lost if it ends behind that. -/
theorem bodies_of_divided_packet :
    (shortCutting 8 (by decide)).bodies = (shortCutting 9 (by decide)).bodies ∧
      (longCutting 8191 (by decide)).bodies = [longPacket.body] ∧
      (longCutting 8192 (by decide)).bodies = [] ∧ ¬ Stream.Indifferent longPacket.bytes := by
  have hterm : Frame.terminator.length = 4 := rfl
  have hlast : longPacket.bytes = [longPacket].flatMap Packet.bytes := (List.append_nil _).symm
  have hsound : ∀ p ∈ [longPacket], p.Sound := by
    intro p hp
    rw [List.mem_singleton.mp hp]
    exact sound_longPacket
  obtain ⟨hshort, -⟩ := bodies_of_cuttings shortPacket.bytes
  obtain ⟨-, hiff, hlong⟩ := bodies_of_cuttings longPacket.bytes
  have hread : (longCutting 8191 (by decide)).bodies = [longPacket.body] := by
    rw [hlong [longPacket] hsound hlast, longCutting, ends_three, length_longPacket]
    simp only [Packet.survivors, Packet.isDivided, length_header_longPacket, hterm]
    rfl
  have hlost : (longCutting 8192 (by decide)).bodies = [] := by
    rw [hlong [longPacket] hsound hlast, longCutting, ends_three, length_longPacket]
    simp only [Packet.survivors, Packet.isDivided, length_header_longPacket, hterm]
    rfl
  refine ⟨?_, hread, hlost, ?_⟩
  · apply hshort
    intro p hp
    refine absurd hp (Stream.not_sensitive ?_)
    rw [length_shortPacket]
    decide
  · intro hindifferent
    have hsame := hiff.mpr hindifferent (longCutting 8191 (by decide))
      (longCutting 8192 (by decide))
    rw [hread, hlost] at hsame
    cases hsame

end Cutting

end LanguageServer
