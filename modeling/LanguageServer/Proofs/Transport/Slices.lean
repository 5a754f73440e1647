import LanguageServer.Proofs.Stream.Indifferent
import LanguageServer.Proofs.Transport.Bodies

namespace LanguageServer

open Arrival (content readEnds Unbroken)

/-- Reads that take in a stream, each of them something and none more than a read can take. -/
structure Cutting (s : Bytes) where
  reads : List Bytes
  ne_nil : ∀ b ∈ reads, b ≠ []
  length_le : ∀ b ∈ reads, b.length ≤ readSize
  flatten : reads.flatten = s

namespace Cutting

variable {s : Bytes}

def input (c : Cutting s) : List Arrival := c.reads.map .bytes

def ends (c : Cutting s) : List Nat := readEnds 0 c.input

def bodies (c : Cutting s) : List Bytes := Reader.bodies {} c.input

theorem content_map (reads : List Bytes) : content (reads.map .bytes) = reads.flatten := by
  induction reads with
  | nil => rfl
  | cons b reads ih => rw [List.map_cons, content, ih, List.flatten_cons]

theorem unbroken (c : Cutting s) : Unbroken c.input := by
  intro hmem
  obtain ⟨b, hb, hnil⟩ := List.mem_map.mp hmem
  cases hnil
  exact c.ne_nil [] hb rfl

theorem bodies_eq (c : Cutting s) : c.bodies = Stream.bodies c.ends s := by
  rw [bodies, Reader.bodies_new c.unbroken, input, content_map, c.flatten]
  rfl

end Cutting

/-- The bytes from place `n` on, in parts that end where `cut` says so. -/
def slices (cut : Nat → Prop) [DecidablePred cut] : Nat → Bytes → List Bytes
  | _, [] => []
  | n, b :: rest =>
    match slices cut (n + 1) rest with
    | [] => [[b]]
    | part :: parts => if cut (n + 1) then [b] :: part :: parts else (b :: part) :: parts

section Slices

variable {cut : Nat → Prop} [DecidablePred cut] {n m : Nat} {b : UInt8} {s part : Bytes}
  {parts : List Bytes}

variable (cut) in
/-- The first byte is a part of its own, or belongs to the first part of the rest. -/
theorem slices_cons_cases (n : Nat) (b : UInt8) (s : Bytes) :
    (s = [] ∧ slices cut n (b :: s) = [[b]]) ∨
      ∃ part parts, slices cut (n + 1) s = part :: parts ∧
        ((cut (n + 1) ∧ slices cut n (b :: s) = [b] :: part :: parts) ∨
          (¬ cut (n + 1) ∧ slices cut n (b :: s) = (b :: part) :: parts)) := by
  rw [slices]
  cases h : slices cut (n + 1) s with
  | nil =>
    refine .inl ⟨?_, rfl⟩
    cases s with
    | nil => rfl
    | cons b s =>
      rw [slices] at h
      split at h
      · cases h
      · split at h <;> cases h
  | cons part parts =>
    refine .inr ⟨part, parts, rfl, ?_⟩
    by_cases hcut : cut (n + 1)
    · exact .inl ⟨hcut, if_pos hcut⟩
    · exact .inr ⟨hcut, if_neg hcut⟩

theorem flatten_slices (n : Nat) (s : Bytes) : (slices cut n s).flatten = s := by
  induction s generalizing n with
  | nil => rfl
  | cons b s ih =>
    have hs := ih (n + 1)
    rcases slices_cons_cases cut n b s with
      ⟨rfl, heq⟩ | ⟨part, parts, hrest, ⟨-, heq⟩ | ⟨-, heq⟩⟩
    · rw [heq]
      rfl
    · rw [hrest] at hs
      rw [heq, List.flatten_cons, hs]
      rfl
    · rw [hrest] at hs
      rw [heq, ← hs]
      rfl

theorem ne_nil_of_mem_slices (h : part ∈ slices cut n s) : part ≠ [] := by
  induction s generalizing n part with
  | nil => cases h
  | cons b s ih =>
    rcases slices_cons_cases cut n b s with
      ⟨rfl, heq⟩ | ⟨first, parts, hrest, ⟨-, heq⟩ | ⟨-, heq⟩⟩
    · rw [heq, List.mem_singleton] at h
      simp [h]
    · rw [heq, ← hrest] at h
      rcases List.mem_cons.mp h with rfl | hmem
      · simp
      · exact ih hmem
    · rw [heq] at h
      rcases List.mem_cons.mp h with rfl | hmem
      · simp
      · exact ih (hrest ▸ List.mem_cons_of_mem _ hmem)

/-- The first part ends at the next cut, if not before. -/
theorem length_head_slices_le (h : slices cut n s = part :: parts) (hlt : n < m) (hm : cut m) :
    part.length ≤ m - n := by
  induction s generalizing n part parts with
  | nil => cases h
  | cons b s ih =>
    rcases slices_cons_cases cut n b s with
      ⟨rfl, heq⟩ | ⟨first, rest, hrest, ⟨-, heq⟩ | ⟨hcut, heq⟩⟩
    · cases heq.symm.trans h
      rw [List.length_singleton]
      omega
    · cases heq.symm.trans h
      rw [List.length_singleton]
      omega
    · cases heq.symm.trans h
      have hne : m ≠ n + 1 := by
        intro hnext
        exact hcut (hnext ▸ hm)
      have := ih hrest (by omega)
      rw [List.length_cons]
      omega

/-- If there is a cut every `m` places, no part is longer. -/
theorem length_le_of_mem_slices (hcuts : ∀ n, ∃ k, n < k ∧ k ≤ n + m ∧ cut k)
    (h : part ∈ slices cut n s) : part.length ≤ m := by
  have hhead : ∀ {n first rest s}, slices cut n s = first :: rest → first.length ≤ m := by
    intro n first rest s hs
    obtain ⟨k, hlt, hle, hk⟩ := hcuts n
    have := length_head_slices_le hs hlt hk
    omega
  induction s generalizing n part with
  | nil => cases h
  | cons b s ih =>
    rcases slices_cons_cases cut n b s with
      ⟨rfl, heq⟩ | ⟨first, parts, hrest, ⟨-, heq⟩ | ⟨-, heq⟩⟩
    · rw [heq, List.mem_singleton] at h
      rw [h]
      exact hhead heq
    · rw [heq, ← hrest] at h
      rcases List.mem_cons.mp h with rfl | hmem
      · exact hhead heq
      · exact ih hmem
    · rw [heq] at h
      rcases List.mem_cons.mp h with rfl | hmem
      · exact hhead heq
      · exact ih (hrest ▸ List.mem_cons_of_mem _ hmem)

/-- Between the first place and the last the reads end where the cuts are. -/
theorem mem_readEnds_slices {c : Nat} (hn : n < c) (hc : c < n + s.length) :
    c ∈ readEnds n ((slices cut n s).map .bytes) ↔ cut c := by
  induction s generalizing n with
  | nil => exact absurd hc (by simp; omega)
  | cons b s ih =>
    rw [List.length_cons] at hc
    rcases slices_cons_cases cut n b s with
      ⟨rfl, heq⟩ | ⟨part, parts, hrest, ⟨hcut, heq⟩ | ⟨hcut, heq⟩⟩
    · rw [List.length_nil] at hc
      omega
    · rw [heq, List.map_cons, readEnds, List.length_singleton, ← hrest, List.mem_cons,
        or_iff_right (by omega)]
      rcases Nat.eq_or_lt_of_le hn with rfl | hlt
      · exact iff_of_true (Arrival.self_mem_readEnds _ _) hcut
      · exact ih hlt (by omega)
    · have hpart : part ≠ [] := ne_nil_of_mem_slices (hrest ▸ List.mem_cons_self)
      have hlen := List.length_pos_iff.mpr hpart
      rw [heq, List.map_cons, readEnds, List.length_cons, List.mem_cons, or_iff_right (by omega),
        show n + (part.length + 1) = n + 1 + part.length by omega]
      rcases Nat.eq_or_lt_of_le hn with rfl | hlt
      · refine iff_of_false (fun hmem => ?_) hcut
        have := Arrival.le_of_mem_readEnds hmem
        omega
      · have := ih hlt (by omega)
        rwa [hrest, List.map_cons, readEnds, List.mem_cons, or_iff_right (by omega)] at this

end Slices

namespace Cutting

open Classical in
/-- Whatever places the bodies may depend on, there are reads that end just there. -/
theorem exists_bodies_eq (ends : List Nat) (s : Bytes) :
    ∃ c : Cutting s, c.bodies = Stream.bodies ends s := by
  -- The reads may end at any other place, where it does not matter.
  let cut : Nat → Prop := fun p => p ∈ ends ∨ ¬ Stream.Sensitive s p
  have hcuts : ∀ n, ∃ k, n < k ∧ k ≤ n + 4 ∧ cut k := by
    intro n
    by_cases hn : Stream.Sensitive s (n + 1)
    · exact ⟨n + 1 + 3, by omega, by omega, .inr hn.not_add_three⟩
    · exact ⟨n + 1, by omega, by omega, .inr hn⟩
  let c : Cutting s := {
    reads := slices cut 0 s
    ne_nil := fun _ hb => ne_nil_of_mem_slices hb
    length_le := fun _ hb => (length_le_of_mem_slices hcuts hb).trans (by decide)
    flatten := flatten_slices 0 s }
  refine ⟨c, ?_⟩
  rw [bodies_eq]
  apply Stream.bodies_congr
  intro p hp
  obtain ⟨hpos, hlt⟩ := hp.lt
  rw [show p ∈ c.ends ↔ cut p from mem_readEnds_slices hpos (by omega)]
  exact ⟨fun h => h.resolve_right (not_not_intro hp), .inl⟩

end Cutting

end LanguageServer
