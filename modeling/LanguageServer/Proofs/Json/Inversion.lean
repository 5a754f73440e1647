import Mathlib.Data.List.DropRight
import LanguageServer.Proofs.Json.Value

namespace LanguageServer.Json

/-- The first byte of a text of the value. -/
def Value.Begins : Value → UInt8 → Prop
  | .null, c => c = 110
  | .bool b, c => c = if b then 116 else 102
  | .number _, c => c = 45 ∨ Bytes.isDigit c = true
  | .text _, c => c = 34
  | .list _, c => c = 91
  | .object _, c => c = 123

namespace Scan

variable {α : Type} {s r t : Bytes} {v : Value} {d : Nat} {first : Bool}

theorem skipBlank_skipBlank (s : Bytes) : skipBlank (skipBlank s) = skipBlank s :=
  List.dropWhile_idempotent _ s

theorem run_value_skipBlank (d : Nat) (s : Bytes) :
    (value d).run (skipBlank s) = (value d).run s := by
  obtain ⟨inner, hinner⟩ := exists_run_value d
  rw [hinner, valueWith, valueWith, skipBlank_skipBlank]

theorem begins_of_scalar {c : UInt8} (h : scalar (c :: s) = .ok (v, r)) : v.Begins c := by
  have lit {bs : Bytes} {w : Value} (hw : (literal bs s).map (w, ·) = .ok (v, r)) : w = v := by
    cases hl : literal bs s with
    | error f =>
      rw [hl] at hw
      cases hw
    | ok q =>
      rw [hl] at hw
      cases hw
      rfl
  rw [scalar] at h
  split at h
  · rename_i hc
    rw [← lit h]
    exact hc
  · split at h
    · rename_i hc
      rw [← lit h]
      exact hc
    · split at h
      · rename_i hc
        rw [← lit h]
        exact hc
      · split at h
        · rename_i hc
          obtain ⟨n, -, rfl⟩ := of_map_eq_ok h
          exact .inl hc
        · split at h
          · rename_i hc
            obtain ⟨n, -, rfl⟩ := of_map_eq_ok h
            exact .inr hc
          · split at h
            · rename_i hc
              obtain ⟨x, -, rfl⟩ := of_map_eq_ok h
              exact hc
            · cases h

/-- What is read shows in the first byte that is not blank. -/
theorem exists_begins (h : (value d).run s = .ok (v, r)) :
    ∃ c rest, skipBlank s = c :: rest ∧ v.Begins c := by
  obtain ⟨inner, hinner⟩ := exists_run_value d
  rw [hinner] at h
  unfold valueWith at h
  split at h
  · cases h
  · rename_i c rest hc
    refine ⟨c, rest, hc, ?_⟩
    split at h
    · rename_i h91
      split at h
      · cases h
      · obtain ⟨vs, -, rfl⟩ := of_map_eq_ok h
        exact h91
    · split at h
      · rename_i h123
        split at h
        · cases h
        · obtain ⟨ms, -, rfl⟩ := of_map_eq_ok h
          exact h123
      · exact begins_of_scalar h

theorem run_value_of_skipBlank {c : UInt8} {rest : Bytes} (hs : skipBlank s = c :: rest)
    (hlist : c ≠ 91) (hobject : c ≠ 123) : (value d).run s = scalar (c :: rest) := by
  obtain ⟨inner, hinner⟩ := exists_run_value d
  rw [hinner, valueWith, hs]
  dsimp only
  rw [if_neg hlist, if_neg hobject]

theorem map_eq_ok_iff {α β : Type} {f : α → β} (hf : Function.Injective f) {x : Scan α} {a : α} :
    x.map f = .ok (f a, r) ↔ x = .ok (a, r) := by
  constructor
  · intro h
    obtain ⟨b, hb, heq⟩ := of_map_eq_ok h
    rw [hb, hf heq]
  · intro h
    subst h
    rfl

theorem inList_eq_ok_iff {x : Scan α} {a : α} :
    inList x = .ok (a, r) ↔ ∃ s, x = .ok (a, s) ∧ endList s = .ok r := by
  constructor
  · exact of_enclosed_eq_ok
  · intro h
    obtain ⟨s, rfl, hs⟩ := h
    simp only [inList, enclosed, hs]

theorem endList_eq_ok_iff : endList s = .ok r ↔ skipBlank s = 93 :: r := by
  constructor
  · intro h
    unfold endList at h
    split at h
    · cases h
    · rename_i c rest hs
      split at h
      · rename_i hc
        cases h
        rw [hs, hc]
      · split at h
        · split at h
          · cases h
          · split at h <;> cases h
        · cases h
  · intro hs
    rw [endList, hs]
    rfl

theorem nextItem_eq_none_iff : nextItem first s = .ok none ↔ ∃ r, skipBlank s = 93 :: r := by
  constructor
  · intro h
    unfold nextItem at h
    split at h
    · cases h
    · rename_i c rest hs
      split at h
      · rename_i hc
        exact ⟨rest, by rw [hs, hc]⟩
      · split at h
        · cases h
        · split at h
          · split at h
            · cases h
            · split at h <;> cases h
          · cases h
  · intro h
    obtain ⟨r, hs⟩ := h
    rw [nextItem, hs]
    rfl

section Items

variable {item : Scanner α} {done as : List α} {t : Bytes} {f : Fault}

theorem items_of_nextItem_error (h : nextItem first s = .error f) :
    items item first done s = .error f := by
  rw [items]
  split <;> simp_all

theorem items_of_item_error (h : nextItem first s = .ok (some t)) (ht : item.run t = .error f) :
    items item first done s = .error f := by
  rw [items]
  split
  · simp_all
  · simp_all
  · rename_i t' h'
    rw [h] at h'
    cases h'
    split <;> simp_all

/-- What lies before an item does not matter to it. -/
theorem items_eq (item : Scanner α) (first : Bool) (done : List α) (s : Bytes) :
    items item first done s = (items item first [] s).map (done.reverse ++ ·) := by
  cases hnext : nextItem first s with
  | error f =>
    rw [items_of_nextItem_error hnext, items_of_nextItem_error hnext]
    rfl
  | ok next =>
    cases next with
    | none =>
      rw [items_of_none hnext, items_of_none hnext, map, List.reverse_nil, List.append_nil]
    | some t =>
      cases ha : item.run t with
      | error f =>
        rw [items_of_item_error hnext ha, items_of_item_error hnext ha]
        rfl
      | ok p =>
        obtain ⟨a, u⟩ := p
        rw [items_of_some hnext ha, items_of_some hnext ha, items_eq item false (a :: done) u,
          items_eq item false [a] u]
        cases items item false [] u <;> simp [map]
termination_by s.length
decreasing_by
  all_goals
    have := length_nextItem_le hnext
    have := item.shrinks ha
    omega

/-- A list ends, or goes on with an item. -/
theorem inList_items_eq_ok_iff :
    inList (items item first [] s) = .ok (as, r) ↔ (as = [] ∧ skipBlank s = 93 :: r) ∨
      ∃ t a u more, nextItem first s = .ok (some t) ∧ item.run t = .ok (a, u) ∧
        inList (items item false [] u) = .ok (more, r) ∧ as = a :: more := by
  constructor
  · intro h
    obtain ⟨q, hq, hend⟩ := inList_eq_ok_iff.mp h
    cases hnext : nextItem first s with
    | error f =>
      rw [items_of_nextItem_error hnext] at hq
      cases hq
    | ok next =>
      cases next with
      | none =>
        rw [items_of_none hnext] at hq
        cases hq
        rw [endList_eq_ok_iff, skipBlank_skipBlank] at hend
        exact .inl ⟨rfl, hend⟩
      | some t =>
        cases ha : item.run t with
        | error f =>
          rw [items_of_item_error hnext ha] at hq
          cases hq
        | ok p =>
          obtain ⟨a, u⟩ := p
          rw [items_of_some hnext ha, items_eq] at hq
          obtain ⟨more, hmore, rfl⟩ := of_map_eq_ok hq
          exact .inr ⟨t, a, u, more, rfl, ha, inList_eq_ok_iff.mpr ⟨q, hmore, hend⟩, rfl⟩
  · intro h
    rcases h with ⟨rfl, hs⟩ | ⟨t, a, u, more, hnext, ha, hmore, rfl⟩
    · rw [items_of_none (nextItem_eq_none_iff.mpr ⟨r, hs⟩), hs]
      rfl
    · obtain ⟨q, hq, hend⟩ := inList_eq_ok_iff.mp hmore
      rw [items_of_some hnext ha, items_eq, hq]
      exact inList_eq_ok_iff.mpr ⟨q, rfl, hend⟩

end Items

/-- A list of which each item is read as `keep` says. -/
def Lists (d : Nat) (first : Bool) (t r : Bytes) (keep : List Value → Prop) : Prop :=
  ∃ vs, inList (items (value d) first [] t) = .ok (vs, r) ∧ keep vs

theorem lists_iff {first : Bool} {t r : Bytes} {keep : List Value → Prop} :
    Lists d first t r keep ↔ (skipBlank t = 93 :: r ∧ keep []) ∨
      ∃ s v u, nextItem first t = .ok (some s) ∧ (value d).run s = .ok (v, u) ∧
        Lists d false u r fun vs => keep (v :: vs) := by
  unfold Lists
  constructor
  · intro h
    obtain ⟨vs, hvs, hkeep⟩ := h
    rcases inList_items_eq_ok_iff.mp hvs with ⟨rfl, hs⟩ | ⟨s, v, u, more, hnext, hv, hmore, rfl⟩
    · exact .inl ⟨hs, hkeep⟩
    · exact .inr ⟨s, v, u, hnext, hv, more, hmore, hkeep⟩
  · intro h
    rcases h with ⟨hs, hkeep⟩ | ⟨s, v, u, hnext, hv, more, hmore, hkeep⟩
    · exact ⟨[], inList_items_eq_ok_iff.mpr (.inl ⟨rfl, hs⟩), hkeep⟩
    · exact ⟨v :: more, inList_items_eq_ok_iff.mpr (.inr ⟨s, v, u, more, hnext, hv, hmore, rfl⟩),
        hkeep⟩

end Scan

end LanguageServer.Json
