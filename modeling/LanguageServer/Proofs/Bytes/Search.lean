import Mathlib.Tactic
import LanguageServer.Bytes

namespace LanguageServer.Bytes

variable {p : Bytes → Bool} {n i k : Nat} {b : Bytes}

theorem findFrom_eq_some_iff : findFrom p i b = some k ↔
    ∃ j, k = i + j ∧ j < b.length ∧ p (b.drop j) = true ∧ ∀ m < j, p (b.drop m) = false := by
  induction b generalizing i with
  | nil => simp [findFrom]
  | cons c rest ih =>
    unfold findFrom
    by_cases hc : p (c :: rest) = true
    · rw [if_pos hc]
      constructor
      · intro h
        cases h
        exact ⟨0, by omega, by simp, hc, fun m hm => by omega⟩
      · intro hfound
        obtain ⟨j, rfl, -, -, hj⟩ := hfound
        have h0 : j = 0 := by
          by_contra hne
          have := hj 0 (by omega)
          simp [hc] at this
        simp [h0]
    · rw [if_neg hc, ih]
      constructor
      · intro hfound
        obtain ⟨j, rfl, hlt, hp, hj⟩ := hfound
        refine ⟨j + 1, by omega, by simpa using hlt, by simpa using hp, ?_⟩
        intro m hm
        cases m with
        | zero => simpa using hc
        | succ m => simpa using hj m (by omega)
      · intro hfound
        obtain ⟨j, rfl, hlt, hp, hj⟩ := hfound
        cases j with
        | zero => exact absurd (by simpa using hp) hc
        | succ j =>
          exact ⟨j, by omega, by simpa using hlt, by simpa using hp,
            fun m hm => by simpa using hj (m + 1) (by omega)⟩

theorem findFrom_eq_none_iff :
    findFrom p i b = none ↔ ∀ j < b.length, p (b.drop j) = false := by
  induction b generalizing i with
  | nil => simp [findFrom]
  | cons c rest ih =>
    unfold findFrom
    by_cases hc : p (c :: rest) = true
    · rw [if_pos hc]
      constructor
      · intro h
        cases h
      · intro h
        have := h 0 (by simp)
        simp [hc] at this
    · rw [if_neg hc, ih]
      constructor
      · intro h j hj
        cases j with
        | zero => simpa using hc
        | succ j => simpa using h j (by simpa using hj)
      · intro h j hj
        simpa using h (j + 1) (by simpa using hj)

theorem findFrom_zero_eq_some_iff : findFrom p 0 b = some k ↔
    k < b.length ∧ p (b.drop k) = true ∧ ∀ m < k, p (b.drop m) = false := by
  rw [findFrom_eq_some_iff]
  constructor
  · intro hfound
    obtain ⟨j, rfl, h⟩ := hfound
    simpa using h
  · intro h
    exact ⟨k, by omega, h⟩

theorem findFrom_drop (h : findFrom p 0 b = some k) (hi : i ≤ k) :
    findFrom p 0 (b.drop i) = some (k - i) := by
  rw [findFrom_zero_eq_some_iff] at h ⊢
  obtain ⟨hlt, hp, hbefore⟩ := h
  refine ⟨by rw [List.length_drop]; omega, ?_, ?_⟩
  · rw [List.drop_drop, Nat.add_sub_cancel' hi]
    exact hp
  · intro m hm
    rw [List.drop_drop]
    exact hbefore (i + m) (by omega)

theorem findFrom_drop_eq_none (h : findFrom p 0 b = none) :
    findFrom p 0 (b.drop i) = none := by
  rw [findFrom_eq_none_iff] at h ⊢
  intro j hj
  rw [List.length_drop] at hj
  rw [List.drop_drop]
  exact h (i + j) (by omega)

/-- A property that the first `n` bytes decide, and that fewer bytes never have. -/
def OfFirst (n : Nat) (p : Bytes → Bool) : Prop :=
  0 < n ∧ ∀ b, p b = true ↔ n ≤ b.length ∧ p (b.take n) = true

theorem OfFirst.length_le (hp : OfFirst n p) (h : p b = true) : n ≤ b.length :=
  ((hp.2 b).mp h).1

theorem OfFirst.append (hp : OfFirst n p) (h : p b = true) (more : Bytes) :
    p (b ++ more) = true := by
  obtain ⟨hn, ht⟩ := (hp.2 b).mp h
  refine (hp.2 _).mpr ⟨by rw [List.length_append]; omega, ?_⟩
  rw [List.take_append_of_le_length hn]
  exact ht

theorem OfFirst.of_append (hp : OfFirst n p) {more : Bytes} (h : p (b ++ more) = true)
    (hn : n ≤ b.length) : p b = true := by
  have ht := ((hp.2 _).mp h).2
  rw [List.take_append_of_le_length hn] at ht
  exact (hp.2 b).mpr ⟨hn, ht⟩

theorem OfFirst.findFrom_append (hp : OfFirst n p) (h : findFrom p 0 b = some k) (more : Bytes) :
    findFrom p 0 (b ++ more) = some k := by
  rw [findFrom_zero_eq_some_iff] at h ⊢
  obtain ⟨hlt, hk, hbefore⟩ := h
  have hn := hp.length_le hk
  rw [List.length_drop] at hn
  refine ⟨by rw [List.length_append]; omega, ?_, ?_⟩
  · rw [List.drop_append_of_le_length hlt.le]
    exact hp.append hk more
  · intro m hm
    have hfalse := hbefore m hm
    rw [List.drop_append_of_le_length (by omega)]
    by_contra hne
    have htrue := hp.of_append (b := b.drop m) (by simpa using hne)
      (by rw [List.length_drop]; omega)
    simp [hfalse] at htrue

/-- What only more bytes at the end make appear reaches into them. -/
theorem OfFirst.lt_of_findFrom_append (hp : OfFirst n p) (h : findFrom p 0 b = none)
    {more : Bytes} (hk : findFrom p 0 (b ++ more) = some k) : b.length < k + n := by
  rw [findFrom_zero_eq_some_iff] at hk
  obtain ⟨-, hp', -⟩ := hk
  rw [findFrom_eq_none_iff] at h
  by_contra hle
  have hlt : k < b.length := by
    have := hp.1
    omega
  rw [List.drop_append_of_le_length hlt.le] at hp'
  have := hp.of_append hp' (by rw [List.length_drop]; omega)
  simp [h k hlt] at this

theorem ofFirst_isPrefixOf {needle : Bytes} (h : needle ≠ []) :
    OfFirst needle.length needle.isPrefixOf := by
  refine ⟨List.length_pos_iff.mpr h, ?_⟩
  intro b
  rw [List.isPrefixOf_iff_prefix, List.isPrefixOf_iff_prefix]
  constructor
  · intro h
    exact ⟨h.length_le, List.prefix_take_iff.mpr ⟨h, Nat.le_refl _⟩⟩
  · intro h
    exact h.2.trans (List.take_prefix _ _)

end LanguageServer.Bytes
