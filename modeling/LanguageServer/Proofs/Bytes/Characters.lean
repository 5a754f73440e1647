import Mathlib.Tactic
import LanguageServer.Bytes

namespace LanguageServer.Bytes

def ofChars (cs : List Char) : Bytes := cs.flatMap String.utf8EncodeChar

theorem ofChars_append (cs ds : List Char) : ofChars (cs ++ ds) = ofChars cs ++ ofChars ds := by
  simp [ofChars]

theorem ofChars_cons (c : Char) (cs : List Char) :
    ofChars (c :: cs) = String.utf8EncodeChar c ++ ofChars cs := rfl

theorem length_le_ofChars (cs : List Char) : cs.length ≤ (ofChars cs).length := by
  induction cs with
  | nil => exact Nat.le_refl 0
  | cons c cs ih =>
    have := List.length_pos_iff.mpr (String.utf8EncodeChar_ne_nil (c := c))
    rw [ofChars_cons, List.length_append, List.length_cons]
    omega

theorem ofText_ofList (cs : List Char) : ofText (String.ofList cs) = ofChars cs := by
  simp [ofText, ofChars, String.ofList, List.utf8Encode]

theorem ofText_eq_ofChars (s : String) : ofText s = ofChars s.toList := by
  rw [← ofText_ofList, String.ofList_toList]

theorem toText?_eq_some_iff_ofChars {b : Bytes} {s : String} :
    toText? b = some s ↔ b = ofChars s.toList := by
  rw [toText?_eq_some_iff, ofText_eq_ofChars]

theorem toText?_ofChars (cs : List Char) : toText? (ofChars cs) = some (String.ofList cs) := by
  rw [← ofText_ofList, toText?_ofText]

theorem ofChars_injective {cs ds : List Char} (h : ofChars cs = ofChars ds) : cs = ds := by
  have hs := toText?_ofChars cs
  rw [h, toText?_ofChars ds] at hs
  have := congrArg String.toList (Option.some.inj hs)
  simpa using this.symm

/-- An ASCII character is one byte, and no other character has a byte of ASCII. -/
theorem utf8EncodeChar_cases (c : Char) :
    (c.toNat < 128 ∧ String.utf8EncodeChar c = [UInt8.ofNat c.toNat]) ∨
      (128 ≤ c.toNat ∧ ∀ x ∈ String.utf8EncodeChar c, 128 ≤ x) := by
  have hv : c.val.toNat = c.toNat := rfl
  fun_cases String.utf8EncodeChar c with
  | case1 v h =>
    left
    exact ⟨by omega, rfl⟩
  | case2 v h h' =>
    right
    refine ⟨by omega, ?_⟩
    intro x hx
    simp only [List.mem_cons, List.not_mem_nil, or_false] at hx
    rcases hx with rfl | rfl <;>
      simp only [UInt8.le_iff_toNat_le, UInt8.toNat_ofNat', UInt8.reduceToNat] <;> omega
  | case3 v h h' h'' =>
    right
    refine ⟨by omega, ?_⟩
    intro x hx
    simp only [List.mem_cons, List.not_mem_nil, or_false] at hx
    rcases hx with rfl | rfl | rfl <;>
      simp only [UInt8.le_iff_toNat_le, UInt8.toNat_ofNat', UInt8.reduceToNat] <;> omega
  | case4 v h h' h'' =>
    right
    refine ⟨by omega, ?_⟩
    intro x hx
    simp only [List.mem_cons, List.not_mem_nil, or_false] at hx
    rcases hx with rfl | rfl | rfl | rfl <;>
      simp only [UInt8.le_iff_toNat_le, UInt8.toNat_ofNat', UInt8.reduceToNat] <;> omega

theorem toNat_lt_of_ofChars {cs : List Char} (h : ∀ x ∈ ofChars cs, x < 128) :
    ∀ c ∈ cs, c.toNat < 128 := by
  intro c hc
  rcases utf8EncodeChar_cases c with ⟨hlt, -⟩ | ⟨-, hbig⟩
  · exact hlt
  · obtain ⟨x, hx⟩ := List.exists_mem_of_ne_nil _ (String.utf8EncodeChar_ne_nil (c := c))
    have := h x (List.mem_flatMap.mpr ⟨c, hc, hx⟩)
    exact absurd this (UInt8.not_lt.mpr (hbig x hx))

/-- A text can be cut before a byte of ASCII. -/
theorem exists_cut_of_ascii {cs : List Char} {x : UInt8} {before after : Bytes} (hx : x < 128)
    (h : ofChars cs = before ++ x :: after) :
    ∃ as c ds, cs = as ++ c :: ds ∧ ofChars as = before ∧
      String.utf8EncodeChar c = [x] ∧ ofChars ds = after := by
  induction cs generalizing before with
  | nil => simp [ofChars] at h
  | cons c cs ih =>
    rw [ofChars_cons] at h
    rcases List.append_eq_append_iff.mp h with ⟨more, rfl, hmore⟩ | ⟨more, hc, hmore⟩
    · obtain ⟨as, d, ds, rfl, rfl, hd, hds⟩ := ih hmore
      exact ⟨c :: as, d, ds, rfl, rfl, hd, hds⟩
    · cases more with
      | nil =>
        have hrest : ofChars cs = [] ++ x :: after := hmore.symm
        obtain ⟨as, d, ds, rfl, has, hd, hds⟩ := ih hrest
        refine ⟨c :: as, d, ds, rfl, ?_, hd, hds⟩
        rw [ofChars_cons, has, hc, List.append_nil, List.append_nil]
      | cons y more =>
        obtain ⟨rfl, hafter⟩ := List.cons.inj hmore
        rcases utf8EncodeChar_cases c with ⟨-, hone⟩ | ⟨-, hbig⟩
        · have hlen := congrArg List.length hc
          rw [hone, List.length_append] at hlen
          simp only [List.length_cons, List.length_nil] at hlen
          have hbefore : before = [] := List.eq_nil_of_length_eq_zero (by omega)
          have hmore' : more = [] := List.eq_nil_of_length_eq_zero (by omega)
          subst hbefore hmore'
          exact ⟨[], c, cs, rfl, rfl, hc, hafter.symm⟩
        · have := hbig x (by rw [hc]; simp)
          exact absurd hx (UInt8.not_lt.mpr this)

/-- Bytes of ASCII at the start of a text are characters at its start. -/
theorem exists_append_of_ascii {cs : List Char} {b after : Bytes} (hb : ∀ x ∈ b, x < 128)
    (h : ofChars cs = b ++ after) :
    ∃ as ds, cs = as ++ ds ∧ ofChars as = b ∧ ofChars ds = after := by
  induction b generalizing cs with
  | nil => exact ⟨[], cs, rfl, rfl, h⟩
  | cons x b ih =>
    have hcut : ofChars cs = [] ++ x :: (b ++ after) := h
    obtain ⟨as, c, ds, rfl, has, hc, hds⟩ := exists_cut_of_ascii (hb x (by simp)) hcut
    obtain ⟨es, fs, rfl, hes, hfs⟩ := ih (fun y hy => hb y (by simp [hy])) hds
    refine ⟨as ++ c :: es, fs, by simp, ?_, hfs⟩
    rw [ofChars_append, has, ofChars_cons, hc, hes]
    rfl

theorem lower_ofNat {c : Char} (h : c.toNat < 128) :
    lower (UInt8.ofNat c.toNat) = UInt8.ofNat c.toLower.toNat ∧ c.toLower.toNat < 128 := by
  have all : ∀ n < 128, lower (UInt8.ofNat n) = UInt8.ofNat (Char.ofNat n).toLower.toNat ∧
      (Char.ofNat n).toLower.toNat < 128 := by decide
  have := all c.toNat h
  rwa [Char.ofNat_toNat] at this

theorem toNat_lt_of_toLower {c : Char} (h : c.toLower.toNat < 128) : c.toNat < 128 := by
  have hv : c.val.toNat = c.toNat := rfl
  unfold Char.toLower at h
  split at h
  · rename_i hc
    have := UInt32.le_iff_toNat_le.mp hc.2
    simp at this
    omega
  · exact h

theorem ofChars_eq_map {cs : List Char} (h : ∀ c ∈ cs, c.toNat < 128) :
    ofChars cs = cs.map fun c => UInt8.ofNat c.toNat := by
  induction cs with
  | nil => rfl
  | cons c cs ih =>
    have hc := h c (by simp)
    have one : String.utf8EncodeChar c = [UInt8.ofNat c.toNat] := by
      rcases utf8EncodeChar_cases c with ⟨-, hone⟩ | ⟨hbig, -⟩
      · exact hone
      · omega
    rw [ofChars_cons, one, ih fun d hd => h d (by simp [hd])]
    rfl

theorem map_lower_ofChars {cs : List Char} (h : ∀ c ∈ cs, c.toNat < 128) :
    (ofChars cs).map lower = ofChars (cs.map Char.toLower) := by
  have hlower : ∀ c ∈ cs.map Char.toLower, c.toNat < 128 := by
    intro c hc
    obtain ⟨d, hd, rfl⟩ := List.mem_map.mp hc
    exact (lower_ofNat (h d hd)).2
  rw [ofChars_eq_map h, ofChars_eq_map hlower, List.map_map, List.map_map]
  apply List.map_congr_left
  intro c hc
  exact (lower_ofNat (h c hc)).1

end LanguageServer.Bytes
