import LanguageServer.Proofs.Frame.Resync

namespace LanguageServer.Frame

/-- Either a name of the length header comes next or nothing does. -/
def AtName (w : Bytes) : Prop := w = [] ∨ startsName w = true

/-- No name begins behind the first byte. -/
def NoneLater (g : Bytes) : Prop := ∀ i, 1 ≤ i → startsName (g.drop i) = false

/-- Bytes among which no frame can be found: what begins with a name is refused. -/
structure Noise (g : Bytes) : Prop where
  later : NoneLater g
  first : startsName g = true → ∃ error, split g = .error error

variable {g w : Bytes} {e i : Nat}

theorem ne_nil_of_startsName (hw : startsName w = true) : w ≠ [] := by
  intro hnil
  have hlen := ofFirst_startsName.length_le hw
  rw [hnil, length_headerName] at hlen
  exact absurd hlen (by decide)

theorem noneLater_iff :
    NoneLater g ↔ ∀ i < g.length, 1 ≤ i → startsName (g.drop i) = false := by
  constructor
  · intro h i _ hi
    exact h i hi
  · intro h i hi
    rcases Nat.lt_or_ge i g.length with hlt | hge
    · exact h i hlt hi
    · exact startsName_eq_false_of_length_le hge

theorem noneLater_cons {x : UInt8} (h : ∀ y ∈ g, Bytes.lower y ≠ 99) : NoneLater (x :: g) := by
  intro i hi
  obtain ⟨i, rfl⟩ : ∃ j, i = j + 1 := ⟨i - 1, by omega⟩
  rw [List.drop_succ_cons]
  by_contra hname
  have hname' : startsName (g.drop i) = true := by simpa using hname
  obtain ⟨y, rest, hy⟩ := List.exists_cons_of_ne_nil (ne_nil_of_startsName hname')
  have hmem : y ∈ g := List.mem_of_mem_drop (hy ▸ List.mem_cons_self)
  rw [hy] at hname'
  exact h y hmem (startsName_head hname')

theorem noise_iff :
    Noise g ↔ NoneLater g ∧ (startsName g = true → (split g).isOk = false) := by
  have hrefused : (∃ error, split g = .error error) ↔ (split g).isOk = false := by
    cases split g <;> simp [Except.isOk, Except.toBool]
  constructor
  · intro h
    exact ⟨h.later, fun hname => hrefused.mp (h.first hname)⟩
  · intro h
    exact ⟨h.1, fun hname => hrefused.mpr (h.2 hname)⟩

instance : Decidable (NoneLater g) := decidable_of_iff' _ noneLater_iff

instance : Decidable (Noise g) := decidable_of_iff' _ noise_iff

/-- No name begins at the end of something else and goes on in another name, since its first
character occurs in it only once. -/
theorem startsName_append_eq_false (hg : g ≠ []) (h : startsName g = false) (hw : AtName w) :
    startsName (g ++ w) = false := by
  by_contra hname
  have hname' : startsName (g ++ w) = true := by simpa using hname
  have hlong : g.length < headerName.length := by
    by_contra hle
    rw [ofFirst_startsName.of_append hname' (by omega)] at h
    cases h
  rcases hw with rfl | hw
  · rw [List.append_nil, h] at hname'
    cases hname'
  · obtain ⟨x, w, rfl⟩ := List.exists_cons_of_ne_nil (ne_nil_of_startsName hw)
    have hx : headerName[g.length]? = some 99 := by
      rw [← startsName_iff_take.mp hname', List.getElem?_map, List.getElem?_take_of_lt hlong,
        List.getElem?_append_right (Nat.le_refl _), Nat.sub_self, ← startsName_head hw]
      rfl
    have once : ∀ d < 14, 0 < d → headerName[d]? ≠ some 99 := by
      rw [headerName_eq]
      decide
    exact once _ (length_headerName ▸ hlong) (List.length_pos_iff.mpr hg) hx

/-- No terminator reaches into a name. -/
theorem length_le_of_find_terminator_append (h : Bytes.find terminator g = none)
    (hw : AtName w) (he : Bytes.find terminator (g ++ w) = some e) : g.length ≤ e := by
  rcases hw with rfl | hw
  · rw [List.append_nil, h] at he
    cases he
  · by_contra hlt
    have hend := lt_of_find_terminator_append h he
    obtain ⟨-, hprefix, -⟩ := Bytes.findFrom_zero_eq_some_iff.mp he
    obtain ⟨x, w, rfl⟩ := List.exists_cons_of_ne_nil (ne_nil_of_startsName hw)
    have hx : terminator[g.length - e]? = some x := by
      obtain ⟨rest, hrest⟩ := List.isPrefixOf_iff_prefix.mp hprefix
      have hat : (terminator ++ rest)[g.length - e]? = some x := by
        rw [hrest, List.getElem?_drop, show e + (g.length - e) = g.length by omega,
          List.getElem?_append_right (Nat.le_refl _), Nat.sub_self]
        rfl
      rwa [List.getElem?_append_left (by omega)] at hat
    have all : ∀ y ∈ terminator, Bytes.lower y ≠ 99 := by simp [terminator, Bytes.lower]
    exact all x (List.mem_of_getElem? hx) (startsName_head hw)

theorem NoneLater.append (hg : NoneLater g) (hw : AtName w) (hi : 1 ≤ i) (hlt : i < g.length) :
    startsName ((g ++ w).drop i) = false := by
  rw [List.drop_append_of_le_length hlt.le]
  apply startsName_append_eq_false ?_ (hg i hi) hw
  simpa using hlt

/-- A name that begins noise is refused before whatever name follows. -/
theorem Noise.exists_split_append (hg : Noise g) (hname : startsName g = true) (hw : AtName w) :
    ∃ error, split (g ++ w) = .error error := by
  obtain ⟨error, herror⟩ := hg.first hname
  cases hfind : Bytes.find terminator g with
  | some e => exact ⟨error, split_append_of_error herror hfind w⟩
  | none =>
    rw [split_of_find_none hfind] at herror
    split at herror
    · rename_i hlong
      refine ⟨.headerTooLarge, ?_⟩
      cases hmore : Bytes.find terminator (g ++ w) with
      | some e =>
        have := length_le_of_find_terminator_append hfind hw hmore
        exact split_of_length_lt hmore (by omega)
      | none =>
        rw [split_of_find_none hmore, if_pos]
        rw [List.length_append]
        omega
    · cases herror

end LanguageServer.Frame
