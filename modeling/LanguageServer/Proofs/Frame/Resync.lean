import LanguageServer.Proofs.Frame.Split

namespace LanguageServer.Frame

variable {b : Bytes} {j k : Nat}

theorem findAnyCase_headerName (b : Bytes) :
    Bytes.findAnyCase headerName b = Bytes.findFrom startsName 0 b := rfl

theorem startsName_eq_false_of_length_le (h : b.length ≤ k) : startsName (b.drop k) = false := by
  rw [List.drop_eq_nil_of_le h]
  by_contra hne
  have := ofFirst_startsName.length_le (by simpa using hne)
  rw [length_headerName] at this
  simp at this

theorem resync_eq_of_startsName (hk : 1 ≤ k) (h : startsName (b.drop k) = true)
    (hbefore : ∀ j, 1 ≤ j → j < k → startsName (b.drop j) = false) : resync b = k := by
  have hlt : k < b.length := by
    by_contra hle
    rw [startsName_eq_false_of_length_le (by omega)] at h
    cases h
  cases b with
  | nil => simp at hlt
  | cons x rest =>
    have hfind : Bytes.findAnyCase headerName rest = some (k - 1) := by
      rw [findAnyCase_headerName, Bytes.findFrom_zero_eq_some_iff]
      rw [List.length_cons] at hlt
      refine ⟨by omega, ?_, ?_⟩
      · rw [← h, ← List.drop_succ_cons (a := x), Nat.sub_add_cancel hk]
      · intro m hm
        rw [← hbefore (m + 1) (by omega) (by omega), List.drop_succ_cons]
    unfold resync
    dsimp only
    rw [hfind]
    dsimp only
    omega

theorem resync_eq_of_forall (hb : b ≠ [])
    (h : ∀ j, 1 ≤ j → startsName (b.drop j) = false) :
    resync b = max (b.length - (headerName.length - 1)) 1 := by
  cases b with
  | nil => exact absurd rfl hb
  | cons x rest =>
    have hfind : Bytes.findAnyCase headerName rest = none := by
      rw [findAnyCase_headerName, Bytes.findFrom_eq_none_iff]
      intro j _
      rw [← h (j + 1) (by omega), List.drop_succ_cons]
    unfold resync
    dsimp only
    rw [hfind]

theorem resync_cases (hb : b ≠ []) :
    (startsName (b.drop (resync b)) = true ∧
        ∀ j, 1 ≤ j → j < resync b → startsName (b.drop j) = false) ∨
      ((∀ j, 1 ≤ j → startsName (b.drop j) = false) ∧
        resync b = max (b.length - (headerName.length - 1)) 1) := by
  by_cases hname : ∃ k, 1 ≤ k ∧ startsName (b.drop k) = true
  · left
    obtain ⟨hpos, hk⟩ := Nat.find_spec hname
    have hbefore : ∀ j, 1 ≤ j → j < Nat.find hname → startsName (b.drop j) = false := by
      intro j hj hlt
      have := Nat.find_min hname hlt
      simpa [hj] using this
    rw [resync_eq_of_startsName hpos hk hbefore]
    exact ⟨hk, hbefore⟩
  · right
    have hnone : ∀ j, 1 ≤ j → startsName (b.drop j) = false := by
      intro j hj
      by_contra h
      exact hname ⟨j, hj, by simpa using h⟩
    exact ⟨hnone, resync_eq_of_forall hb hnone⟩

/-- Whatever comes after, no name is dropped that begins behind the first byte. -/
theorem startsName_eq_false_of_lt_resync (hj : 1 ≤ j) (h : j < resync b) (more : Bytes) :
    startsName ((b ++ more).drop j) = false := by
  have hle := resync_le b
  have hb : b ≠ [] := by
    intro hnil
    subst hnil
    exact absurd h (Nat.not_lt_zero j)
  -- A place that is dropped leaves room for a whole name, so later bytes decide nothing there.
  have hroom : j + headerName.length ≤ b.length ∧ startsName (b.drop j) = false := by
    rcases resync_cases hb with ⟨hname, hbefore⟩ | ⟨hnone, heq⟩
    · have := ofFirst_startsName.length_le hname
      rw [List.length_drop] at this
      exact ⟨by omega, hbefore j hj h⟩
    · have := ofFirst_startsName.1
      exact ⟨by omega, hnone j hj⟩
  rw [List.drop_append_of_le_length (by omega)]
  by_contra hne
  have := ofFirst_startsName.of_append (by simpa using hne)
    (by rw [List.length_drop]; omega)
  rw [hroom.2] at this
  cases this

theorem resync_le_resync_append (hb : b ≠ []) (more : Bytes) :
    resync b ≤ resync (b ++ more) := by
  have hle := resync_le b
  have hpos : 1 ≤ resync (b ++ more) := resync_pos (by simp [hb])
  by_contra hlt
  have hmore : b ++ more ≠ [] := by simp [hb]
  rcases resync_cases hmore with ⟨hname, -⟩ | ⟨hnone, heq⟩
  · rw [startsName_eq_false_of_lt_resync hpos (by omega)] at hname
    cases hname
  · rcases resync_cases hb with ⟨hname, -⟩ | ⟨-, heq'⟩
    · have := hnone (resync b) (resync_pos hb)
      rw [List.drop_append_of_le_length hle, ofFirst_startsName.append hname more] at this
      cases this
    · rw [List.length_append] at heq
      omega

/-- The name of the length header, in any case, stands at place `i`. -/
def NameAt (b : Bytes) (i : Nat) : Prop :=
  ∃ before name after, b = before ++ name ++ after ∧ before.length = i ∧
    name.map Bytes.lower = headerName

theorem nameAt_iff : NameAt b j ↔ startsName (b.drop j) = true := by
  constructor
  · intro hat
    obtain ⟨before, name, after, rfl, rfl, hname⟩ := hat
    rw [List.append_assoc, List.drop_left, startsName_iff]
    exact ⟨name, after, rfl, hname⟩
  · intro hstart
    have hlt : j < b.length := by
      by_contra hle
      rw [startsName_eq_false_of_length_le (by omega)] at hstart
      cases hstart
    obtain ⟨name, after, hdrop, hname⟩ := startsName_iff.mp hstart
    refine ⟨b.take j, name, after, ?_, List.length_take_of_le hlt.le, hname⟩
    rw [List.append_assoc, ← hdrop, List.take_append_drop]

theorem not_nameAt_iff : ¬ NameAt b j ↔ startsName (b.drop j) = false := by
  rw [nameAt_iff, Bool.not_eq_true]

instance : Decidable (NameAt b j) := decidable_of_iff' _ nameAt_iff

theorem not_nameAt_of_lt_resync (hj : 1 ≤ j) (h : j < resync b) (more : Bytes) :
    ¬ NameAt (b ++ more) j :=
  not_nameAt_iff.mpr (startsName_eq_false_of_lt_resync hj h more)

theorem isLeast_resync (hb : b ≠ []) (hj : 1 ≤ j) (hname : NameAt b j) :
    IsLeast {i | 1 ≤ i ∧ NameAt b i} (resync b) := by
  constructor
  · rcases resync_cases hb with ⟨hat, -⟩ | ⟨hnone, -⟩
    · exact ⟨resync_pos hb, nameAt_iff.mpr hat⟩
    · exact absurd hname (not_nameAt_iff.mpr (hnone j hj))
  · intro i hi
    by_contra hlt
    have hbefore : ¬ NameAt (b ++ []) i := not_nameAt_of_lt_resync hi.1 (by omega) []
    rw [List.append_nil] at hbefore
    exact hbefore hi.2

theorem length_lt_resync_add (hb : b ≠ []) (hnone : ∀ j, 1 ≤ j → ¬ NameAt b j) :
    b.length < resync b + headerName.length := by
  rw [resync_eq_of_forall hb fun j hj => not_nameAt_iff.mp (hnone j hj)]
  have := ofFirst_startsName.1
  omega

/-- What is dropped is a byte at least, and no name behind the first byte begins in it, not even one
that later bytes complete. It ends where the first such name begins. Without one, fewer bytes stay
than a name has. -/
theorem resync_keeps_names (hb : b ≠ []) :
    (1 ≤ resync b ∧ resync b ≤ b.length) ∧
      (∀ more i, 1 ≤ i → i < resync b → ¬ NameAt (b ++ more) i) ∧
      ((∃ i, 1 ≤ i ∧ NameAt b i) → IsLeast {i | 1 ≤ i ∧ NameAt b i} (resync b)) ∧
      ((∀ i, 1 ≤ i → ¬ NameAt b i) → b.length < resync b + headerName.length) := by
  refine ⟨⟨resync_pos hb, resync_le b⟩, ?_, ?_, length_lt_resync_add hb⟩
  · intro more i hi hlt
    exact not_nameAt_of_lt_resync hi hlt more
  · intro hnamed
    obtain ⟨i, hi, hname⟩ := hnamed
    exact isLeast_resync hb hi hname

/-- A read ends inside the name behind a refused header. What has come of the name stays, whatever
comes next, and once the name is whole it is found at the same place. -/
theorem resync_keeps_names_divided :
    let buffer := Bytes.ofText "Content-Length: x\r\n\r\nCONTENT-Lengt"
    let whole := buffer ++ Bytes.ofText "h: 2"
    (buffer ≠ [] ∧ resync buffer = 21 ∧ ∀ more i, 1 ≤ i → i < 21 → ¬ NameAt (buffer ++ more) i) ∧
      whole ≠ [] ∧ IsLeast {i | 1 ≤ i ∧ NameAt whole i} 21 := by
  intro buffer whole
  have hbuffer : buffer ≠ [] := by decide +kernel
  have hwhole : whole ≠ [] := by decide +kernel
  have hdrop : resync buffer = 21 := by decide +kernel
  have hdrop' : resync whole = 21 := by decide +kernel
  obtain ⟨-, hkept, -⟩ := resync_keeps_names hbuffer
  obtain ⟨-, -, hleast, -⟩ := resync_keeps_names hwhole
  rw [hdrop] at hkept
  rw [hdrop'] at hleast
  exact ⟨⟨hbuffer, hdrop, hkept⟩, hwhole, hleast ⟨21, by decide +kernel⟩⟩

end LanguageServer.Frame
