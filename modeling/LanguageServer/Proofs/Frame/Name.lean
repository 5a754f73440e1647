import LanguageServer.Proofs.Frame.Declared

namespace LanguageServer.Frame

open Header (contentLength)

theorem headerName_eq : headerName =
    [99, 111, 110, 116, 101, 110, 116, 45, 108, 101, 110, 103, 116, 104] := by decide +kernel

theorem length_headerName : headerName.length = 14 := by
  rw [headerName_eq]
  rfl

theorem ofChars_lengthName : Bytes.ofChars Header.lengthName = headerName := by
  rw [Header.lengthName_eq, headerName_eq]
  decide

/-- Whether the name of the length header stands at the start, in any case. -/
def startsName (b : Bytes) : Bool :=
  headerName.isPrefixOf ((b.take headerName.length).map Bytes.lower)

theorem startsName_iff_take {b : Bytes} :
    startsName b = true ↔ (b.take headerName.length).map Bytes.lower = headerName := by
  unfold startsName
  rw [List.isPrefixOf_iff_prefix]
  constructor
  · intro h
    refine (h.eq_of_length_le ?_).symm
    rw [List.length_map, List.length_take]
    exact Nat.min_le_left _ _
  · intro h
    rw [h]

theorem startsName_iff {b : Bytes} : startsName b = true ↔
    ∃ name rest, b = name ++ rest ∧ name.map Bytes.lower = headerName := by
  rw [startsName_iff_take]
  constructor
  · intro h
    exact ⟨_, _, (List.take_append_drop _ _).symm, h⟩
  · intro hnamed
    obtain ⟨name, rest, rfl, h⟩ := hnamed
    have hlen : headerName.length = name.length := by rw [← h, List.length_map]
    rw [hlen, List.take_left', h]
    rfl

theorem ofFirst_startsName : Bytes.OfFirst headerName.length startsName := by
  refine ⟨by rw [length_headerName]; decide, ?_⟩
  intro b
  rw [startsName_iff_take, startsName_iff_take, List.take_take, Nat.min_self]
  constructor
  · intro h
    have := congrArg List.length h
    rw [List.length_map, List.length_take] at this
    exact ⟨by omega, h⟩
  · exact fun h => h.2

theorem startsName_head {x : UInt8} {b : Bytes} (h : startsName (x :: b) = true) :
    Bytes.lower x = 99 := by
  obtain ⟨name, rest, heq, hname⟩ := startsName_iff.mp h
  cases name with
  | nil => simp [headerName_eq] at hname
  | cons y name =>
    rw [headerName_eq, List.map_cons] at hname
    rw [(List.cons.inj heq).1]
    exact (List.cons.inj hname).1

theorem lt_of_lower_lt {x : UInt8} (h : Bytes.lower x < 128) : x < 128 := by
  unfold Bytes.lower at h
  split at h
  · rename_i hx
    have hx' := UInt8.le_iff_toNat_le.mp hx.2
    rw [UInt8.lt_iff_toNat_lt]
    simp only [UInt8.reduceToNat] at hx' ⊢
    omega
  · exact h

theorem startsName_ofChars {cs : List Char} :
    startsName (Bytes.ofChars cs) = true ↔ Header.Named cs := by
  rw [startsName_iff]
  constructor
  · intro hnamed
    obtain ⟨name, rest, hcs, hname⟩ := hnamed
    have hascii : ∀ x ∈ name, x < 128 := by
      intro x hx
      have hmem : Bytes.lower x ∈ headerName := hname ▸ List.mem_map_of_mem hx
      have all : ∀ y ∈ headerName, y < 128 := by simp [headerName_eq]
      exact lt_of_lower_lt (all _ hmem)
    obtain ⟨as, ds, rfl, has, -⟩ := Bytes.exists_append_of_ascii hascii hcs
    refine ⟨as, ds, rfl, Bytes.ofChars_injective ?_⟩
    rw [ofChars_lengthName, ← hname, ← has, Bytes.map_lower_ofChars]
    exact Bytes.toNat_lt_of_ofChars (has ▸ hascii)
  · intro hnamed
    obtain ⟨name, rest, rfl, hname⟩ := hnamed
    refine ⟨Bytes.ofChars name, Bytes.ofChars rest, Bytes.ofChars_append _ _, ?_⟩
    rw [Bytes.map_lower_ofChars, hname, ofChars_lengthName]
    intro c hc
    have hmem : c.toLower ∈ Header.lengthName := hname ▸ List.mem_map_of_mem hc
    have all : ∀ d ∈ Header.lengthName, d.toNat < 128 := by simp [Header.lengthName_eq]
    exact Bytes.toNat_lt_of_toLower (all _ hmem)

theorem contentLength_ofChars (cs : List Char) :
    contentLength (Bytes.ofChars cs) = Header.declared cs := by
  rw [contentLength, Bytes.toText?_ofChars]
  simp

/-- A header that is read from a name on is text from a name on. -/
theorem exists_chars_of_startsName {cs : List Char} {p : Nat}
    (h : startsName ((Bytes.ofChars cs).drop p) = true) :
    ∃ skipped seen, cs = skipped ++ seen ∧ Bytes.ofChars skipped = (Bytes.ofChars cs).take p ∧
      Bytes.ofChars seen = (Bytes.ofChars cs).drop p := by
  cases hb : (Bytes.ofChars cs).drop p with
  | nil =>
    rw [hb] at h
    exact absurd (ofFirst_startsName.length_le h) (by rw [length_headerName]; decide)
  | cons x after =>
    rw [hb] at h
    have hx : x < 128 := lt_of_lower_lt (by rw [startsName_head h]; decide)
    have hcut : Bytes.ofChars cs = (Bytes.ofChars cs).take p ++ x :: after := by
      rw [← hb, List.take_append_drop]
    obtain ⟨as, c, ds, hcs, has, hc, hds⟩ := Bytes.exists_cut_of_ascii hx hcut
    exact ⟨as, c :: ds, hcs, has, by rw [Bytes.ofChars_cons, hc, hds]; rfl⟩

/-- The declared length comes from one place: a name from which on the header declares the same.
From the names before it the header declares that length too, if it can be read at all. -/
theorem exists_decisive {h : Bytes} {n : Nat} (hn : contentLength h = .ok n) :
    ∃ q, startsName (h.drop q) = true ∧ contentLength (h.drop q) = .ok n ∧
      ∀ p ≤ q, startsName (h.drop p) = true →
        ∀ m, contentLength (h.drop p) = .ok m → m = n := by
  obtain ⟨cs, rfl⟩ : ∃ cs, h = Bytes.ofChars cs := by
    unfold contentLength at hn
    split at hn
    · cases hn
    · rename_i t ht
      exact ⟨t.toList, Bytes.toText?_eq_some_iff_ofChars.mp ht⟩
  rw [contentLength_ofChars] at hn
  obtain ⟨v, hv, hread⟩ := Header.exists_getLast?_of_declared hn
  obtain ⟨before, after, rfl, hnamed, htexts, hall⟩ := Header.exists_lastNamed hv
  have hdrop : (Bytes.ofChars (before ++ after)).drop (Bytes.ofChars before).length =
      Bytes.ofChars after := by
    rw [Bytes.ofChars_append, List.drop_left]
  refine ⟨(Bytes.ofChars before).length, ?_, ?_, ?_⟩
  · rw [hdrop, startsName_ofChars]
    exact hnamed
  · rw [hdrop, contentLength_ofChars]
    exact Header.declared_of_lengthTexts htexts hread
  · intro p hp hstart m hm
    obtain ⟨skipped, seen, hcs, hskipped, hseen⟩ := exists_chars_of_startsName hstart
    rw [← hseen] at hstart hm
    rw [startsName_ofChars] at hstart
    rw [contentLength_ofChars] at hm
    have hlen : skipped.length ≤ before.length := by
      by_contra hlt
      obtain ⟨more, rfl⟩ : before <+: skipped :=
        List.prefix_of_prefix_length_le ⟨after, rfl⟩ ⟨seen, hcs.symm⟩ (by omega)
      have hbytes := congrArg List.length hskipped
      rw [Bytes.ofChars_append before more, List.length_append, List.length_take] at hbytes
      have := Bytes.length_le_ofChars more
      rw [List.length_append] at hlt
      omega
    obtain ⟨w, hw, hreadw⟩ := Header.exists_getLast?_of_declared hm
    rw [hall skipped seen hcs hlen hstart] at hw
    cases hw
    rw [hread] at hreadw
    cases hreadw
    rfl

end LanguageServer.Frame
