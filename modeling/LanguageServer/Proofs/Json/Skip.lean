import LanguageServer.Json.Scan.Skip
import LanguageServer.Proofs.Json.Value

namespace LanguageServer.Json.Scan

variable {s r b : Bytes} {n : Nat}

theorem skipText_quote (s : Bytes) : skipText (34 :: s) = .ok s := by
  rw [skipText, if_pos rfl]

theorem skipText_escaped (h : skipEscaped s = .ok r) : skipText (92 :: s) = skipText r := by
  rw [skipText, if_neg (by decide), if_pos rfl]
  split <;> simp_all

theorem skipText_escape (b : UInt8) (s : Bytes) : skipText (escape b ++ s) = skipText s := by
  rcases escape_cases b with
    ⟨x, hb, hx⟩ | ⟨x, y, hb, hvalues, -⟩ | ⟨hb, hquote, hescape, hcontrol⟩
  · have hskip : skipEscaped (x :: s) = .ok s := by simp only [skipEscaped, hx]
    rw [hb]
    exact skipText_escaped hskip
  · have hsimple : simpleEscape? 117 = none := by decide
    have hskip : skipEscaped (117 :: 48 :: 48 :: x :: y :: s) = .ok s := by
      simp [skipEscaped, hsimple, hexDigits, hvalues]
    rw [hb]
    exact skipText_escaped hskip
  · rw [hb, List.singleton_append, skipText, if_neg hquote, if_neg hescape, if_neg hcontrol]

theorem skipText_flatMap_escape (bs s : Bytes) :
    skipText (bs.flatMap escape ++ 34 :: s) = .ok s := by
  induction bs with
  | nil => exact skipText_quote s
  | cons b bs ih => rw [List.flatMap_cons, List.append_assoc, skipText_escape, ih]

theorem skipAfterInteger_of_follows (h : Follows s) : skipAfterInteger s = .ok s := by
  cases s with
  | nil => rfl
  | cons c s => rcases h c rfl with rfl | rfl | rfl <;> rfl

theorem dropWhile_isDigit_ofChars {ds : List Char} (hds : ∀ c ∈ ds, c.isDigit = true)
    (hs : Follows s) : (Bytes.ofChars ds ++ s).dropWhile Bytes.isDigit = s := by
  induction ds with
  | nil =>
    cases s with
    | nil => rfl
    | cons c s => exact List.dropWhile_cons_of_neg (by simp [hs.not_isDigit])
  | cons d ds ih =>
    obtain ⟨hbytes, hdigit, -⟩ := digit_byte (hds d (by simp))
    rw [Bytes.ofChars_cons, hbytes, List.append_assoc, List.singleton_append,
      List.dropWhile_cons_of_pos hdigit]
    exact ih fun c hc => hds c (by simp [hc])

theorem skipNumber_toDigits (n : Nat) (hs : Follows s) :
    skipNumber (Bytes.ofChars (Nat.toDigits 10 n) ++ s) = .ok s := by
  have hds : ∀ d ∈ Nat.toDigits 10 n, d.isDigit = true := fun d hd =>
    Nat.isDigit_of_mem_toDigits (by decide) (by decide) hd
  rcases Nat.eq_zero_or_pos n with rfl | hn
  · have hzero : Bytes.ofChars (Nat.toDigits 10 0) = [48] := by decide
    rw [hzero, List.singleton_append]
    cases s with
    | nil => rfl
    | cons c s =>
      rw [skipNumber, if_pos rfl]
      simp only [hs.not_isDigit, Bool.false_eq_true, if_false]
      exact skipAfterInteger_of_follows hs
  · obtain ⟨c, cs, hdigits, hc⟩ := exists_toDigits_cons hn
    rw [hdigits] at hds ⊢
    obtain ⟨hbytes, hdigit, -, hzero⟩ := digit_byte (hds c (by simp))
    rw [Bytes.ofChars_cons, hbytes, List.append_assoc, List.singleton_append]
    unfold skipNumber
    dsimp only
    rw [if_neg fun h => hc (hzero h), if_pos hdigit,
      dropWhile_isDigit_ofChars (fun d hd => hds d (by simp [hd])) hs,
      skipAfterInteger_of_follows hs]

/-- What is done once a value has been passed over. -/
def proceed (o : Option Awaited) (s : Bytes) : Except Fault Bytes :=
  match o with
  | none => .ok s
  | some a => skipThrough a s

theorem skipThrough_of_step {a : Awaited} {o : Option Awaited} (h : a.step s = .ok (o, r)) :
    skipThrough a s = proceed o r := by
  rw [skipThrough]
  split
  · simp_all
  · rename_i r' h'
    rw [h] at h'
    cases h'
    rfl
  · rename_i a' r' h'
    rw [h] at h'
    cases h'
    rfl

/-- The bytes are passed over wherever they stand as a value. -/
def Skipped (b : Bytes) : Prop :=
  ∀ around s, Follows s →
    skipThrough (.value around) (b ++ s) = proceed (Awaited.afterValue around) s

theorem skipped_of_scalar {c : UInt8} {rest : Bytes} (hblank : isBlank c = false) (hlist : c ≠ 91)
    (hobject : c ≠ 123) (h : ∀ s, Follows s → skipScalar (c :: rest ++ s) = .ok s) :
    Skipped (c :: rest) := by
  intro around s hs
  apply skipThrough_of_step
  have hskip := h s hs
  rw [List.cons_append] at hskip ⊢
  rw [Awaited.step, skipBlank_cons hblank]
  dsimp only
  rw [if_neg hlist, if_neg hobject, hskip]

theorem skipScalar_digit {c : UInt8} (h : Bytes.isDigit c = true) (s : Bytes) :
    skipScalar (c :: s) = skipNumber (c :: s) := by
  have hne := ne_of_isDigit h
  rw [skipScalar, if_neg (hne 110 (by decide)), if_neg (hne 116 (by decide)),
    if_neg (hne 102 (by decide)), if_neg (hne 45 (by decide)), if_pos h]

theorem skipped_number (n : Int) : Skipped (Bytes.ofText (Number.integer n).text) := by
  have htext : (Number.integer n).text = n.repr := rfl
  rw [htext, Int.repr_eq_if]
  split
  · obtain ⟨c, rest, hbytes, hdigit⟩ := exists_ofChars_toDigits n.toNat
    rw [Bytes.ofText_eq_ofChars, Nat.toList_repr, hbytes]
    have hne := ne_of_isDigit hdigit
    refine skipped_of_scalar (not_isBlank_of_isDigit hdigit) (hne 91 (by decide))
      (hne 123 (by decide)) ?_
    intro s hs
    rw [List.cons_append, skipScalar_digit hdigit, ← List.cons_append, ← hbytes]
    exact skipNumber_toDigits _ hs
  · rw [Bytes.ofText_append, Bytes.ofText_eq_ofChars (-n).toNat.repr, Nat.toList_repr]
    refine skipped_of_scalar (c := 45) (by decide) (by decide) (by decide) ?_
    intro s hs
    exact skipNumber_toDigits _ hs

/-- The bytes are an item or member of a container, at the end of which a value is passed over. -/
structure SkippedIn (inner : Container) (b : Bytes) : Prop where
  opens : ∃ c rest, b = c :: rest ∧ isBlank c = false ∧ c ≠ inner.closer
  toValue : ∃ v, (∀ s, skipToValue inner (b ++ s) = .ok (v ++ s)) ∧ Skipped v

variable {inner : Container} {outer : List Container} {bs : List Bytes}

theorem Container.closer_eq (inner : Container) : inner.closer = 93 ∨ inner.closer = 125 := by
  cases inner with
  | list => exact .inl rfl
  | object => exact .inr rfl

theorem step_closer (first : Bool) (inner : Container) (outer : List Container) (s : Bytes) :
    (Awaited.next first inner outer).step (inner.closer :: s) =
      .ok (Awaited.afterValue outer, s) := by
  cases inner <;> cases first <;> rfl

theorem skipThrough_next_comma (h : SkippedIn inner b) (hs : Follows s) :
    skipThrough (.next false inner outer) (44 :: b ++ s) =
      skipThrough (.next false inner outer) s := by
  obtain ⟨v, hvalue, hskipped⟩ := h.toValue
  have hstep : (Awaited.next false inner outer).step (44 :: b ++ s) =
      .ok (some (.value (inner :: outer)), v ++ s) := by
    rw [List.cons_append, Awaited.step, skipBlank_cons (by decide)]
    simp [hvalue]
  rw [skipThrough_of_step hstep]
  exact hskipped _ s hs

theorem skipThrough_next_first (h : SkippedIn inner b) (hs : Follows s) :
    skipThrough (.next true inner outer) (b ++ s) = skipThrough (.next false inner outer) s := by
  obtain ⟨v, hvalue, hskipped⟩ := h.toValue
  obtain ⟨c, rest, rfl, hblank, hcloser⟩ := h.opens
  have hstep : (Awaited.next true inner outer).step (c :: rest ++ s) =
      .ok (some (.value (inner :: outer)), v ++ s) := by
    have := hvalue s
    rw [List.cons_append] at this ⊢
    rw [Awaited.step, skipBlank_cons hblank]
    simp [hcloser, this]
  rw [skipThrough_of_step hstep]
  exact hskipped _ s hs

theorem skipThrough_more (h : ∀ b ∈ bs, SkippedIn inner b) (outer : List Container) (s : Bytes) :
    skipThrough (.next false inner outer) (bs.flatMap (44 :: ·) ++ inner.closer :: s) =
      proceed (Awaited.afterValue outer) s := by
  induction bs with
  | nil => exact skipThrough_of_step (step_closer false inner outer s)
  | cons b bs ih =>
    have hfollows := follows_more bs inner.closer_eq s
    rw [List.flatMap_cons, List.append_assoc,
      skipThrough_next_comma (h b List.mem_cons_self) hfollows]
    exact ih fun x hx => h x (List.mem_cons_of_mem b hx)

theorem skipThrough_separated (h : ∀ b ∈ bs, SkippedIn inner b) (outer : List Container)
    (s : Bytes) :
    skipThrough (.next true inner outer) (separated bs ++ inner.closer :: s) =
      proceed (Awaited.afterValue outer) s := by
  cases bs with
  | nil => exact skipThrough_of_step (step_closer true inner outer s)
  | cons b bs =>
    have hfollows := follows_more bs inner.closer_eq s
    rw [separated_cons, List.append_assoc,
      skipThrough_next_first (h b List.mem_cons_self) hfollows]
    exact skipThrough_more (fun x hx => h x (List.mem_cons_of_mem b hx)) outer s

theorem skippedIn_object {v : Bytes} (key : String) (h : Skipped v) :
    SkippedIn .object (renderText key ++ 58 :: v) where
  opens := ⟨34, _, rfl, by decide, by decide⟩
  toValue := by
    refine ⟨v, ?_, h⟩
    intro s
    rw [List.append_assoc, renderText_append, skipToValue, skipBlank_cons (by decide)]
    simp only [if_pos, skipText_flatMap_escape]
    rfl

theorem skippedIn_list (hopens : Opens b) (h : Skipped b) : SkippedIn .list b where
  opens := hopens
  toValue := ⟨b, fun _ => rfl, h⟩

/-- The compact text of a value is passed over, whatever its depth. -/
theorem skipped_render {v : Value} (h : v.isExact = true) : Skipped v.render := by
  induction v using Value.induction with
  | null =>
    rw [Value.render_null]
    exact skipped_of_scalar (by decide) (by decide) (by decide) fun _ _ => rfl
  | bool b =>
    cases b with
    | true =>
      rw [Value.render_true]
      exact skipped_of_scalar (by decide) (by decide) (by decide) fun _ _ => rfl
    | false =>
      rw [Value.render_false]
      exact skipped_of_scalar (by decide) (by decide) (by decide) fun _ _ => rfl
  | number n =>
    cases n with
    | integer n => exact skipped_number n
    | floating x => cases h
  | text t =>
    refine skipped_of_scalar (c := 34) (by decide) (by decide) (by decide) ?_
    intro s hs
    change skipScalar (renderText t ++ s) = .ok s
    rw [renderText_append]
    exact skipText_flatMap_escape _ s
  | list items ih =>
    intro around s hs
    have hexact := Value.isExact_list_iff.mp h
    have hitems : ∀ b ∈ items.map Value.render, SkippedIn .list b := by
      intro b hb
      obtain ⟨v, hv, rfl⟩ := List.mem_map.mp hb
      exact skippedIn_list (Value.opens_render (hexact v hv)) (ih v hv (hexact v hv))
    have hstep : (Awaited.value around).step ((Value.list items).render ++ s) =
        .ok (some (.next true .list around), separated (items.map Value.render) ++ 93 :: s) := by
      rw [Value.render_list]
      rfl
    rw [skipThrough_of_step hstep]
    exact skipThrough_separated hitems around s
  | object ms ih =>
    intro around s hs
    obtain ⟨-, hexact⟩ := Value.isExact_object_iff.mp h
    have hmembers : ∀ b ∈ Value.renderMembers ms, SkippedIn .object b := by
      intro b hb
      rw [Value.renderMembers_eq_map] at hb
      obtain ⟨m, hm, rfl⟩ := List.mem_map.mp hb
      exact skippedIn_object m.1 (ih m hm (hexact m hm))
    have hstep : (Awaited.value around).step ((Value.object ms).render ++ s) =
        .ok (some (.next true .object around), separated (Value.renderMembers ms) ++ 125 :: s) := by
      rw [Value.render_object]
      rfl
    rw [skipThrough_of_step hstep]
    exact skipThrough_separated hmembers around s

theorem reads_skipValue {v : Value} (h : v.isExact = true) : skipValue.Reads v.render () := by
  intro s hs
  have hskip : skipThrough (.value []) (v.render ++ s) = .ok s := skipped_render h [] s hs
  simp only [skipValue, hskip]

end LanguageServer.Json.Scan
