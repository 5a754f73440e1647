import LanguageServer.Proofs.Stream

namespace LanguageServer.Stream

variable {ends ends' : List Nat} {s : Bytes} {c e x : Nat}

/-- A read that ends at `c` ends inside the terminator of the header at the start, which is not too
long, but further on than the longest header goes. -/
def Divides (s : Bytes) (c : Nat) : Prop :=
  ∃ e, Bytes.find Frame.terminator s = some e ∧ e ≤ maxHeaderLength ∧
    maxHeaderLength < c ∧ c < e + Frame.terminator.length

/-- The places of a stream where a header may be looked for: its start, the end of a frame, and
the next name after a header that is refused, or may be when a read divides it. -/
inductive Reaches (s : Bytes) : Nat → Prop where
  | start : Reaches s 0
  | frame {x : Nat} {f : Frame} (h : Reaches s x) (hf : Frame.split (s.drop x) = .ok (some f)) :
      Reaches s (x + f.consumed)
  | refused {x : Nat} {error : FramingError} (h : Reaches s x)
      (he : Frame.split (s.drop x) = .error error) : Reaches s (x + Frame.resync (s.drop x))
  | divided {x c : Nat} (h : Reaches s x) (hc : Divides (s.drop x) c) :
      Reaches s (x + Frame.resync (s.drop x))

/-- A place where it matters whether a read ends there. -/
def Sensitive (s : Bytes) (c : Nat) : Prop :=
  ∃ x d, Reaches s x ∧ Divides (s.drop x) d ∧ c = x + d

theorem Divides.lt (h : Divides s c) : maxHeaderLength < c := by
  obtain ⟨e, -, -, hc, -⟩ := h
  exact hc

theorem mem_shift (hc : 0 < c) : c ∈ shift x ends ↔ x + c ∈ ends := by
  rw [shift, List.mem_map]
  constructor
  · intro h
    obtain ⟨d, hd, rfl⟩ := h
    rwa [show x + (d - x) = d by omega]
  · intro h
    exact ⟨x + c, h, by omega⟩

theorem overruns_eq_true_iff (hfind : Bytes.find Frame.terminator s = some e)
    (he : e ≤ maxHeaderLength) :
    overruns ends s = true ↔ ∃ c ∈ ends, Divides s c := by
  rw [overruns_of_find hfind]
  simp only [List.any_eq_true, Bool.and_eq_true, decide_eq_true_eq]
  constructor
  · intro h
    obtain ⟨c, hc, hlt, hlt'⟩ := h
    exact ⟨c, hc, e, hfind, he, hlt, hlt'⟩
  · intro h
    obtain ⟨c, hc, e', hfind', -, hlt, hlt'⟩ := h
    rw [hfind] at hfind'
    cases hfind'
    exact ⟨c, hc, hlt, hlt'⟩

theorem verdict_congr (h : ∀ c, Divides s c → (c ∈ ends ↔ c ∈ ends')) :
    verdict ends s = verdict ends' s := by
  unfold verdict
  cases hfind : Bytes.find Frame.terminator s with
  | none => rw [overruns_of_find_none hfind, overruns_of_find_none hfind]
  | some e =>
    by_cases he : e ≤ maxHeaderLength
    · have hiff : overruns ends s = true ↔ overruns ends' s = true := by
        rw [overruns_eq_true_iff hfind he, overruns_eq_true_iff hfind he]
        constructor
        · intro hends
          obtain ⟨c, hc, hd⟩ := hends
          exact ⟨c, (h c hd).mp hc, hd⟩
        · intro hends
          obtain ⟨c, hc, hd⟩ := hends
          exact ⟨c, (h c hd).mpr hc, hd⟩
      rw [Bool.eq_iff_iff.mpr hiff]
    · rw [Frame.split_of_length_lt hfind (by omega), ite_self, ite_self]

/-- What is refused is refused because a read divides a terminator, or in any case. -/
theorem divides_or_split_of_verdict_error {error : FramingError}
    (h : verdict ends s = .error error) :
    (∃ c, Divides s c) ∨ ∃ error, Frame.split s = .error error := by
  cases hover : overruns ends s with
  | false => exact .inr ⟨error, (verdict_of_not_overruns hover).symm.trans h⟩
  | true =>
    cases hfind : Bytes.find Frame.terminator s with
    | none =>
      rw [overruns_of_find_none hfind] at hover
      cases hover
    | some e =>
      by_cases he : e ≤ maxHeaderLength
      · obtain ⟨c, -, hc⟩ := (overruns_eq_true_iff hfind he).mp hover
        exact .inl ⟨c, hc⟩
      · exact .inr ⟨_, Frame.split_of_length_lt hfind (by omega)⟩

theorem reaches_of_verdict_error {error : FramingError} (hx : Reaches s x)
    (h : verdict ends (s.drop x) = .error error) :
    Reaches s (x + Frame.resync (s.drop x)) := by
  rcases divides_or_split_of_verdict_error h with ⟨c, hc⟩ | ⟨error, herror⟩
  · exact hx.divided hc
  · exact hx.refused herror

theorem bodies_congr_of_reaches {x : Nat} (hx : Reaches s x)
    (h : ∀ c, Sensitive s c → (c ∈ ends ↔ c ∈ ends')) :
    bodies (shift x ends) (s.drop x) = bodies (shift x ends') (s.drop x) := by
  have hlen : (s.drop x).length = s.length - x := List.length_drop
  have hv : verdict (shift x ends) (s.drop x) = verdict (shift x ends') (s.drop x) := by
    apply verdict_congr
    intro c hc
    have hpos : 0 < c := (Nat.zero_le _).trans_lt hc.lt
    rw [mem_shift hpos, mem_shift hpos]
    exact h _ ⟨x, c, hx, hc, rfl⟩
  cases hv' : verdict (shift x ends') (s.drop x) with
  | error error =>
    have hv'' := hv.trans hv'
    have hne := ne_nil_of_verdict_error hv''
    have := Frame.resync_pos hne
    have := List.length_pos_iff.mpr hne
    rw [bodies_of_error hv'', bodies_of_error hv', shift_shift, shift_shift, List.drop_drop]
    exact bodies_congr_of_reaches (reaches_of_verdict_error hx hv'') h
  | ok f =>
    cases f with
    | none => rw [bodies_of_wait (hv.trans hv'), bodies_of_wait hv']
    | some f =>
      have hsplit := (split_of_verdict_ok hv').2
      have hle := (Frame.consumed_of_split hsplit).2
      have hpos := Frame.consumed_pos hsplit
      rw [bodies_of_frame (hv.trans hv'), bodies_of_frame hv', shift_shift, shift_shift,
        List.drop_drop, bodies_congr_of_reaches (hx.frame hsplit) h]
termination_by s.length - x
decreasing_by all_goals omega

/-- The frames of a stream depend on where its reads end only at sensitive places. -/
theorem bodies_congr (h : ∀ c, Sensitive s c → (c ∈ ends ↔ c ∈ ends')) :
    bodies ends s = bodies ends' s := by
  have := bodies_congr_of_reaches Reaches.start h
  rwa [shift_zero, shift_zero, List.drop_zero] at this

/-- A read that ends where the longest header may end, or before that, does not matter. -/
theorem bodies_cons_of_le (hc : c ≤ maxHeaderLength) : bodies (c :: ends) s = bodies ends s := by
  apply bodies_congr
  intro p hp
  obtain ⟨x, d, -, hd, rfl⟩ := hp
  have := hd.lt
  rw [List.mem_cons]
  refine ⟨fun h => h.resolve_left (by omega), .inr⟩

end LanguageServer.Stream
