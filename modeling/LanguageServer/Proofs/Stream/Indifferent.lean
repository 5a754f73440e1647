import LanguageServer.Proofs.Stream.Cuts

namespace LanguageServer.Stream

variable {ends : List Nat} {s : Bytes} {c x : Nat}

/-- A header that a read may divide can be skipped or not: the bodies are the same. -/
def Indifferent (s : Bytes) : Prop :=
  ∀ x c, Reaches s x → Divides (s.drop x) c →
    bodies [] (s.drop (x + Frame.resync (s.drop x))) = bodies [] (s.drop x)

theorem shift_nil (k : Nat) : shift k [] = [] := rfl

theorem Indifferent.bodies_eq (h : Indifferent s) {x : Nat} (hx : Reaches s x) (ends : List Nat) :
    bodies (shift x ends) (s.drop x) = bodies [] (s.drop x) := by
  have hlen : (s.drop x).length = s.length - x := List.length_drop
  cases hv : verdict (shift x ends) (s.drop x) with
  | error error =>
    have hne := ne_nil_of_verdict_error hv
    have := Frame.resync_pos hne
    have := List.length_pos_iff.mpr hne
    have ih := h.bodies_eq (reaches_of_verdict_error hx hv) ends
    rw [bodies_of_error hv, shift_shift, List.drop_drop, ih]
    rcases divides_or_split_of_verdict_error hv with ⟨c, hc⟩ | ⟨error, herror⟩
    · exact h x c hx hc
    · rw [← verdict_nil] at herror
      rw [bodies_of_error herror, shift_nil, List.drop_drop]
  | ok f =>
    have hsplit := (split_of_verdict_ok hv).2
    have hv' : verdict [] (s.drop x) = .ok f := (verdict_nil _).trans hsplit
    cases f with
    | none => rw [bodies_of_wait hv, bodies_of_wait hv']
    | some f =>
      have hle := (Frame.consumed_of_split hsplit).2
      have hpos := Frame.consumed_pos hsplit
      have ih := h.bodies_eq (hx.frame hsplit) ends
      rw [bodies_of_frame hv, bodies_of_frame hv', shift_shift, List.drop_drop, shift_nil, ih]
termination_by s.length - x
decreasing_by all_goals omega

/-- Places in a stream, counted from `k` places before it. -/
def later (k : Nat) (ends : List Nat) : List Nat := ends.map (k + ·)

theorem shift_later (k : Nat) (ends : List Nat) : shift k (later k ends) = ends := by
  simp [shift, later, Function.comp_def]

theorem bodies_later_of_frame {f : Frame} (h : Frame.split s = .ok (some f)) :
    bodies (later f.consumed ends) s = f.body :: bodies ends (s.drop f.consumed) := by
  obtain ⟨e, n, hd, -, hf⟩ := Frame.declares_of_split_some h
  have hover : overruns (later f.consumed ends) s = false := by
    apply overruns_eq_false hd.find
    intro c hc _
    obtain ⟨d, -, rfl⟩ := List.mem_map.mp hc
    simp only [hf, Frame.cutAt]
    omega
  have hv : verdict (later f.consumed ends) s = .ok (some f) :=
    (verdict_of_not_overruns hover).trans h
  rw [bodies_of_frame hv, shift_later]

theorem bodies_later_of_refused {error : FramingError} (h : Frame.split s = .error error) :
    bodies (later (Frame.resync s) ends) s = bodies ends (s.drop (Frame.resync s)) := by
  obtain ⟨error', hv⟩ := exists_verdict_of_split_error h (later (Frame.resync s) ends)
  rw [bodies_of_error hv, shift_later]

/-- The first place where a read may divide a terminator skips the header, and does no more. -/
theorem bodies_later_of_divides (h : Divides s c) :
    bodies ((maxHeaderLength + 1) :: later (Frame.resync s) ends) s =
      bodies ends (s.drop (Frame.resync s)) := by
  obtain ⟨e, hfind, he, hc, hce⟩ := h
  have hover : overruns ((maxHeaderLength + 1) :: later (Frame.resync s) ends) s = true := by
    rw [overruns_eq_true_iff hfind he]
    exact ⟨_, List.mem_cons_self, e, hfind, he, Nat.lt_succ_self _, by omega⟩
  have hv : verdict ((maxHeaderLength + 1) :: later (Frame.resync s) ends) s =
      .error .headerTooLarge := verdict_of_overruns hover
  have hpos := Frame.resync_pos (ne_nil_of_verdict_error hv)
  have hshift : shift (Frame.resync s) ((maxHeaderLength + 1) :: later (Frame.resync s) ends) =
      (maxHeaderLength + 1 - Frame.resync s) :: ends :=
    congrArg (_ :: ·) (shift_later _ ends)
  rw [bodies_of_error hv, hshift, bodies_cons_of_le (by omega)]

/-- If the reads do not matter at the start, they do not matter wherever a header is looked for. -/
theorem Reaches.bodies_eq (hx : Reaches s x)
    (h : ∀ ends ends', bodies ends s = bodies ends' s) (ends ends' : List Nat) :
    bodies ends (s.drop x) = bodies ends' (s.drop x) := by
  induction hx generalizing ends ends' with
  | start => exact h ends ends'
  | @frame x f hx hf ih =>
    have hsame : f.body :: bodies ends ((s.drop x).drop f.consumed) =
        f.body :: bodies ends' ((s.drop x).drop f.consumed) := by
      rw [← bodies_later_of_frame hf, ← bodies_later_of_frame hf]
      exact ih _ _
    rw [← List.drop_drop]
    exact (List.cons.inj hsame).2
  | refused hx he ih =>
    rw [← List.drop_drop, ← bodies_later_of_refused he, ← bodies_later_of_refused he]
    exact ih _ _
  | divided hx hc ih =>
    rw [← List.drop_drop, ← bodies_later_of_divides hc, ← bodies_later_of_divides hc]
    exact ih _ _

/-- Exactly then the ends of reads do not matter when skipping a divided header does not. -/
theorem forall_bodies_eq_iff :
    (∀ ends ends', bodies ends s = bodies ends' s) ↔ Indifferent s := by
  constructor
  · intro h x c hx hc
    rw [← List.drop_drop, ← bodies_later_of_divides hc]
    exact hx.bodies_eq h _ _
  · intro h ends ends'
    have hends := h.bodies_eq .start ends
    have hends' := h.bodies_eq .start ends'
    rw [shift_zero, List.drop_zero] at hends hends'
    exact hends.trans hends'.symm

/-- Sensitive places lie in the terminators of long headers, hence not four in a row. -/
theorem Sensitive.not_add_three (h : Sensitive s c) : ¬ Sensitive s (c + 3) := by
  obtain ⟨x, d, -, ⟨e, hfind, he, hd, hde⟩, rfl⟩ := h
  intro h'
  obtain ⟨x', d', -, ⟨e', hfind', he', hd', hde'⟩, heq⟩ := h'
  have hterm : Frame.terminator.length = 4 := rfl
  obtain ⟨-, hat, -⟩ := Bytes.findFrom_zero_eq_some_iff.mp hfind
  obtain ⟨-, -, hbefore⟩ := Bytes.findFrom_zero_eq_some_iff.mp hfind'
  have hlong : maxHeaderLength = 8192 := rfl
  have hnone := hbefore (x + e - x') (by omega)
  rw [List.drop_drop, Nat.add_sub_cancel' (by omega), ← List.drop_drop, hat] at hnone
  cases hnone

theorem Sensitive.lt (h : Sensitive s c) : 0 < c ∧ c < s.length := by
  obtain ⟨x, d, -, ⟨e, hfind, -, hd, hde⟩, rfl⟩ := h
  have hle := Frame.find_terminator_le hfind
  rw [List.length_drop] at hle
  omega

end LanguageServer.Stream
