import LanguageServer.Proofs.Frame.Resync

namespace LanguageServer.Stream

/-- Places in a stream, counted from place `k` on. -/
def shift (k : Nat) (ends : List Nat) : List Nat := ends.map (· - k)

/-- Whether one of the reads, which end at `ends`, ends inside the terminator of the header at the
start, but further on than the longest header goes. -/
def overruns (ends : List Nat) (s : Bytes) : Bool :=
  match Bytes.find Frame.terminator s with
  | none => false
  | some e => ends.any fun c => maxHeaderLength < c && c < e + Frame.terminator.length

/-- What becomes of the start of a stream that is all there but for where its reads end. -/
def verdict (ends : List Nat) (s : Bytes) : Except FramingError (Option Frame) :=
  if overruns ends s then .error .headerTooLarge else Frame.split s

theorem overruns_nil (s : Bytes) : overruns [] s = false := by
  cases h : Bytes.find Frame.terminator s <;> simp [overruns, h]

theorem overruns_of_find_none {ends : List Nat} {s : Bytes}
    (h : Bytes.find Frame.terminator s = none) : overruns ends s = false := by
  simp only [overruns, h]

theorem overruns_of_find {ends : List Nat} {s : Bytes} {e : Nat}
    (h : Bytes.find Frame.terminator s = some e) :
    overruns ends s =
      ends.any fun c => maxHeaderLength < c && c < e + Frame.terminator.length := by
  simp only [overruns, h]

theorem verdict_of_overruns {ends : List Nat} {s : Bytes} (h : overruns ends s = true) :
    verdict ends s = .error .headerTooLarge := if_pos h

theorem verdict_of_not_overruns {ends : List Nat} {s : Bytes} (h : overruns ends s = false) :
    verdict ends s = Frame.split s := by
  simp [verdict, h]

theorem verdict_nil (s : Bytes) : verdict [] s = Frame.split s :=
  verdict_of_not_overruns (overruns_nil s)

theorem split_of_verdict_ok {ends : List Nat} {s : Bytes} {f : Option Frame}
    (h : verdict ends s = .ok f) : overruns ends s = false ∧ Frame.split s = .ok f := by
  cases hover : overruns ends s with
  | true =>
    rw [verdict_of_overruns hover] at h
    cases h
  | false => exact ⟨rfl, (verdict_of_not_overruns hover).symm.trans h⟩

/-- What is refused is refused wherever the reads end. -/
theorem exists_verdict_of_split_error {s : Bytes} {error : FramingError}
    (h : Frame.split s = .error error) (ends : List Nat) :
    ∃ error, verdict ends s = .error error := by
  cases hover : overruns ends s with
  | true => exact ⟨_, verdict_of_overruns hover⟩
  | false => exact ⟨error, (verdict_of_not_overruns hover).trans h⟩

theorem ne_nil_of_verdict_error {ends : List Nat} {s : Bytes} {error : FramingError}
    (h : verdict ends s = .error error) : s ≠ [] := by
  intro hnil
  subst hnil
  cases h

/-- The bodies of the frames in a stream, where every malformed part is skipped up to the next
name of the length header. -/
def bodies (ends : List Nat) (s : Bytes) : List Bytes :=
  match _h : verdict ends s with
  | .ok (some f) => f.body :: bodies (shift f.consumed ends) (s.drop f.consumed)
  | .ok none => []
  | .error _ => bodies (shift (Frame.resync s) ends) (s.drop (Frame.resync s))
termination_by s.length
decreasing_by
  · have hsplit := (split_of_verdict_ok _h).2
    have := Frame.consumed_pos hsplit
    have := (Frame.consumed_of_split hsplit).2
    rw [List.length_drop]
    omega
  · have hne := ne_nil_of_verdict_error _h
    have := Frame.resync_pos hne
    have := List.length_pos_iff.mpr hne
    rw [List.length_drop]
    omega

variable {ends : List Nat} {s : Bytes} {e n k : Nat}

theorem bodies_of_frame {f : Frame} (h : verdict ends s = .ok (some f)) :
    bodies ends s = f.body :: bodies (shift f.consumed ends) (s.drop f.consumed) := by
  rw [bodies]
  split <;> simp_all

theorem bodies_of_wait (h : verdict ends s = .ok none) : bodies ends s = [] := by
  rw [bodies]
  split <;> simp_all

theorem bodies_of_error {error : FramingError} (h : verdict ends s = .error error) :
    bodies ends s = bodies (shift (Frame.resync s) ends) (s.drop (Frame.resync s)) := by
  rw [bodies]
  split <;> simp_all

theorem shift_shift (j k : Nat) (ends : List Nat) :
    shift j (shift k ends) = shift (k + j) ends := by
  simp [shift, Nat.sub_sub]

theorem shift_zero (ends : List Nat) : shift 0 ends = ends := by
  simp [shift]

theorem overruns_eq_false (hfind : Bytes.find Frame.terminator s = some e)
    (h : ∀ c ∈ ends, maxHeaderLength < c → e + Frame.terminator.length ≤ c) :
    overruns ends s = false := by
  rw [overruns_of_find hfind]
  simp only [List.any_eq_false, Bool.and_eq_true, decide_eq_true_eq, not_and, Nat.not_lt]
  exact h

theorem overruns_drop (h : overruns ends s = false) (hfind : Bytes.find Frame.terminator s = some e)
    (hk : k ≤ e) : overruns (shift k ends) (s.drop k) = false := by
  rw [overruns_of_find hfind] at h
  rw [overruns_of_find (Frame.find_terminator_drop hfind hk)]
  simp only [List.any_eq_false, shift, List.mem_map, Bool.and_eq_true, decide_eq_true_eq] at h ⊢
  intro c' hc' hcut
  obtain ⟨c, hc, rfl⟩ := hc'
  apply h c hc
  have : Frame.terminator.length = 4 := rfl
  omega

theorem bodies_of_declares (hd : Frame.Declares s e n) (hover : overruns ends s = false) :
    bodies ends s =
      if s.length < e + Frame.terminator.length + n then []
      else (s.drop (e + Frame.terminator.length)).take n ::
        bodies (shift (e + Frame.terminator.length + n) ends)
          (s.drop (e + Frame.terminator.length + n)) := by
  have hverdict : verdict ends s = Frame.split s := verdict_of_not_overruns hover
  rw [hd.split] at hverdict
  split at hverdict
  · rename_i hlt
    rw [bodies_of_wait hverdict, if_pos hlt]
  · rename_i hle
    rw [bodies_of_frame hverdict, if_neg hle]
    rfl

/-- The same frames follow from a name before the one that decides as from the start. -/
theorem bodies_of_decisive (hd : Frame.Declares s e n) (hover : overruns ends s = false)
    {p q : Nat} (hq : q < e) (hname : Frame.startsName (s.drop q) = true)
    (hall : ∀ p ≤ q, Frame.startsName (s.drop p) = true → Frame.Declares (s.drop p) (e - p) n ∨
      (p < q ∧ ∃ error, Frame.split (s.drop p) = .error error))
    (hp : p ≤ q) (hs : Frame.startsName (s.drop p) = true) :
    bodies (shift p ends) (s.drop p) = bodies ends s := by
  have hfind := hd.find
  have hoverp := overruns_drop hover hfind (show p ≤ e by omega)
  rcases hall p hp hs with hdp | ⟨hpq, error, herror⟩
  · obtain ⟨d, rfl⟩ : ∃ d, e = p + d := ⟨e - p, by omega⟩
    rw [bodies_of_declares hdp hoverp, bodies_of_declares hd hover, shift_shift,
      List.drop_drop, List.drop_drop, List.length_drop, Nat.add_sub_cancel_left]
    simp only [Nat.add_assoc]
    refine if_congr ?_ rfl rfl
    omega
  · have hverdict : verdict (shift p ends) (s.drop p) = .error error :=
      (verdict_of_not_overruns hoverp).trans herror
    have hne := ne_nil_of_verdict_error hverdict
    have hpos := Frame.resync_pos hne
    have hqp : Frame.startsName ((s.drop p).drop (q - p)) = true := by
      rw [List.drop_drop, Nat.add_sub_cancel' hp]
      exact hname
    rw [bodies_of_error hverdict, shift_shift, List.drop_drop]
    rcases Frame.resync_cases hne with ⟨hr, hbefore⟩ | ⟨hnone, -⟩
    · have hle : p + Frame.resync (s.drop p) ≤ q := by
        by_contra hlt
        have := hbefore (q - p) (by omega) (by omega)
        rw [hqp] at this
        cases this
      rw [List.drop_drop] at hr
      exact bodies_of_decisive hd hover hq hname hall hle hr
    · rw [hnone (q - p) (by omega)] at hqp
      cases hqp
termination_by q - p

theorem bodies_eq_nil (h : ∀ j, Frame.startsName (s.drop j) = false) : bodies ends s = [] := by
  fun_induction bodies ends s with
  | case1 ends s f hv ih =>
    obtain ⟨e, n, hd, -⟩ := Frame.declares_of_split_some (split_of_verdict_ok hv).2
    obtain ⟨q, -, hq⟩ := hd.exists_startsName
    rw [h q] at hq
    cases hq
  | case2 ends s hv => rfl
  | case3 ends s error hv ih =>
    refine ih fun j => ?_
    rw [List.drop_drop]
    exact h _

/-- Reading may as well begin at the first name. -/
theorem bodies_of_firstName (hk : Frame.startsName (s.drop k) = true)
    (hbefore : ∀ j < k, Frame.startsName (s.drop j) = false) :
    bodies ends s = bodies (shift k ends) (s.drop k) := by
  rcases Nat.eq_zero_or_pos k with rfl | hpos
  · rw [shift_zero, List.drop_zero]
  · cases hv : verdict ends s with
    | error error =>
      rw [bodies_of_error hv, Frame.resync_eq_of_startsName hpos hk fun j _ hj => hbefore j hj]
    | ok f =>
      obtain ⟨hover, hsplit⟩ := split_of_verdict_ok hv
      rcases Frame.declares_of_split_ok hsplit with ⟨hfind, hlen, rfl⟩ | ⟨e, n, hd⟩
      · -- Both wait for the end of a header.
        have hfind' : Bytes.find Frame.terminator (s.drop k) = none :=
          Bytes.findFrom_drop_eq_none hfind
        have hv' : verdict (shift k ends) (s.drop k) = .ok none := by
          rw [verdict_of_not_overruns (overruns_of_find_none hfind'),
            Frame.split_of_find_none hfind', if_neg]
          rw [List.length_drop]
          omega
        rw [bodies_of_wait hv, bodies_of_wait hv']
      · obtain ⟨q, hqe, hq, hall⟩ := hd.exists_decisive
        have hkq : k ≤ q := by
          by_contra hlt
          rw [hbefore q (by omega)] at hq
          cases hq
        exact (bodies_of_decisive hd hover hqe hq hall hkq hk).symm

theorem bodies_drop (h : ∀ j < k, Frame.startsName (s.drop j) = false) :
    bodies ends s = bodies (shift k ends) (s.drop k) := by
  by_cases hname : ∃ p, Frame.startsName (s.drop p) = true
  · have hp := Nat.find_spec hname
    have hbefore : ∀ j < Nat.find hname, Frame.startsName (s.drop j) = false := by
      intro j hj
      simpa using Nat.find_min hname hj
    generalize Nat.find hname = p at hp hbefore
    obtain ⟨d, rfl⟩ : ∃ d, p = k + d := by
      refine ⟨p - k, ?_⟩
      by_contra hlt
      rw [h p (by omega)] at hp
      cases hp
    rw [bodies_of_firstName hp hbefore, ← List.drop_drop, ← shift_shift]
    symm
    apply bodies_of_firstName
    · rwa [List.drop_drop]
    · intro j hj
      rw [List.drop_drop]
      exact hbefore _ (by omega)
  · have hnone : ∀ p, Frame.startsName (s.drop p) = false := by simpa using hname
    rw [bodies_eq_nil hnone, bodies_eq_nil]
    intro j
    rw [List.drop_drop]
    exact hnone _

/-- After an error, what is behind the name that reading goes on at does not depend on it: dropping
any part of what comes before that name is the same. -/
theorem bodies_of_error_drop {error : FramingError} (h : verdict ends s = .error error)
    (hk : k ≤ Frame.resync s) (hpos : 1 ≤ k) :
    bodies ends s = bodies (shift k ends) (s.drop k) := by
  obtain ⟨d, hd⟩ : ∃ d, Frame.resync s = k + d := ⟨Frame.resync s - k, by omega⟩
  rw [bodies_of_error h, hd, ← List.drop_drop, ← shift_shift]
  symm
  apply bodies_drop
  intro j hj
  have := Frame.startsName_eq_false_of_lt_resync (b := s) (j := k + j) (by omega) (by omega) []
  rw [List.append_nil] at this
  rwa [List.drop_drop]

end LanguageServer.Stream
