import Mathlib.Data.List.TakeWhile
import LanguageServer.Frame
import LanguageServer.Proofs.Bytes.Search
import LanguageServer.Proofs.Frame.Lines

namespace LanguageServer.Header

/-- What the lines of a text say about the length, in order. -/
def lengthTexts (cs : List Char) : List (List Char) := (lines cs).filterMap lengthText?

theorem lengthTexts_append_lineEnd (cs ds : List Char) :
    lengthTexts (cs ++ lineEnd ++ ds) = lengthTexts cs ++ lengthTexts ds := by
  rw [lengthTexts, lines_append_lineEnd, List.filterMap_append]
  rfl

theorem lengthTexts_line {line : List Char} (h : ¬ lineEnd <:+: line) :
    lengthTexts line = (lengthText? line).toList := by
  rw [lengthTexts, lines_eq_singleton h]
  cases hl : lengthText? line <;> simp [hl]

theorem getLast?_lengthTexts_line {line : List Char} (h : ¬ lineEnd <:+: line) :
    (lengthTexts line).getLast? = lengthText? line := by
  rw [lengthTexts_line h]
  cases lengthText? line <;> rfl

theorem getLast?_lengthTexts_append (cs : List Char) {ds v : List Char}
    (h : (lengthTexts ds).getLast? = some v) :
    (lengthTexts (cs ++ lineEnd ++ ds)).getLast? = some v := by
  rw [lengthTexts_append_lineEnd, List.getLast?_append, h]
  rfl

theorem exists_ok_of_mapM {α β ε : Type} {f : α → Except ε β} {as : List α} {bs : List β}
    (h : as.mapM f = .ok bs) : ∀ a ∈ as, ∃ b, f a = .ok b := by
  induction as generalizing bs with
  | nil => simp
  | cons a as ih =>
    rw [List.mapM_cons] at h
    cases ha : f a with
    | error e => simp [ha, bind, Except.bind] at h
    | ok b =>
      cases has : as.mapM f with
      | error e => simp [ha, has, bind, Except.bind] at h
      | ok cs =>
        intro x hx
        rcases List.mem_cons.mp hx with rfl | hx
        · exact ⟨b, ha⟩
        · exact ih has x hx

theorem exists_error_of_mapM {α β ε : Type} {f : α → Except ε β} {as : List α} {e : ε}
    (h : as.mapM f = .error e) : ∃ a ∈ as, f a = .error e := by
  induction as with
  | nil => cases h
  | cons a as ih =>
    rw [List.mapM_cons] at h
    cases ha : f a with
    | error e' =>
      rw [ha] at h
      cases h
      exact ⟨a, List.mem_cons_self, ha⟩
    | ok b =>
      cases has : as.mapM f with
      | error e' =>
        rw [ha, has] at h
        cases h
        obtain ⟨x, hx, hfx⟩ := ih has
        exact ⟨x, List.mem_cons_of_mem a hx, hfx⟩
      | ok bs =>
        rw [ha, has] at h
        cases h

theorem getLast?_of_mapM {α β ε : Type} {f : α → Except ε β} {as : List α} {bs : List β} {b : β}
    (h : as.mapM f = .ok bs) (hb : bs.getLast? = some b) :
    ∃ a, as.getLast? = some a ∧ f a = .ok b := by
  rcases List.eq_nil_or_concat as with rfl | ⟨init, a, rfl⟩
  · cases h
    simp at hb
  · rw [List.concat_eq_append] at h ⊢
    rw [List.mapM_append] at h
    cases hinit : init.mapM f with
    | error e => simp [hinit, bind, Except.bind] at h
    | ok cs =>
      cases ha : f a with
      | error e => simp [hinit, ha, bind, Except.bind] at h
      | ok c =>
        simp only [hinit, ha, bind, Except.bind, pure, Except.pure, List.mapM_cons,
          List.mapM_nil, Except.ok.injEq] at h
        subst h
        rw [List.getLast?_concat] at hb
        cases hb
        exact ⟨a, List.getLast?_concat, ha⟩

/-- A header is refused for its encoding, or for a length that is missing or cannot be read. -/
theorem contentLength_error_cases {header : Bytes} {e : FramingError}
    (h : contentLength header = .error e) :
    e = .invalidHeaderEncoding ∨ e = .missingContentLength ∨ ∃ v, e = .invalidContentLength v := by
  unfold contentLength at h
  split at h
  · cases h
    exact .inl rfl
  · unfold declared at h
    split at h
    · rename_i hread
      cases h
      obtain ⟨text, -, htext⟩ := exists_error_of_mapM hread
      unfold readLength at htext
      split at htext
      · cases htext
      · cases htext
        exact .inr (.inr ⟨_, rfl⟩)
    · split at h
      · cases h
        exact .inr (.inl rfl)
      · cases h

theorem exists_readLength_of_declared {cs : List Char} {n : Nat} (h : declared cs = .ok n) :
    ∀ v ∈ lengthTexts cs, ∃ m, readLength v = .ok m := by
  unfold declared at h
  split at h
  · cases h
  · rename_i lengths hlengths
    exact exists_ok_of_mapM hlengths

theorem exists_getLast?_of_declared {cs : List Char} {n : Nat} (h : declared cs = .ok n) :
    ∃ v, (lengthTexts cs).getLast? = some v ∧ readLength v = .ok n := by
  unfold declared at h
  split at h
  · cases h
  · rename_i lengths hlengths
    split at h
    · cases h
    · rename_i m hm
      cases h
      exact getLast?_of_mapM hlengths hm

theorem declared_of_lengthTexts {cs v : List Char} {n : Nat} (h : lengthTexts cs = [v])
    (hv : readLength v = .ok n) : declared cs = .ok n := by
  have hmap : ((lines cs).filterMap lengthText?).mapM readLength = .ok [n] := by
    rw [show (lines cs).filterMap lengthText? = [v] from h]
    simp [hv, pure, bind, Except.pure, Except.bind]
  rw [declared, hmap]
  rfl

/-- A name that is read after some of the blanks before another name is that other name. -/
theorem eq_of_named_of_blank {skipped seen blanks rest : List Char}
    (h : skipped ++ seen = blanks ++ rest) (hlen : skipped.length ≤ blanks.length)
    (hblank : ∀ c ∈ blanks, Text.isBlank c = true) (hseen : Named seen) :
    skipped = blanks ∧ seen = rest := by
  obtain ⟨more, rfl⟩ : skipped <+: blanks :=
    List.prefix_of_prefix_length_le ⟨seen, h⟩ ⟨rest, rfl⟩ hlen
  rw [List.append_assoc] at h
  have hmore := List.append_cancel_left h
  cases more with
  | nil => exact ⟨by simp, by simpa using hmore⟩
  | cons c more =>
    rw [hmore, List.cons_append] at hseen
    have := hblank c (by simp)
    rw [hseen.isBlank_head] at this
    cases this

theorem not_named_lineFeed (cs : List Char) : ¬ Named ('\n' :: cs) := by
  intro h
  have := h.isBlank_head
  exact absurd this (by decide)

/-- `before` ends at a name from which on the text says nothing about the length but `v`. Up to
there, whoever begins to read at a name sees `v` last. -/
def LastNamed (v before after : List Char) : Prop :=
  Named after ∧ lengthTexts after = [v] ∧
    ∀ skipped seen, before ++ after = skipped ++ seen → skipped.length ≤ before.length →
      Named seen → (lengthTexts seen).getLast? = some v

theorem lastNamed_of_firstLine {line rest v : List Char} (hv : lengthText? line = some v)
    (hrest : ∀ l, l <:+ line → lengthTexts (l ++ rest) = (lengthText? l).toList) :
    LastNamed v (line.takeWhile Text.isBlank) (line.dropWhile Text.isBlank ++ rest) := by
  have hlast : lengthTexts (line.dropWhile Text.isBlank ++ rest) = [v] := by
    rw [hrest _ (List.dropWhile_suffix _), lengthText?_dropWhile, hv]
    rfl
  refine ⟨(named_of_lengthText? hv).append rest, hlast, ?_⟩
  intro skipped seen hcs hlen hseen
  obtain ⟨-, rfl⟩ := eq_of_named_of_blank hcs.symm hlen
    (fun c hc => List.mem_takeWhile_imp hc) hseen
  rw [hlast]
  rfl

/-- Where a line ends, a cut is before its end, inside it or behind it. -/
theorem cut_lineEnd {rest skipped seen : List Char} (h : lineEnd ++ rest = skipped ++ seen) :
    seen = lineEnd ++ rest ∨ seen = '\n' :: rest ∨
      ∃ more, skipped = lineEnd ++ more ∧ rest = more ++ seen := by
  match skipped with
  | [] => exact .inl h.symm
  | [c] => exact .inr (.inl (List.cons.inj h).2.symm)
  | c :: d :: more =>
    simp only [lineEnd, List.cons_append, List.nil_append, List.cons.injEq] at h
    obtain ⟨rfl, rfl, h⟩ := h
    exact .inr (.inr ⟨more, rfl, h⟩)

theorem LastNamed.cons_line {v before after line : List Char} (h : LastNamed v before after)
    (hlast : (lengthTexts (before ++ after)).getLast? = some v) :
    LastNamed v (line ++ (lineEnd ++ before)) after := by
  obtain ⟨hnamed, htexts, hall⟩ := h
  refine ⟨hnamed, htexts, ?_⟩
  intro skipped seen hcs hlen hseen
  have late (l : List Char) :
      (lengthTexts (l ++ (lineEnd ++ (before ++ after)))).getLast? = some v := by
    rw [← List.append_assoc]
    exact getLast?_lengthTexts_append l hlast
  rw [List.append_assoc, List.append_assoc] at hcs
  rcases List.append_eq_append_iff.mp hcs with ⟨tail, rfl, htail⟩ | ⟨more, rfl, rfl⟩
  · rcases cut_lineEnd htail with rfl | rfl | ⟨more, rfl, hmore⟩
    · exact late []
    · exact absurd hseen (not_named_lineFeed _)
    · refine hall more seen hmore ?_ hseen
      simp only [List.length_append] at hlen
      omega
  · exact late more

theorem exists_lastNamed {cs v : List Char} (h : (lengthTexts cs).getLast? = some v) :
    ∃ before after, cs = before ++ after ∧ LastNamed v before after := by
  rcases exists_firstLine cs with hline | ⟨line, rest, rfl, hline⟩
  · have hv : lengthText? cs = some v := by
      rw [← getLast?_lengthTexts_line hline, h]
    have htexts (l : List Char) (hl : l <:+ cs) :
        lengthTexts (l ++ []) = (lengthText? l).toList := by
      rw [List.append_nil]
      exact lengthTexts_line fun hi => hline (hi.trans hl.isInfix)
    exact ⟨_, _, by simp, lastNamed_of_firstLine hv htexts⟩
  · cases hrest : (lengthTexts rest).getLast? with
    | some w =>
      have hw := getLast?_lengthTexts_append line hrest
      rw [h] at hw
      cases hw
      obtain ⟨before, after, rfl, hlast⟩ := exists_lastNamed hrest
      exact ⟨line ++ (lineEnd ++ before), after, by simp, hlast.cons_line hrest⟩
    | none =>
      have hnone : lengthTexts rest = [] := List.getLast?_eq_none_iff.mp hrest
      have htexts (l : List Char) (hl : l <:+ line) :
          lengthTexts (l ++ (lineEnd ++ rest)) = (lengthText? l).toList := by
        rw [← List.append_assoc, lengthTexts_append_lineEnd, hnone, List.append_nil]
        exact lengthTexts_line fun hi => hline (hi.trans hl.isInfix)
      have hv : lengthText? line = some v := by
        rw [List.append_assoc, htexts line List.suffix_rfl, ← lengthTexts_line hline,
          getLast?_lengthTexts_line hline] at h
        exact h
      refine ⟨_, _, ?_, lastNamed_of_firstLine hv htexts⟩
      rw [← List.append_assoc, List.takeWhile_append_dropWhile, List.append_assoc]
termination_by cs.length
decreasing_by
  have hend : lineEnd.length = 2 := rfl
  subst_vars
  rw [List.length_append, List.length_append]
  omega

end LanguageServer.Header
