import Mathlib.Tactic
import Mathlib.Data.List.Infix
import LanguageServer.Frame.Header
import LanguageServer.Proofs.Bytes.Characters

namespace LanguageServer.Header

def lineEnd : List Char := ['\r', '\n']

theorem lines_append_lineEnd (cs ds : List Char) :
    lines (cs ++ lineEnd ++ ds) = lines cs ++ lines ds := by
  fun_induction lines cs with
  | case1 => simp [lineEnd, lines]
  | case2 rest ih =>
    simp only [List.cons_append, lines]
    rw [ih]
  | case3 c rest hnot h => exact absurd h (lines_ne_nil rest)
  | case4 c rest hnot line more h ih =>
    rw [List.cons_append, List.cons_append, lines]
    · rw [ih, h]
      rfl
    · intro rest' hc hrest
      subst hc
      cases rest with
      | nil => simp [lineEnd] at hrest
      | cons d rest =>
        simp only [List.cons_append, List.cons.injEq] at hrest
        exact hnot rest rfl (by rw [hrest.1])

theorem lines_eq_singleton {cs : List Char} (h : ¬ lineEnd <:+: cs) : lines cs = [cs] := by
  fun_induction lines cs with
  | case1 => rfl
  | case2 rest ih => exact absurd ⟨[], rest, rfl⟩ h
  | case3 c rest hnot hl => exact absurd hl (lines_ne_nil rest)
  | case4 c rest hnot line more hl ih =>
    have := ih fun hi => h (hi.trans (List.suffix_cons c rest).isInfix)
    rw [hl] at this
    cases this
    rfl

theorem exists_firstLine (cs : List Char) :
    ¬ lineEnd <:+: cs ∨ ∃ line rest, cs = line ++ lineEnd ++ rest ∧ ¬ lineEnd <:+: line := by
  induction cs with
  | nil => left; simp [lineEnd]
  | cons c cs ih =>
    by_cases hc : lineEnd <+: c :: cs
    · obtain ⟨rest, hrest⟩ := hc
      right
      exact ⟨[], rest, by simpa using hrest.symm, by simp [lineEnd]⟩
    · rcases ih with h | ⟨line, rest, rfl, hline⟩
      · left
        rw [List.infix_cons_iff]
        tauto
      · right
        refine ⟨c :: line, rest, by simp, ?_⟩
        rw [List.infix_cons_iff]
        intro h
        rcases h with hp | hi
        · exact hc (hp.trans ⟨lineEnd ++ rest, by simp⟩)
        · exact hline hi

theorem field?_cons {c : Char} (hc : c ≠ ':') (line : List Char) :
    field? (c :: line) = (field? line).map fun f => (c :: f.1, f.2) := by
  rw [field?, field?, List.dropWhile_cons_of_pos (by simpa using hc),
    List.takeWhile_cons_of_pos (by simpa using hc)]
  cases line.dropWhile (· ≠ ':') <;> rfl

theorem trim_cons {c : Char} (hc : Text.isBlank c = true) (cs : List Char) :
    Text.trim (c :: cs) = Text.trim cs := by
  rw [Text.trim, Text.trim, List.dropWhile_cons_of_pos hc]

theorem lengthText?_dropWhile (line : List Char) :
    lengthText? (line.dropWhile Text.isBlank) = lengthText? line := by
  induction line with
  | nil => rfl
  | cons c line ih =>
    by_cases hc : Text.isBlank c = true
    · rw [List.dropWhile_cons_of_pos hc, ih]
      have hcolon : c ≠ ':' := by
        intro heq
        subst heq
        exact absurd hc (by decide)
      rw [lengthText?, lengthText?, field?_cons hcolon]
      cases field? line with
      | none => rfl
      | some f =>
        simp only [Option.map_some]
        rw [trim_cons hc]
    · rw [List.dropWhile_cons_of_neg hc]

theorem lengthName_eq : lengthName =
    ['c', 'o', 'n', 't', 'e', 'n', 't', '-', 'l', 'e', 'n', 'g', 't', 'h'] := by decide

/-- Characters that begin with the name of the length header, in any case. -/
def Named (cs : List Char) : Prop :=
  ∃ name rest, cs = name ++ rest ∧ name.map Char.toLower = lengthName

theorem Named.append {cs : List Char} (h : Named cs) (more : List Char) : Named (cs ++ more) := by
  obtain ⟨name, rest, rfl, hname⟩ := h
  exact ⟨name, rest ++ more, by simp, hname⟩

theorem Named.exists_head {cs : List Char} (h : Named cs) :
    ∃ c rest, cs = c :: rest ∧ (c = 'c' ∨ c = 'C') := by
  have all : ∀ n < 128, (Char.ofNat n).toLower = 'c' →
      Char.ofNat n = 'c' ∨ Char.ofNat n = 'C' := by decide
  obtain ⟨name, rest, rfl, hname⟩ := h
  cases name with
  | nil => simp [lengthName_eq] at hname
  | cons c name =>
    rw [lengthName_eq, List.map_cons] at hname
    have hc := (List.cons.inj hname).1
    have hlt := Bytes.toNat_lt_of_toLower (c := c) (by rw [hc]; decide)
    refine ⟨c, name ++ rest, rfl, ?_⟩
    simpa [Char.ofNat_toNat] using all c.toNat hlt (by rwa [Char.ofNat_toNat])

theorem Named.isBlank_head {c : Char} {cs : List Char} (h : Named (c :: cs)) :
    Text.isBlank c = false := by
  obtain ⟨d, rest, heq, hd⟩ := h.exists_head
  obtain ⟨rfl, -⟩ := List.cons.inj heq
  rcases hd with rfl | rfl <;> decide

theorem trim_prefix (cs : List Char) : Text.trim cs <+: cs.dropWhile Text.isBlank := by
  unfold Text.trim
  have h := List.dropWhile_suffix (l := (cs.dropWhile Text.isBlank).reverse) Text.isBlank
  simpa using List.reverse_prefix.mpr h

theorem dropWhile_takeWhile_dropWhile (line : List Char) :
    ((line.dropWhile Text.isBlank).takeWhile (· ≠ ':')).dropWhile Text.isBlank =
      (line.dropWhile Text.isBlank).takeWhile (· ≠ ':') := by
  have hhead := List.head?_dropWhile_not Text.isBlank line
  cases hl : line.dropWhile Text.isBlank with
  | nil => rfl
  | cons c l =>
    rw [hl] at hhead
    by_cases hc : c = ':'
    · rw [List.takeWhile_cons_of_neg (by simpa using hc)]
      rfl
    · rw [List.takeWhile_cons_of_pos (by simpa using hc),
        List.dropWhile_cons_of_neg (by simpa using hhead)]

/-- A line about the length begins with the name, blanks aside. -/
theorem named_of_lengthText? {line v : List Char} (h : lengthText? line = some v) :
    Named (line.dropWhile Text.isBlank) := by
  rw [← lengthText?_dropWhile] at h
  generalize hl : line.dropWhile Text.isBlank = l at h
  unfold lengthText? field? at h
  split at h
  · cases h
  · rename_i name value hf
    split at hf
    · cases hf
    · cases hf
      split at h
      · rename_i hname
        have hpre : Text.trim (l.takeWhile (· ≠ ':')) <+: l :=
          calc Text.trim (l.takeWhile (· ≠ ':'))
              <+: (l.takeWhile (· ≠ ':')).dropWhile Text.isBlank := trim_prefix _
            _ = l.takeWhile (· ≠ ':') := by
              rw [← hl]
              exact dropWhile_takeWhile_dropWhile line
            _ <+: l := List.takeWhile_prefix _
        obtain ⟨rest, hrest⟩ := hpre
        exact ⟨_, rest, hrest.symm, hname⟩
      · cases h

end LanguageServer.Header
