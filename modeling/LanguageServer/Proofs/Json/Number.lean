import LanguageServer.Json.Printer
import LanguageServer.Json.Scan.Number
import LanguageServer.Proofs.Bytes.Characters
import LanguageServer.Proofs.Numeral

namespace LanguageServer.Json.Scan

variable {negative : Bool} {n : Nat} {s : Bytes}

/-- What may stand behind a value in a compact text: a comma, the end of a list or an object, or
nothing. -/
def Follows (s : Bytes) : Prop := ∀ c ∈ s.head?, c = 44 ∨ c = 93 ∨ c = 125

theorem follows_nil : Follows [] := by simp [Follows]

theorem ne_of_isDigit {c : UInt8} (h : Bytes.isDigit c = true) (b : UInt8)
    (hb : Bytes.isDigit b = false) : c ≠ b := by
  rintro rfl
  rw [h] at hb
  cases hb

theorem not_isBlank_of_isDigit {c : UInt8} (h : Bytes.isDigit c = true) : isBlank c = false := by
  have hne := ne_of_isDigit h
  simp [isBlank, hne 32 (by decide), hne 9 (by decide), hne 10 (by decide), hne 13 (by decide)]

theorem Follows.not_isDigit {c : UInt8} (h : Follows (c :: s)) : Bytes.isDigit c = false := by
  rcases h c rfl with rfl | rfl | rfl <;> rfl

theorem afterInteger_of_follows (h : Follows s) (negative : Bool) (n : Nat) :
    afterInteger negative n s = .ok (integer negative n, s) := by
  cases s with
  | nil => rfl
  | cons c s => rcases h c rfl with rfl | rfl | rfl <;> rfl

theorem digit_byte {c : Char} (h : c.isDigit = true) :
    String.utf8EncodeChar c = [UInt8.ofNat c.toNat] ∧ Bytes.isDigit (UInt8.ofNat c.toNat) = true ∧
      digitValue (UInt8.ofNat c.toNat) = Numeral.digit c ∧
        (UInt8.ofNat c.toNat = 48 → c = '0') := by
  have all : ∀ n < 58, 48 ≤ n → Bytes.isDigit (UInt8.ofNat n) = true ∧
      digitValue (UInt8.ofNat n) = n - 48 ∧
        (UInt8.ofNat n = 48 → Char.ofNat n = '0') := by decide
  simp only [Char.isDigit, Bool.and_eq_true, decide_eq_true_eq] at h
  have hle : 48 ≤ c.toNat := UInt32.le_iff_toNat_le.mp h.1
  have hlt : c.toNat ≤ 57 := UInt32.le_iff_toNat_le.mp h.2
  obtain ⟨hdigit, hvalue, hzero⟩ := all c.toNat (by omega) hle
  rw [Char.ofNat_toNat] at hzero
  refine ⟨?_, hdigit, hvalue, hzero⟩
  rcases Bytes.utf8EncodeChar_cases c with ⟨-, hone⟩ | ⟨hbig, -⟩
  · exact hone
  · omega

theorem integerDigits_append {ds : List Char} (hds : ∀ c ∈ ds, c.isDigit = true)
    (hvalue : Numeral.value n ds < digitsBound) (hs : Follows s) (negative : Bool) :
    integerDigits negative n (Bytes.ofChars ds ++ s) =
      .ok (integer negative (Numeral.value n ds), s) := by
  induction ds generalizing n with
  | nil =>
    cases s with
    | nil => rfl
    | cons c s =>
      have hafter := afterInteger_of_follows hs negative n
      rw [show Bytes.ofChars [] ++ c :: s = c :: s from rfl, integerDigits,
        if_neg (by simp [hs.not_isDigit])]
      exact hafter
  | cons d ds ih =>
    obtain ⟨hbytes, hdigit, hnext, -⟩ := digit_byte (hds d (by simp))
    have hstep : Numeral.value n (d :: ds) = Numeral.value (n * 10 + Numeral.digit d) ds := rfl
    have hle := Numeral.le_value (n * 10 + Numeral.digit d) ds
    rw [hstep] at hvalue ⊢
    rw [Bytes.ofChars_cons, hbytes, List.append_assoc, List.singleton_append, integerDigits,
      if_pos hdigit]
    dsimp only
    rw [hnext, if_pos (by omega)]
    exact ih (fun c hc => hds c (by simp [hc])) hvalue

/-- A numeral above zero does not begin with a zero. -/
theorem exists_toDigits_cons (h : 0 < n) :
    ∃ c cs, Nat.toDigits 10 n = c :: cs ∧ c ≠ '0' := by
  induction n using Nat.strong_induction_on with
  | _ n ih =>
    by_cases hn : n < 10
    · rw [Nat.toDigits_of_lt_base hn]
      refine ⟨_, _, rfl, ?_⟩
      rw [ne_eq, Nat.digitChar_eq_zero]
      omega
    · obtain ⟨c, cs, hcs, hc⟩ := ih (n / 10) (by omega) (by omega)
      rw [Nat.toDigits_of_base_le (by decide) (by omega), hcs]
      exact ⟨c, _, rfl, hc⟩

theorem number_toDigits (h : n < digitsBound) (hs : Follows s) (negative : Bool) :
    number negative (Bytes.ofChars (Nat.toDigits 10 n) ++ s) = .ok (integer negative n, s) := by
  rcases Nat.eq_zero_or_pos n with rfl | hn
  · have hzero : Bytes.ofChars (Nat.toDigits 10 0) = [48] := by decide
    rw [hzero]
    cases s with
    | nil => rfl
    | cons c s =>
      have hafter := afterInteger_of_follows hs negative 0
      rw [List.singleton_append, number, if_pos rfl]
      simp only [hs.not_isDigit, Bool.false_eq_true, if_false]
      exact hafter
  · obtain ⟨c, cs, hdigits, hc⟩ := exists_toDigits_cons hn
    have hds : ∀ d ∈ Nat.toDigits 10 n, d.isDigit = true := fun d hd =>
      Nat.isDigit_of_mem_toDigits (by decide) (by decide) hd
    have hvalue : Numeral.value 0 (Nat.toDigits 10 n) = n := by
      rw [Numeral.value_eq_ofDigitChars, Nat.ofDigitChars_ten_toDigits]
    rw [hdigits] at hds hvalue ⊢
    obtain ⟨hbytes, hdigit, hfirst, hzero⟩ := digit_byte (hds c (by simp))
    have hstart : Numeral.value 0 (c :: cs) = Numeral.value (Numeral.digit c) cs := by
      rw [Numeral.value, List.foldl_cons, Nat.zero_mul, Nat.zero_add]
      rfl
    rw [hstart] at hvalue
    rw [Bytes.ofChars_cons, hbytes, List.append_assoc, List.singleton_append]
    unfold number
    dsimp only
    rw [if_neg fun h => hc (hzero h), if_pos hdigit, hfirst, ← hvalue]
    exact integerDigits_append (fun d hd => hds d (by simp [hd])) (by rw [hvalue]; exact h) hs
      negative

theorem exists_ofChars_toDigits (n : Nat) :
    ∃ c rest, Bytes.ofChars (Nat.toDigits 10 n) = c :: rest ∧ Bytes.isDigit c = true := by
  obtain ⟨c, cs, hdigits⟩ := List.exists_cons_of_ne_nil (Nat.toDigits_ne_nil (n := n) (b := 10))
  have hc : c ∈ Nat.toDigits 10 n := by rw [hdigits]; exact List.mem_cons_self
  obtain ⟨hbytes, hdigit, -⟩ :=
    digit_byte (Nat.isDigit_of_mem_toDigits (by decide) (by decide) hc)
  rw [hdigits, Bytes.ofChars_cons, hbytes]
  exact ⟨_, _, rfl, hdigit⟩

/-- A number begins with a digit, or with a minus sign and a digit, and it is read again. -/
theorem number_text {n : Int} (h : isExact n = true) (hs : Follows s) :
    (∃ c rest, Bytes.ofText (Number.integer n).text = c :: rest ∧ Bytes.isDigit c = true ∧
      number false (c :: rest ++ s) = .ok (.integer n, s)) ∨
    ∃ rest, Bytes.ofText (Number.integer n).text = 45 :: rest ∧
      number true (rest ++ s) = .ok (.integer n, s) := by
  have hbound : digitsBound = 18446744073709551616 := by decide
  have hleast : Nat.pow 2 63 = 9223372036854775808 := by decide
  simp only [isExact, Bool.and_eq_true, decide_eq_true_eq] at h
  have htext : (Number.integer n).text = n.repr := rfl
  rw [htext, Int.repr_eq_if]
  split
  · left
    rename_i hpos
    have hnumber := number_toDigits (n := n.toNat) (by omega) hs false
    have hinteger : integer false n.toNat = .integer n := by
      simp [integer, Int.toNat_of_nonneg hpos]
    obtain ⟨c, rest, hbytes, hdigit⟩ := exists_ofChars_toDigits n.toNat
    rw [Bytes.ofText_eq_ofChars, Nat.toList_repr, hbytes]
    rw [hbytes, hinteger] at hnumber
    exact ⟨c, rest, rfl, hdigit, hnumber⟩
  · right
    have hnumber := number_toDigits (n := (-n).toNat) (by omega) hs true
    have hinteger : integer true (-n).toNat = .integer n := by
      rw [integer, if_neg (by decide), if_pos (by omega)]
      congr
      omega
    rw [hinteger] at hnumber
    refine ⟨_, ?_, hnumber⟩
    rw [Bytes.ofText_append, Bytes.ofText_eq_ofChars (-n).toNat.repr, Nat.toList_repr]
    rfl

end LanguageServer.Json.Scan
