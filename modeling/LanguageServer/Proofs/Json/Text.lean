import Mathlib.Tactic
import LanguageServer.Json.Printer
import LanguageServer.Json.Scan.Text
import LanguageServer.Proofs.Bytes.Characters

namespace LanguageServer.Json.Scan

variable {b : UInt8} {bs done s r : Bytes}

theorem textBytes_quote (done s : Bytes) : textBytes done (34 :: s) = .ok (done.reverse, s) := by
  rw [textBytes]
  rfl

theorem textBytes_escaped (h : escaped s = .ok (bs, r)) (done : Bytes) :
    textBytes done (92 :: s) = textBytes (bs.reverse ++ done) r := by
  rw [textBytes, if_neg (by decide), if_pos rfl]
  split <;> simp_all

theorem textBytes_plain (hquote : b ≠ 34) (hescape : b ≠ 92) (hcontrol : ¬ b < 32)
    (done s : Bytes) : textBytes done (b :: s) = textBytes (b :: done) s := by
  rw [textBytes, if_neg hquote, if_neg hescape, if_neg hcontrol]

theorem escaped_simple {x : UInt8} (h : simpleEscape? x = some b) (s : Bytes) :
    escaped (x :: s) = .ok ([b], s) := by
  simp only [escaped, h]

theorem codePoint_of_lt {n : Nat} (h : n < 128) : codePoint n = [UInt8.ofNat n] := by
  have all : ∀ n < 128, codePoint n = [UInt8.ofNat n] := by decide +kernel
  exact all n h

theorem escaped_control {x y : UInt8} {n : Nat} (h : hexValues? 48 48 x y = some n) (hn : n < 128)
    (s : Bytes) : escaped (117 :: 48 :: 48 :: x :: y :: s) = .ok ([UInt8.ofNat n], s) := by
  have hsimple : simpleEscape? 117 = none := by decide
  have htrailing : isTrailing n = false := by
    simp only [isTrailing, Bool.and_eq_false_iff, decide_eq_false_iff_not]
    omega
  have hleading : isLeading n = false := by
    simp only [isLeading, Bool.and_eq_false_iff, decide_eq_false_iff_not]
    omega
  simp [escaped, hsimple, unicodeEscape, hexDigits, h, htrailing, hleading, codePoint_of_lt hn]

theorem hexValues?_hexDigit {n : Nat} (h : n < 128) :
    hexValues? 48 48 (hexDigit (UInt8.ofNat n / 16)) (hexDigit (UInt8.ofNat n % 16)) = some n := by
  have all : ∀ n < 128, hexValues? 48 48 (hexDigit (UInt8.ofNat n / 16))
      (hexDigit (UInt8.ofNat n % 16)) = some n := by decide +kernel
  exact all n h

/-- The three ways in which a byte is written. -/
theorem escape_cases (b : UInt8) :
    (∃ x, escape b = [92, x] ∧ simpleEscape? x = some b) ∨
    (∃ x y, escape b = [92, 117, 48, 48, x, y] ∧ hexValues? 48 48 x y = some b.toNat ∧
      b.toNat < 128) ∨
    (escape b = [b] ∧ b ≠ 34 ∧ b ≠ 92 ∧ ¬ b < 32) := by
  unfold escape
  split_ifs with hquote hescape h h h h h hcontrol
  · exact .inl ⟨34, rfl, by rw [hquote]; decide⟩
  · exact .inl ⟨92, rfl, by rw [hescape]; decide⟩
  · exact .inl ⟨98, rfl, by rw [h]; decide⟩
  · exact .inl ⟨102, rfl, by rw [h]; decide⟩
  · exact .inl ⟨110, rfl, by rw [h]; decide⟩
  · exact .inl ⟨114, rfl, by rw [h]; decide⟩
  · exact .inl ⟨116, rfl, by rw [h]; decide⟩
  · have hlt : b.toNat < 128 := (UInt8.lt_iff_toNat_lt.mp hcontrol).trans (by decide)
    have hvalues := hexValues?_hexDigit hlt
    rw [UInt8.ofNat_toNat] at hvalues
    exact .inr (.inl ⟨_, _, rfl, hvalues, hlt⟩)
  · exact .inr (.inr ⟨rfl, hquote, hescape, hcontrol⟩)

theorem textBytes_escape (b : UInt8) (done s : Bytes) :
    textBytes done (escape b ++ s) = textBytes (b :: done) s := by
  rcases escape_cases b with
    ⟨x, hb, hx⟩ | ⟨x, y, hb, hvalues, hlt⟩ | ⟨hb, hquote, hescape, hcontrol⟩
  · rw [hb]
    exact textBytes_escaped (escaped_simple hx s) done
  · have hescaped := escaped_control hvalues hlt s
    rw [UInt8.ofNat_toNat] at hescaped
    rw [hb]
    exact textBytes_escaped hescaped done
  · rw [hb]
    exact textBytes_plain hquote hescape hcontrol done s

theorem textBytes_flatMap_escape (bs done s : Bytes) :
    textBytes done (bs.flatMap escape ++ s) = textBytes (bs.reverse ++ done) s := by
  induction bs generalizing done with
  | nil => rfl
  | cons b bs ih =>
    rw [List.flatMap_cons, List.append_assoc, textBytes_escape, ih, List.reverse_cons,
      List.append_assoc]
    rfl

theorem renderText_append (t : String) (s : Bytes) :
    renderText t ++ s = 34 :: ((Bytes.ofText t).flatMap escape ++ 34 :: s) := by
  simp [renderText]

/-- What is written between quotation marks is read again. -/
theorem text_escape (t : String) (s : Bytes) :
    text ((Bytes.ofText t).flatMap escape ++ 34 :: s) = .ok (t, s) := by
  simp only [text, textBytes_flatMap_escape, textBytes_quote, List.append_nil, List.reverse_reverse,
    Bytes.toText?_ofText]

end LanguageServer.Json.Scan
