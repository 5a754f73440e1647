import LanguageServer.Json.Scanner

namespace LanguageServer.Json.Scan

/-- The value of a hexadecimal digit. -/
def hexValue? (c : UInt8) : Option Nat :=
  if 48 ≤ c ∧ c ≤ 57 then some (c.toNat - 48)
  else if 97 ≤ c ∧ c ≤ 102 then some (c.toNat - 87)
  else if 65 ≤ c ∧ c ≤ 70 then some (c.toNat - 55)
  else none

def hexValues? (a b c d : UInt8) : Option Nat :=
  match hexValue? a, hexValue? b, hexValue? c, hexValue? d with
  | some w, some x, some y, some z => some (((w * 16 + x) * 16 + y) * 16 + z)
  | _, _, _, _ => none

/-- Four hexadecimal digits. -/
def hexDigits : Bytes → Scan Nat
  | a :: b :: c :: d :: s =>
    match hexValues? a b c d with
    | some n => .ok (n, s)
    | none => .error (.before .invalidEscape s)
  | _ => .error (.before .endOfText [])

def isLeading (n : Nat) : Bool := 0xD800 ≤ n && n ≤ 0xDBFF

def isTrailing (n : Nat) : Bool := 0xDC00 ≤ n && n ≤ 0xDFFF

/-- The UTF-8 form of a code point. -/
def codePoint (n : Nat) : Bytes := Bytes.ofText (String.singleton (Char.ofNat n))

/-- The second half of a pair of surrogates, as an escape of its own. -/
def trailingHalf (leading : Nat) : Bytes → Scan Bytes
  | [] => .error (.before .endOfText [])
  | c :: s =>
    if c = 92 then
      match s with
      | [] => .error (.before .endOfText [])
      | d :: more =>
        if d = 117 then
          match hexDigits more with
          | .error f => .error f
          | .ok (n, r) =>
            if isTrailing n then
              .ok (codePoint ((leading - 0xD800) * 0x400 + (n - 0xDC00) + 0x10000), r)
            else .error (.before .unpairedSurrogate r)
        else .error (.before .escapeCutShort more)
    else .error (.before .escapeCutShort s)

/-- The code point behind `u`, which may take two escapes. -/
def unicodeEscape (s : Bytes) : Scan Bytes :=
  match hexDigits s with
  | .error f => .error f
  | .ok (n, r) =>
    if isTrailing n then .error (.before .unpairedSurrogate r)
    else if isLeading n then trailingHalf n r
    else .ok (codePoint n, r)

/-- The bytes that an escape of one letter stands for. -/
def simpleEscape? (c : UInt8) : Option UInt8 :=
  if c = 34 ∨ c = 92 ∨ c = 47 then some c
  else if c = 98 then some 8
  else if c = 102 then some 12
  else if c = 110 then some 10
  else if c = 114 then some 13
  else if c = 116 then some 9
  else none

/-- What stands behind a backslash. -/
def escaped : Bytes → Scan Bytes
  | [] => .error (.before .endOfText [])
  | c :: s =>
    match simpleEscape? c with
    | some b => .ok ([b], s)
    | none => if c = 117 then unicodeEscape s else .error (.before .invalidEscape s)

theorem length_hexDigits_le {s r : Bytes} {n : Nat} (h : hexDigits s = .ok (n, r)) :
    r.length ≤ s.length := by
  unfold hexDigits at h
  split at h
  · split at h
    · cases h
      simp only [List.length_cons]
      omega
    · cases h
  · cases h

theorem length_trailingHalf_le {leading : Nat} {s r b : Bytes}
    (h : trailingHalf leading s = .ok (b, r)) : r.length ≤ s.length := by
  unfold trailingHalf at h
  split at h
  · cases h
  · split at h
    · split at h
      · cases h
      · split at h
        · split at h
          · cases h
          · rename_i hx
            split at h
            · simp only [Except.ok.injEq, Prod.mk.injEq] at h
              obtain ⟨-, rfl⟩ := h
              have := length_hexDigits_le hx
              simp only [List.length_cons]
              omega
            · cases h
        · cases h
    · cases h

theorem length_unicodeEscape_le {s r b : Bytes} (h : unicodeEscape s = .ok (b, r)) :
    r.length ≤ s.length := by
  unfold unicodeEscape at h
  split at h
  · cases h
  · rename_i hx
    have := length_hexDigits_le hx
    split at h
    · cases h
    · split at h
      · have := length_trailingHalf_le h
        omega
      · simp only [Except.ok.injEq, Prod.mk.injEq] at h
        obtain ⟨-, rfl⟩ := h
        exact this

theorem length_escaped_lt {s r b : Bytes} (h : escaped s = .ok (b, r)) :
    r.length < s.length := by
  unfold escaped at h
  split at h
  · cases h
  · split at h
    · cases h
      simp
    · split at h
      · have := length_unicodeEscape_le h
        simp only [List.length_cons]
        omega
      · cases h

/-- The bytes of a string, up to and without the closing quotation mark. Those before `s` are in
`done`, the last one first. -/
def textBytes (done : Bytes) (s : Bytes) : Scan Bytes :=
  match s with
  | [] => .error (.before .endOfText [])
  | c :: s =>
    if c = 34 then .ok (done.reverse, s)
    else if c = 92 then
      match _h : escaped s with
      | .error f => .error f
      | .ok (b, r) => textBytes (b.reverse ++ done) r
    else if c < 32 then .error (.before .controlCharacter s)
    else textBytes (c :: done) s
termination_by s.length
decreasing_by
  · have := length_escaped_lt _h
    simp only [List.length_cons]
    omega
  · simp

/-- The fault of a string whose content is no UTF-8. Its place is counted back from the closing
quotation mark, by as many bytes as the content has from the ill-formed one on, with each escape as
long as what it stands for. -/
def codePointFault (content s after : Bytes) : Fault :=
  let closing := s.length - (after.length + 1)
  .within .invalidCodePoint (s.drop (closing - content.illFormed.length))

/-- A string behind its opening quotation mark. -/
def text (s : Bytes) : Scan String :=
  match textBytes [] s with
  | .error f => .error f
  | .ok (b, r) =>
    match b.toText? with
    | some t => .ok (t, r)
    | none => .error (codePointFault b s r)

theorem length_textBytes_lt {done s r b : Bytes} (h : textBytes done s = .ok (b, r)) :
    r.length < s.length := by
  fun_induction textBytes done s with
  | case1 => cases h
  | case2 done s =>
    cases h
    simp
  | case3 => cases h
  | case4 done s b' r' he hq ih =>
    have := length_escaped_lt he
    have := ih h
    simp only [List.length_cons]
    omega
  | case5 => cases h
  | case6 done c s h1 h2 h3 ih =>
    have := ih h
    simp only [List.length_cons]
    omega

theorem length_text_lt {s r : Bytes} {t : String} (h : text s = .ok (t, r)) :
    r.length < s.length := by
  unfold text at h
  split at h
  · cases h
  · rename_i hb
    have := length_textBytes_lt hb
    split at h
    · cases h
      assumption
    · cases h

end LanguageServer.Json.Scan
