import LanguageServer.Json.Scan.Collection

namespace LanguageServer.Json.Scan

/-- Digits, one at least, and then an exponent or not. -/
def skipExponent : Bytes → Except Fault Bytes
  | [] => .error (.before .invalidNumber [])
  | c :: s =>
    let start := if c = 43 ∨ c = 45 then s else c :: s
    match start with
    | [] => .error (.before .invalidNumber [])
    | d :: rest =>
      if Bytes.isDigit d then .ok (rest.dropWhile Bytes.isDigit)
      else .error (.before .invalidNumber rest)

def skipFraction : Bytes → Except Fault Bytes
  | [] => .error (.within .invalidNumber [])
  | c :: s =>
    if Bytes.isDigit c then
      match s.dropWhile Bytes.isDigit with
      | [] => .ok []
      | d :: rest => if d = 101 ∨ d = 69 then skipExponent rest else .ok (d :: rest)
    else .error (.within .invalidNumber (c :: s))

def skipAfterInteger : Bytes → Except Fault Bytes
  | [] => .ok []
  | c :: s =>
    if c = 46 then skipFraction s
    else if c = 101 ∨ c = 69 then skipExponent s
    else .ok (c :: s)

/-- Passes over a number behind its sign, whatever its size. -/
def skipNumber : Bytes → Except Fault Bytes
  | [] => .error (.before .invalidNumber [])
  | c :: s =>
    if c = 48 then
      match s with
      | [] => .ok []
      | d :: rest =>
        if Bytes.isDigit d then .error (.within .invalidNumber (d :: rest))
        else skipAfterInteger (d :: rest)
    else if Bytes.isDigit c then skipAfterInteger (s.dropWhile Bytes.isDigit)
    else .error (.before .invalidNumber s)

/-- Passes over what stands behind a backslash. Surrogates need no partner here. -/
def skipEscaped : Bytes → Except Fault Bytes
  | [] => .error (.before .endOfText [])
  | c :: s =>
    match simpleEscape? c with
    | some _ => .ok s
    | none =>
      if c = 117 then
        match hexDigits s with
        | .error f => .error f
        | .ok (_, r) => .ok r
      else .error (.before .invalidEscape s)

theorem length_skipEscaped_lt {s r : Bytes} (h : skipEscaped s = .ok r) :
    r.length < s.length := by
  unfold skipEscaped at h
  split at h
  · cases h
  · split at h
    · cases h
      simp
    · split at h
      · split at h
        · cases h
        · rename_i hx
          cases h
          have := length_hexDigits_le hx
          simp only [List.length_cons]
          omega
      · cases h

/-- Passes over a string behind its opening quotation mark. Its bytes need not be UTF-8. -/
def skipText (s : Bytes) : Except Fault Bytes :=
  match s with
  | [] => .error (.before .endOfText [])
  | c :: s =>
    if c = 34 then .ok s
    else if c = 92 then
      match _h : skipEscaped s with
      | .error f => .error f
      | .ok r => skipText r
    else if c < 32 then .error (.before .controlCharacter (c :: s))
    else skipText s
termination_by s.length
decreasing_by
  · have := length_skipEscaped_lt _h
    simp only [List.length_cons]
    omega
  · simp

/-- Passes over a value that is neither a list nor an object, at its first byte. -/
def skipScalar : Bytes → Except Fault Bytes
  | [] => .error (.within .endOfValue [])
  | c :: s =>
    if c = 110 then literal (Bytes.ofText "ull") s
    else if c = 116 then literal (Bytes.ofText "rue") s
    else if c = 102 then literal (Bytes.ofText "alse") s
    else if c = 45 then skipNumber s
    else if Bytes.isDigit c then skipNumber (c :: s)
    else if c = 34 then skipText s
    else .error (.within .expectedValue (c :: s))

/-- What a value lies in. -/
inductive Container where
  | list
  | object
  deriving DecidableEq

namespace Container

def closer : Container → UInt8
  | .list => 93
  | .object => 125

def endCause : Container → Cause
  | .list => .endOfList
  | .object => .endOfObject

def separatorCause : Container → Cause
  | .list => .expectedListSeparator
  | .object => .expectedMemberSeparator

end Container

/-- Goes to the value of the next item or member of a container. -/
def skipToValue (c : Container) (s : Bytes) : Except Fault Bytes :=
  match c with
  | .list => .ok s
  | .object =>
    match skipBlank s with
    | [] => .error (.within .endOfObject [])
    | q :: rest =>
      if q = 34 then
        match skipText rest with
        | .error f => .error f
        | .ok r => colon r
      else .error (.within .keyNotText (q :: rest))

/-- What is awaited while values are passed over: a value, or in a container its first item or
member, a further one, or its end. The innermost container comes first in `around`. -/
inductive Awaited where
  | value (around : List Container)
  | next (first : Bool) (inner : Container) (outer : List Container)
  deriving DecidableEq

namespace Awaited

/-- What is awaited after a value. With nothing around it, nothing is. -/
def afterValue : List Container → Option Awaited
  | [] => none
  | inner :: outer => some (.next false inner outer)

/-- An item can be awaited where no byte has been used since the end of it was awaited too. -/
def weight : Awaited → Nat
  | .value _ => 0
  | .next _ _ _ => 1

def weight? : Option Awaited → Nat
  | none => 0
  | some a => a.weight

end Awaited

theorem length_skipExponent_lt {s r : Bytes} (h : skipExponent s = .ok r) :
    r.length < s.length := by
  unfold skipExponent at h
  split at h
  · cases h
  · rename_i c s
    dsimp only at h
    split at h
    · cases h
    · rename_i d rest hd
      have hl : rest.length < s.length + 1 := by
        split at hd
        · rw [hd]
          simp only [List.length_cons]
          omega
        · cases hd
          simp
      split at h
      · cases h
        have := (List.dropWhile_sublist Bytes.isDigit (l := rest)).length_le
        simp only [List.length_cons]
        omega
      · cases h

theorem length_skipFraction_lt {s r : Bytes} (h : skipFraction s = .ok r) :
    r.length < s.length := by
  unfold skipFraction at h
  split at h
  · cases h
  · rename_i c s
    split at h
    · have hd := (List.dropWhile_sublist Bytes.isDigit (l := s)).length_le
      split at h
      · cases h
        simp
      · rename_i d rest hr
        rw [hr, List.length_cons] at hd
        simp only [List.length_cons]
        split at h
        · have := length_skipExponent_lt h
          omega
        · cases h
          simp only [List.length_cons]
          omega
    · cases h

theorem length_skipAfterInteger_le {s r : Bytes} (h : skipAfterInteger s = .ok r) :
    r.length ≤ s.length := by
  unfold skipAfterInteger at h
  split at h
  · cases h
    exact Nat.le_refl _
  · split at h
    · have := length_skipFraction_lt h
      simp only [List.length_cons]
      omega
    · split at h
      · have := length_skipExponent_lt h
        simp only [List.length_cons]
        omega
      · cases h
        exact Nat.le_refl _

theorem length_skipNumber_lt {s r : Bytes} (h : skipNumber s = .ok r) :
    r.length < s.length := by
  unfold skipNumber at h
  split at h
  · cases h
  · rename_i c s
    split at h
    · split at h
      · cases h
        simp
      · split at h
        · cases h
        · have := length_skipAfterInteger_le h
          simp only [List.length_cons] at this ⊢
          omega
    · split at h
      · have := length_skipAfterInteger_le h
        have := (List.dropWhile_sublist Bytes.isDigit (l := s)).length_le
        simp only [List.length_cons]
        omega
      · cases h

theorem length_skipText_lt {s r : Bytes} (h : skipText s = .ok r) : r.length < s.length := by
  fun_induction skipText s with
  | case1 => cases h
  | case2 s =>
    cases h
    simp
  | case3 => cases h
  | case4 s r' he hq ih =>
    have := length_skipEscaped_lt he
    have := ih h
    simp only [List.length_cons]
    omega
  | case5 => cases h
  | case6 c s h1 h2 h3 ih =>
    have := ih h
    simp only [List.length_cons]
    omega

theorem length_skipScalar_lt {s r : Bytes} (h : skipScalar s = .ok r) :
    r.length < s.length := by
  unfold skipScalar at h
  split at h
  · cases h
  · rename_i c s
    simp only [List.length_cons]
    repeat' split at h
    · have := length_literal_le h
      omega
    · have := length_literal_le h
      omega
    · have := length_literal_le h
      omega
    · have := length_skipNumber_lt h
      omega
    · have := length_skipNumber_lt h
      simpa using this
    · have := length_skipText_lt h
      omega
    · cases h

theorem length_skipToValue_le {c : Container} {s r : Bytes} (h : skipToValue c s = .ok r) :
    r.length ≤ s.length := by
  have hs := length_skipBlank_le s
  unfold skipToValue at h
  split at h
  · cases h
    exact Nat.le_refl _
  · split at h
    · cases h
    · rename_i q rest hq
      rw [hq, List.length_cons] at hs
      split at h
      · split at h
        · cases h
        · rename_i ht
          have := length_skipText_lt ht
          have := length_colon_lt h
          omega
      · cases h

/-- Passes over one scalar, opening, separator or closing. -/
def Awaited.step (a : Awaited) (s : Bytes) : Scan (Option Awaited) :=
  match a with
  | .value around =>
    match skipBlank s with
    | [] => .error (.within .endOfValue [])
    | c :: rest =>
      if c = 91 then .ok (some (.next true .list around), rest)
      else if c = 123 then .ok (some (.next true .object around), rest)
      else
        match skipScalar (c :: rest) with
        | .error f => .error f
        | .ok r => .ok (afterValue around, r)
  | .next first inner outer =>
    match skipBlank s with
    | [] => .error (.within inner.endCause [])
    | c :: rest =>
      if c = 44 ∧ !first then
        match skipToValue inner rest with
        | .error f => .error f
        | .ok r => .ok (some (.value (inner :: outer)), r)
      else if c = inner.closer then .ok (afterValue outer, rest)
      else if !first then .error (.within inner.separatorCause (c :: rest))
      else
        match skipToValue inner (c :: rest) with
        | .error f => .error f
        | .ok r => .ok (some (.value (inner :: outer)), r)

theorem Awaited.weight?_afterValue_le (around : List Container) :
    weight? (afterValue around) ≤ 1 := by
  cases around <;> simp [afterValue, weight?, weight]

theorem Awaited.size_step_lt {a : Awaited} {o : Option Awaited} {s r : Bytes}
    (h : a.step s = .ok (o, r)) : 2 * r.length + weight? o < 2 * s.length + a.weight := by
  have hs := length_skipBlank_le s
  unfold step at h
  split at h
  · rename_i around
    split at h
    · cases h
    · rename_i c rest hc
      rw [hc, List.length_cons] at hs
      simp only [weight]
      split at h
      · cases h
        simp only [weight?, weight]
        omega
      · split at h
        · cases h
          simp only [weight?, weight]
          omega
        · split at h
          · cases h
          · rename_i hr
            cases h
            have hl := length_skipScalar_lt hr
            rw [List.length_cons] at hl
            have := weight?_afterValue_le around
            omega
  · rename_i first inner outer
    split at h
    · cases h
    · rename_i c rest hc
      rw [hc, List.length_cons] at hs
      simp only [weight]
      split at h
      · split at h
        · cases h
        · rename_i hr
          cases h
          have := length_skipToValue_le hr
          simp only [weight?, weight]
          omega
      · split at h
        · cases h
          have := weight?_afterValue_le outer
          omega
        · split at h
          · cases h
          · split at h
            · cases h
            · rename_i hr
              cases h
              have hl := length_skipToValue_le hr
              rw [List.length_cons] at hl
              simp only [weight?, weight]
              omega

/-- Passes over all that is awaited. Neither depth nor size is limited. -/
def skipThrough (a : Awaited) (s : Bytes) : Except Fault Bytes :=
  match _h : a.step s with
  | .error f => .error f
  | .ok (none, r) => .ok r
  | .ok (some b, r) => skipThrough b r
termination_by 2 * s.length + a.weight
decreasing_by exact Awaited.size_step_lt _h

theorem size_skipThrough_lt {a : Awaited} {s r : Bytes} (h : skipThrough a s = .ok r) :
    2 * r.length < 2 * s.length + a.weight := by
  fun_induction skipThrough a s with
  | case1 => cases h
  | case2 a s r' hr =>
    cases h
    have := Awaited.size_step_lt hr
    omega
  | case3 a s b r' hr ih =>
    have := Awaited.size_step_lt hr
    have := ih h
    simp only [Awaited.weight?] at *
    omega

/-- Passes over one value. -/
def skipValue : Scanner Unit where
  run s :=
    match skipThrough (.value []) s with
    | .error f => .error f
    | .ok r => .ok ((), r)
  shrinks h := by
    split at h
    · cases h
    · rename_i hr
      cases h
      have := size_skipThrough_lt hr
      simp only [Awaited.weight] at this
      omega

end LanguageServer.Json.Scan
