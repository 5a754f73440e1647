import LanguageServer.Regex.Primitive

namespace LanguageServer.Regex

/-- How deep several things are nested that stand side by side. A single one makes no level of its
own. -/
def joinedHeight : List Nat → Nat
  | [] => 0
  | [h] => h
  | hs => hs.foldl max 0 + 1

/-- The members of a set between brackets, as far as they have been read. -/
structure Members where
  /-- How deep each of them is nested. -/
  heights : List Nat := []
  /-- How deep that is nested which stands before an operator. -/
  left : Option Nat := none
  deriving DecidableEq

namespace Members

def add (m : Members) (height : Nat) : Members := { m with heights := height :: m.heights }

def height (m : Members) : Nat :=
  match m.left with
  | none => joinedHeight m.heights
  | some l => max l (joinedHeight m.heights) + 1

/-- The members behind an operator. Operators of all kinds count from the left. -/
def operator (m : Members) : Members := { left := some m.height }

end Members

/-- The names of sets of ASCII characters. -/
def asciiNames : List String :=
  ["alnum", "alpha", "ascii", "blank", "cntrl", "digit", "graph", "lower", "print", "punct",
    "space", "upper", "word", "xdigit"]

/-- A named set of ASCII characters behind its bracket, and whether it is negated. -/
def asciiSet? : List Char → Option (Bool × List Char)
  | ':' :: '^' :: cs => named true cs
  | ':' :: cs => named false cs
  | _ => none
where
  named (negated : Bool) (cs : List Char) : Option (Bool × List Char) :=
    let name := cs.takeWhile (· ≠ ':')
    match cs.drop name.length with
    | ':' :: ']' :: rest =>
      if String.ofList name ∈ asciiNames then some (negated, rest) else none
    | _ => none

def isLiteralMember (f : Flags) (c : Char) : Bool := (Primitive.literal c false).isMember f

/-- Whether a set can hold a named set. The case of letters is unknown, and what is not ASCII is
not UTF-8 as bytes. -/
def isSetMember (f : Flags) (negated : Bool) : Bool := if f.unicode then !f.ignoreCase else !negated

/-- The signs at the start of a set which stand for themselves only there. -/
def leadingSigns (f : Flags) (heights : List Nat) (cs : List Char) :
    Option (List Nat × List Char) :=
  match cs with
  | [] => none
  | c :: rest =>
    if c = '-' then
      if isLiteralMember f c then leadingSigns f (0 :: heights) (f.skip rest) else none
    else if c = ']' ∧ heights = [] then
      if isLiteralMember f c then some ([0], f.skip rest) else none
    else some (heights, c :: rest)
termination_by cs.length
decreasing_by
  have := f.length_skip_le rest
  simp only [List.length_cons]
  omega

/-- The start of a set behind its bracket. Only characters can be negated. -/
def openSet (f : Flags) (cs : List Char) : Option (List Nat × List Char) :=
  match f.skip cs with
  | '^' :: rest => if f.unicode then leadingSigns f [] (f.skip rest) else none
  | rest => leadingSigns f [] rest

def member (f : Flags) : List Char → Option (Primitive × List Char)
  | [] => none
  | '\\' :: cs => escape f cs
  | c :: cs => some (.literal c false, cs)

/-- What follows a member, or a range with two members for its ends. A minus sign before the end of
the set or before another one makes no range. -/
def memberOrRange (f : Flags) (cs : List Char) : Option (List Char) :=
  match member f cs with
  | none => none
  | some (p, rest) =>
    let alone (rest : List Char) : Option (List Char) :=
      if p.isMember f then some rest else none
    match f.skip rest with
    | [] => none
    | '-' :: more =>
      if f.peek more = some ']' ∨ f.peek more = some '-' then alone ('-' :: more)
      else
        match member f (f.skip more) with
        | none => none
        | some (q, rest) =>
          match p, q with
          | .literal a _, .literal b _ =>
            if p.isMember f ∧ q.isMember f ∧ a ≤ b then some rest else none
          | _, _ => none
    | c :: rest => alone (c :: rest)

theorem length_named_le {negated b : Bool} {cs rest : List Char}
    (h : asciiSet?.named negated cs = some (b, rest)) : rest.length ≤ cs.length := by
  unfold asciiSet?.named at h
  dsimp only at h
  split at h
  · rename_i hd
    split at h
    · cases h
      have := congrArg List.length hd
      simp only [List.length_drop, List.length_cons] at this
      omega
    · cases h
  · cases h

theorem length_asciiSet?_le {b : Bool} {cs rest : List Char} (h : asciiSet? cs = some (b, rest)) :
    rest.length ≤ cs.length := by
  unfold asciiSet? at h
  split at h
  · have := length_named_le h
    simp only [List.length_cons]
    omega
  · have := length_named_le h
    simp only [List.length_cons]
    omega
  · cases h

theorem length_leadingSigns_le {f : Flags} {heights hs : List Nat} {cs rest : List Char}
    (h : leadingSigns f heights cs = some (hs, rest)) : rest.length ≤ cs.length := by
  fun_induction leadingSigns f heights cs with
  | case1 => cases h
  | case2 heights tail hm ih =>
    have := ih h
    have := f.length_skip_le tail
    simp only [List.length_cons]
    omega
  | case3 => cases h
  | case4 heights c tail =>
    cases h
    have := f.length_skip_le tail
    simp only [List.length_cons]
    omega
  | case5 => cases h
  | case6 =>
    cases h
    exact Nat.le_refl _

theorem length_openSet_le {f : Flags} {hs : List Nat} {cs rest : List Char}
    (h : openSet f cs = some (hs, rest)) : rest.length ≤ cs.length := by
  have hs := f.length_skip_le cs
  unfold openSet at h
  split at h
  · rename_i tail heq
    rw [heq, List.length_cons] at hs
    split at h
    · have := length_leadingSigns_le h
      have := f.length_skip_le tail
      omega
    · cases h
  · exact Nat.le_trans (length_leadingSigns_le h) hs

theorem length_member_lt {f : Flags} {cs rest : List Char} {p : Primitive}
    (h : member f cs = some (p, rest)) : rest.length < cs.length := by
  unfold member at h
  split at h
  · cases h
  · have := length_escape_lt h
    simp only [List.length_cons]
    omega
  · cases h
    simp

theorem length_memberOrRange_lt {f : Flags} {cs rest : List Char}
    (h : memberOrRange f cs = some rest) : rest.length < cs.length := by
  unfold memberOrRange at h
  split at h
  · cases h
  · rename_i p tail hm
    have hm := length_member_lt hm
    have hs := f.length_skip_le tail
    dsimp only at h
    split at h
    · cases h
    · rename_i more heq
      rw [heq, List.length_cons] at hs
      split at h
      · split at h
        · cases h
          simp only [List.length_cons]
          omega
        · cases h
      · split at h
        · cases h
        · rename_i q after hq
          have := length_member_lt hq
          have := f.length_skip_le more
          split at h
          · split at h
            · cases h
              omega
            · cases h
          · cases h
    · rename_i heq
      rw [heq, List.length_cons] at hs
      split at h
      · cases h
        simp only [List.length_cons]
        omega
      · cases h

/-- Reads the members of a set and what follows them, and says how deep the set is nested. Around
the set there may be others, the innermost one first. -/
def members (f : Flags) (outer : List Members) (m : Members) (cs : List Char) :
    Option (Nat × List Char) :=
  match _h : f.skip cs with
  | [] => none
  | '[' :: rest =>
    match _h₁ : asciiSet? rest with
    | some (negated, rest) =>
      if isSetMember f negated then members f outer (m.add 0) rest else none
    | none =>
      match _h₂ : openSet f rest with
      | none => none
      | some (heights, rest) => members f (m :: outer) { heights } rest
  | ']' :: rest =>
    match outer with
    | [] => some (m.height + 1, rest)
    | o :: outer => members f outer (o.add (m.height + 1)) rest
  | '&' :: '&' :: rest => members f outer m.operator rest
  | '-' :: '-' :: rest => members f outer m.operator rest
  | '~' :: '~' :: rest => members f outer m.operator rest
  | c :: rest =>
    match _h₁ : memberOrRange f (c :: rest) with
    | none => none
    | some rest => members f outer (m.add 0) rest
termination_by cs.length
decreasing_by
  all_goals
    have hs := f.length_skip_le cs
    rw [_h] at hs
    simp only [List.length_cons] at hs
  · have := length_asciiSet?_le _h₁
    omega
  · have := length_openSet_le _h₂
    omega
  · omega
  · omega
  · omega
  · omega
  · have := length_memberOrRange_lt _h₁
    simp only [List.length_cons] at this
    omega

/-- Reads a set behind its bracket. -/
def bracket (f : Flags) (cs : List Char) : Option (Nat × List Char) :=
  match openSet f cs with
  | none => none
  | some (heights, rest) => members f [] { heights } rest

theorem length_members_lt {f : Flags} {outer : List Members} {m : Members} {n : Nat}
    {cs rest : List Char} (h : members f outer m cs = some (n, rest)) :
    rest.length < cs.length := by
  fun_induction members f outer m cs with
  | case2 outer m cs _ _ _ _ hr _ ih
  | case5 outer m cs _ _ _ _ _ hr ih
  | case12 outer m cs _ _ _ _ _ _ _ _ _ hr ih =>
    have := ih h
    have hs := f.length_skip_le cs
    simp only [*, List.length_cons] at hs
    first
      | have := length_asciiSet?_le hr
        omega
      | have := length_openSet_le hr
        omega
      | have := length_memberOrRange_lt hr
        simp only [List.length_cons] at this
        omega
  | case6 m cs rest hcs =>
    cases h
    have hs := f.length_skip_le cs
    simp only [hcs, List.length_cons] at hs
    omega
  | case7 m cs rest hcs o outer ih =>
    have := ih h
    have hs := f.length_skip_le cs
    simp only [hcs, List.length_cons] at hs
    omega
  | case8 outer m cs rest hcs ih
  | case9 outer m cs rest hcs ih
  | case10 outer m cs rest hcs ih =>
    have := ih h
    have hs := f.length_skip_le cs
    simp only [hcs, List.length_cons] at hs
    omega
  | _ => cases h

theorem length_bracket_lt {f : Flags} {n : Nat} {cs rest : List Char}
    (h : bracket f cs = some (n, rest)) : rest.length < cs.length := by
  unfold bracket at h
  split at h
  · cases h
  · rename_i ho
    exact Nat.lt_of_lt_of_le (length_members_lt h) (length_openSet_le ho)

end LanguageServer.Regex
