import LanguageServer.Regex.Flags
import LanguageServer.Text.Alphanumeric

namespace LanguageServer.Regex

/-- What a parenthesis opens. -/
inductive Opening where
  /-- Nothing: it holds flags for the rest of the group around it. -/
  | flags (f : Flags)
  /-- A group with flags of its own, and its name. -/
  | group (f : Flags) (name : Option (List Char))
  deriving DecidableEq

/-- A group is named like a variable, though dots and brackets can stand in its name. -/
def isName : List Char → Bool
  | [] => false
  | c :: cs =>
    (c = '_' || Text.isAlphabetic c) &&
      cs.all fun c => c = '_' || c = '.' || c = '[' || c = ']' || Text.isAlphanumeric c

/-- A group behind the bracket that its name begins with. -/
def namedGroup (f : Flags) (cs : List Char) : Option (Opening × List Char) :=
  let name := cs.takeWhile (· ≠ '>')
  match cs.drop name.length with
  | [] => none
  | _ :: rest => if isName name then some (.group f (some name), rest) else none

/-- Flags behind their question mark, with a group if a colon follows them. -/
def flagGroup (f : Flags) (cs : List Char) : Option (Opening × List Char) :=
  let items := cs.takeWhile fun c => c ≠ ':' && c ≠ ')'
  match f.update items with
  | none => none
  | some g =>
    match cs.drop items.length with
    | [] => none
    | c :: rest =>
      if c = ':' then some (.group g none, rest)
      else if items = [] then none
      else some (.flags g, rest)

/-- What a parenthesis opens and what follows. It cannot open a condition on the text around. -/
def openGroup (f : Flags) (cs : List Char) : Option (Opening × List Char) :=
  match f.skip cs with
  | '?' :: '=' :: _ => none
  | '?' :: '!' :: _ => none
  | '?' :: '<' :: '=' :: _ => none
  | '?' :: '<' :: '!' :: _ => none
  | '?' :: 'P' :: '<' :: rest => namedGroup f rest
  | '?' :: '<' :: rest => namedGroup f rest
  | '?' :: rest => flagGroup f rest
  | rest => some (.group f none, rest)

theorem length_namedGroup_le {f : Flags} {o : Opening} {cs rest : List Char}
    (h : namedGroup f cs = some (o, rest)) : rest.length ≤ cs.length := by
  unfold namedGroup at h
  dsimp only at h
  split at h
  · cases h
  · rename_i hd
    split at h
    · cases h
      have := congrArg List.length hd
      simp only [List.length_drop, List.length_cons] at this
      omega
    · cases h

theorem length_flagGroup_le {f : Flags} {o : Opening} {cs rest : List Char}
    (h : flagGroup f cs = some (o, rest)) : rest.length ≤ cs.length := by
  unfold flagGroup at h
  dsimp only at h
  split at h
  · cases h
  · split at h
    · cases h
    · rename_i hd
      have := congrArg List.length hd
      simp only [List.length_drop, List.length_cons] at this
      split at h
      · cases h
        omega
      · split at h
        · cases h
        · cases h
          omega

theorem length_openGroup_le {f : Flags} {o : Opening} {cs rest : List Char}
    (h : openGroup f cs = some (o, rest)) : rest.length ≤ cs.length := by
  have hs := f.length_skip_le cs
  unfold openGroup at h
  split at h
  · cases h
  · cases h
  · cases h
  · cases h
  · rename_i heq
    rw [heq] at hs
    have := length_namedGroup_le h
    simp only [List.length_cons] at hs
    omega
  · rename_i heq
    rw [heq] at hs
    have := length_namedGroup_le h
    simp only [List.length_cons] at hs
    omega
  · rename_i heq
    rw [heq] at hs
    have := length_flagGroup_le h
    simp only [List.length_cons] at hs
    omega
  · cases h
    exact hs

end LanguageServer.Regex
