import LanguageServer.Json.Scan.Collection
import LanguageServer.Json.Scan.Number

namespace LanguageServer.Json.Scan

/-- A value that is neither a list nor an object, at its first byte. -/
def scalar : Bytes → Scan Value
  | [] => .error (.within .endOfValue [])
  | c :: s =>
    if c = 110 then (literal (Bytes.ofText "ull") s).map (.null, ·)
    else if c = 116 then (literal (Bytes.ofText "rue") s).map (.bool true, ·)
    else if c = 102 then (literal (Bytes.ofText "alse") s).map (.bool false, ·)
    else if c = 45 then (number true s).map .number
    else if Bytes.isDigit c then (number false (c :: s)).map .number
    else if c = 34 then (text s).map .text
    else .error (.within .expectedValue (c :: s))

/-- A value. Lists and objects are read if there is a way to read what lies in them. -/
def valueWith (inner : Option (Scanner Value)) (s : Bytes) : Scan Value :=
  match skipBlank s with
  | [] => .error (.within .endOfValue [])
  | c :: rest =>
    if c = 91 then
      match inner with
      | none => .error (.within .tooDeep (c :: rest))
      | some item => (inList (items item true [] rest)).map .list
    else if c = 123 then
      match inner with
      | none => .error (.within .tooDeep (c :: rest))
      | some item =>
        (inObject (members (fun key done => item.afterColon.map fun v => (key, v) :: done)
          true [] rest)).map fun ms => .ofMembers ms.reverse
    else scalar (c :: rest)

theorem length_scalar_lt {s r : Bytes} {v : Value} (h : scalar s = .ok (v, r)) :
    r.length < s.length := by
  have lit {bs t u : Bytes} {w x : Value}
      (h : (literal bs t).map (w, ·) = .ok (x, u)) : u.length ≤ t.length := by
    cases hl : literal bs t with
    | error f =>
      rw [hl] at h
      cases h
    | ok q =>
      rw [hl] at h
      cases h
      exact length_literal_le hl
  unfold scalar at h
  split at h
  · cases h
  · rename_i c s
    repeat' split at h
    · have := lit h
      simp only [List.length_cons]
      omega
    · have := lit h
      simp only [List.length_cons]
      omega
    · have := lit h
      simp only [List.length_cons]
      omega
    · obtain ⟨_, hn, -⟩ := of_map_eq_ok h
      have := length_number_lt hn
      simp only [List.length_cons]
      omega
    · obtain ⟨_, hn, -⟩ := of_map_eq_ok h
      exact length_number_lt hn
    · obtain ⟨_, ht, -⟩ := of_map_eq_ok h
      have := length_text_lt ht
      simp only [List.length_cons]
      omega
    · cases h

theorem length_valueWith_lt {inner : Option (Scanner Value)} {s r : Bytes} {v : Value}
    (h : valueWith inner s = .ok (v, r)) : r.length < s.length := by
  have hs := length_skipBlank_le s
  unfold valueWith at h
  split at h
  · cases h
  · rename_i c rest hc
    rw [hc, List.length_cons] at hs
    split at h
    · split at h
      · cases h
      · obtain ⟨_, hl, -⟩ := of_map_eq_ok h
        obtain ⟨_, hi, he⟩ := of_enclosed_eq_ok hl
        have := length_items_le hi
        have := length_endList_lt he
        omega
    · split at h
      · split at h
        · cases h
        · obtain ⟨_, hl, -⟩ := of_map_eq_ok h
          obtain ⟨_, hi, he⟩ := of_enclosed_eq_ok hl
          have := length_members_le hi
          have := length_endObject_lt he
          omega
      · have := length_scalar_lt h
        simp only [List.length_cons] at this
        omega

/-- A value whose lists and objects lie at most `depth` within one another. -/
def value : (depth : Nat) → Scanner Value
  | 0 => ⟨valueWith none, length_valueWith_lt⟩
  | depth + 1 => ⟨valueWith (some (value depth)), length_valueWith_lt⟩

end LanguageServer.Json.Scan
