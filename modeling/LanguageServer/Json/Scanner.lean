import LanguageServer.Json.Fault

namespace LanguageServer.Json

/-- What is read from the start of some bytes, and the bytes after it. -/
abbrev Scan (α : Type) := Except Fault (α × Bytes)

/-- A way to read something from the start of some bytes that never reads nothing. -/
structure Scanner (α : Type) where
  run : Bytes → Scan α
  shrinks : ∀ {s a r}, run s = .ok (a, r) → r.length < s.length

namespace Scan

def map {α β : Type} (f : α → β) : Scan α → Scan β
  | .ok (a, r) => .ok (f a, r)
  | .error e => .error e

theorem of_map_eq_ok {α β : Type} {f : α → β} {x : Scan α} {b : β} {r : Bytes}
    (h : x.map f = .ok (b, r)) : ∃ a, x = .ok (a, r) ∧ f a = b := by
  match x, h with
  | .ok (a, r'), h =>
    cases h
    exact ⟨a, rfl, rfl⟩

end Scan

namespace Scanner

def map {α β : Type} (f : α → β) (p : Scanner α) : Scanner β where
  run s := (p.run s).map f
  shrinks h := by
    obtain ⟨a, ha, -⟩ := Scan.of_map_eq_ok h
    exact p.shrinks ha

/-- Refuses whatever stands there. -/
def refuse {α : Type} (fault : Bytes → Fault) : Scanner α where
  run s := .error (fault s)
  shrinks h := by cases h

end Scanner

namespace Scan

/-- Space, tab, line feed and carriage return. -/
def isBlank (b : UInt8) : Bool := b = 32 || b = 9 || b = 10 || b = 13

def skipBlank (s : Bytes) : Bytes := s.dropWhile isBlank

theorem length_skipBlank_le (s : Bytes) : (skipBlank s).length ≤ s.length :=
  (List.dropWhile_sublist _).length_le

/-- The part of a literal behind its first byte. -/
def literal : Bytes → Bytes → Except Fault Bytes
  | [], s => .ok s
  | _ :: _, [] => .error (.before .endOfValue [])
  | b :: bs, c :: s => if c = b then literal bs s else .error (.before .expectedLiteral s)

theorem length_literal_le {bs s r : Bytes} (h : literal bs s = .ok r) : r.length ≤ s.length := by
  induction bs generalizing s with
  | nil =>
    cases h
    exact Nat.le_refl _
  | cons b bs ih =>
    cases s with
    | nil => cases h
    | cons c s =>
      unfold literal at h
      split at h
      · have := ih h
        simp only [List.length_cons]
        omega
      · cases h

/-- Goes to the next item of a list, or tells that the list ends here. -/
def nextItem (first : Bool) (s : Bytes) : Except Fault (Option Bytes) :=
  match skipBlank s with
  | [] => .error (.within .endOfList [])
  | c :: rest =>
    if c = 93 then .ok none
    else if first then .ok (some (c :: rest))
    else if c = 44 then
      match skipBlank rest with
      | [] => .error (.within .endOfValue [])
      | d :: more =>
        if d = 93 then .error (.within .trailingComma (d :: more)) else .ok (some (d :: more))
    else .error (.within .expectedListSeparator (c :: rest))

/-- Goes behind the opening quotation mark of the next name, or tells that the object ends here. -/
def nextKey (first : Bool) (s : Bytes) : Except Fault (Option Bytes) :=
  match skipBlank s with
  | [] => .error (.within .endOfObject [])
  | c :: rest =>
    if c = 125 then .ok none
    else if first then
      if c = 34 then .ok (some rest) else .error (.within .keyNotText (c :: rest))
    else if c = 44 then
      match skipBlank rest with
      | [] => .error (.within .endOfValue [])
      | d :: more =>
        if d = 34 then .ok (some more)
        else if d = 125 then .error (.within .trailingComma (d :: more))
        else .error (.within .keyNotText (d :: more))
    else .error (.within .expectedMemberSeparator (c :: rest))

/-- Goes behind the colon after a name. -/
def colon (s : Bytes) : Except Fault Bytes :=
  match skipBlank s with
  | [] => .error (.within .endOfObject [])
  | c :: rest => if c = 58 then .ok rest else .error (.within .expectedColon (c :: rest))

/-- Goes behind the bracket that closes a list. -/
def endList (s : Bytes) : Except Fault Bytes :=
  match skipBlank s with
  | [] => .error (.within .endOfList [])
  | c :: rest =>
    if c = 93 then .ok rest
    else if c = 44 then
      match skipBlank rest with
      | [] => .error (.within .trailingBytes [])
      | d :: more =>
        if d = 93 then .error (.within .trailingComma (d :: more))
        else .error (.within .trailingBytes (d :: more))
    else .error (.within .trailingBytes (c :: rest))

/-- How far the end of a list is looked for after a fault in it. -/
def passList (s : Bytes) : Bytes :=
  match skipBlank s with
  | [] => []
  | c :: rest => if c = 93 then rest else if c = 44 then skipBlank rest else c :: rest

/-- Goes behind the brace that closes an object. -/
def endObject (s : Bytes) : Except Fault Bytes :=
  match skipBlank s with
  | [] => .error (.within .endOfObject [])
  | c :: rest =>
    if c = 125 then .ok rest
    else if c = 44 then .error (.within .trailingComma (c :: rest))
    else .error (.within .trailingBytes (c :: rest))

/-- How far the end of an object is looked for after a fault in it. -/
def passObject (s : Bytes) : Bytes :=
  match skipBlank s with
  | [] => []
  | c :: rest => if c = 125 then rest else c :: rest

/-- The content of brackets or braces, with what closes them. -/
def enclosed {α : Type} (close : Bytes → Except Fault Bytes) (pass : Bytes → Bytes) :
    Scan α → Scan α
  | .error f => .error (f.settle pass)
  | .ok (a, s) =>
    match close s with
    | .error f => .error f
    | .ok r => .ok (a, r)

def inList {α : Type} : Scan α → Scan α := enclosed endList passList

def inObject {α : Type} : Scan α → Scan α := enclosed endObject passObject

theorem length_nextItem_le {first : Bool} {s r : Bytes} (h : nextItem first s = .ok (some r)) :
    r.length ≤ s.length := by
  have hs := length_skipBlank_le s
  unfold nextItem at h
  split at h
  · cases h
  · rename_i c rest hc
    rw [hc, List.length_cons] at hs
    split at h
    · cases h
    · split at h
      · cases h
        exact hs
      · split at h
        · have hr := length_skipBlank_le rest
          split at h
          · cases h
          · rename_i d more hd
            rw [hd] at hr
            split at h
            · cases h
            · cases h
              omega
        · cases h

theorem length_nextKey_lt {first : Bool} {s r : Bytes} (h : nextKey first s = .ok (some r)) :
    r.length < s.length := by
  have hs := length_skipBlank_le s
  unfold nextKey at h
  split at h
  · cases h
  · rename_i c rest hc
    rw [hc, List.length_cons] at hs
    split at h
    · cases h
    · split at h
      · split at h
        · cases h
          omega
        · cases h
      · split at h
        · have hr := length_skipBlank_le rest
          split at h
          · cases h
          · rename_i d more hd
            rw [hd, List.length_cons] at hr
            split at h
            · cases h
              omega
            · split at h <;> cases h
        · cases h

theorem length_colon_lt {s r : Bytes} (h : colon s = .ok r) : r.length < s.length := by
  have hs := length_skipBlank_le s
  unfold colon at h
  split at h
  · cases h
  · rename_i c rest hc
    rw [hc, List.length_cons] at hs
    split at h
    · cases h
      omega
    · cases h

theorem length_endList_lt {s r : Bytes} (h : endList s = .ok r) : r.length < s.length := by
  have hs := length_skipBlank_le s
  unfold endList at h
  split at h
  · cases h
  · rename_i c rest hc
    rw [hc, List.length_cons] at hs
    split at h
    · cases h
      omega
    · split at h
      · split at h
        · cases h
        · split at h <;> cases h
      · cases h

theorem length_endObject_lt {s r : Bytes} (h : endObject s = .ok r) : r.length < s.length := by
  have hs := length_skipBlank_le s
  unfold endObject at h
  split at h
  · cases h
  · rename_i c rest hc
    rw [hc, List.length_cons] at hs
    split at h
    · cases h
      omega
    · split at h <;> cases h

theorem of_enclosed_eq_ok {α : Type} {close : Bytes → Except Fault Bytes}
    {pass : Bytes → Bytes} {x : Scan α} {a : α} {r : Bytes}
    (h : enclosed close pass x = .ok (a, r)) : ∃ s, x = .ok (a, s) ∧ close s = .ok r := by
  match x, h with
  | .ok (b, s), h =>
    unfold enclosed at h
    dsimp only at h
    split at h
    · cases h
    · rename_i hr
      cases h
      exact ⟨s, rfl, hr⟩

end Scan

end LanguageServer.Json
