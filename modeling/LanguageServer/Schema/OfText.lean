import LanguageServer.Json.Parser
import LanguageServer.Json.Scan.Skip
import LanguageServer.Schema.OfValue

namespace LanguageServer

open Json (Cause Error Expected Fault Found Scan Scanner Value)

/-- A way to read something from the start of some bytes, and possibly nothing. -/
structure Part (α : Type) where
  run : Bytes → Scan α
  keeps : ∀ {s a r}, run s = .ok (a, r) → r.length ≤ s.length

/-- The two forms of a record, both behind the opening bracket or brace and up to the closing
one. -/
structure RecordForms (α : Type) where
  members : Part α
  items : Part α

namespace Json.Scan

/-- The fault of a value that is not what was expected. A fault in the value itself comes first. -/
def mismatch (expected : Expected) : Bytes → Fault
  | [] => .within .endOfValue []
  | c :: s =>
    if c = 91 then .before (.invalidType .list expected) (c :: s)
    else if c = 123 then .before (.invalidType .object expected) (c :: s)
    else
      match scalar (c :: s) with
      | .error f => f
      | .ok (v, r) => .before (.invalidType (.ofValue v) expected) r

def typedText (s : Bytes) : Scan String :=
  match skipBlank s with
  | [] => .error (mismatch .text [])
  | c :: rest => if c = 34 then text rest else .error (mismatch .text (c :: rest))

/-- A number as an integer of some width. -/
def ofNumber (w : Width) : Scan Number → Scan (Word w)
  | .error f => .error f
  | .ok (n, r) =>
    match Word.ofNumber w n with
    | .error cause => .error (.before cause r)
    | .ok x => .ok (x, r)

def typedWord (w : Width) (s : Bytes) : Scan (Word w) :=
  match skipBlank s with
  | [] => .error (mismatch (.word w) [])
  | c :: rest =>
    if c = 45 then ofNumber w (number true rest)
    else if Bytes.isDigit c then ofNumber w (number false (c :: rest))
    else .error (mismatch (.word w) (c :: rest))

theorem of_ofNumber_eq_ok {w : Width} {p : Scan Number} {x : Word w} {r : Bytes}
    (h : ofNumber w p = .ok (x, r)) : ∃ n, p = .ok (n, r) ∧ Word.ofNumber w n = .ok x := by
  match p, h with
  | .ok (n, r'), h =>
    unfold ofNumber at h
    dsimp only at h
    split at h
    · cases h
    · rename_i hx
      cases h
      exact ⟨n, rfl, hx⟩

theorem length_typedText_lt {s r : Bytes} {t : String} (h : typedText s = .ok (t, r)) :
    r.length < s.length := by
  have hs := length_skipBlank_le s
  unfold typedText at h
  split at h
  · cases h
  · rename_i c rest hc
    rw [hc, List.length_cons] at hs
    split at h
    · have := length_text_lt h
      omega
    · cases h

theorem length_typedWord_lt {w : Width} {s r : Bytes} {x : Word w}
    (h : typedWord w s = .ok (x, r)) : r.length < s.length := by
  have hs := length_skipBlank_le s
  unfold typedWord at h
  split at h
  · cases h
  · rename_i c rest hc
    rw [hc, List.length_cons] at hs
    split at h
    · obtain ⟨n, hn, -⟩ := of_ofNumber_eq_ok h
      have := length_number_lt hn
      omega
    · split at h
      · obtain ⟨n, hn, -⟩ := of_ofNumber_eq_ok h
        have := length_number_lt hn
        rw [List.length_cons] at this
        omega
      · cases h

end Json.Scan

namespace Part

/-- Nothing, which is always there. -/
def unit : Part Unit where
  run s := .ok ((), s)
  keeps h := by
    cases h
    exact Nat.le_refl _

/-- An item of a list, and then the rest. -/
def item {α β : Type} (first : Bool) (p : Scanner α) (missing : Cause) (rest : Part β) :
    Part (α × β) where
  run s :=
    match Scan.nextItem first s with
    | .error f => .error f
    | .ok none => .error (.unsettled missing (Scan.skipBlank s))
    | .ok (some r) =>
      match p.run r with
      | .error f => .error f
      | .ok (a, t) => (rest.run t).map fun b => (a, b)
  keeps h := by
    split at h
    · cases h
    · cases h
    · rename_i hr
      split at h
      · cases h
      · rename_i hp
        obtain ⟨_, hb, -⟩ := Scan.of_map_eq_ok h
        have := Scan.length_nextItem_le hr
        have := p.shrinks hp
        have := rest.keeps hb
        omega

/-- An item of a list, if the list does not end before it, and then the rest. -/
def optionalItem {α β : Type} (first : Bool) (p : Scanner (Option α)) (rest : Part β) :
    Part (Option α × β) where
  run s :=
    match Scan.nextItem first s with
    | .error f => .error f
    | .ok none => (rest.run (Scan.skipBlank s)).map fun b => (none, b)
    | .ok (some r) =>
      match p.run r with
      | .error f => .error f
      | .ok (a, t) => (rest.run t).map fun b => (a, b)
  keeps h := by
    split at h
    · cases h
    · obtain ⟨_, hb, -⟩ := Scan.of_map_eq_ok h
      exact Nat.le_trans (rest.keeps hb) (Scan.length_skipBlank_le _)
    · rename_i hr
      split at h
      · cases h
      · rename_i hp
        obtain ⟨_, hb, -⟩ := Scan.of_map_eq_ok h
        have := Scan.length_nextItem_le hr
        have := p.shrinks hp
        have := rest.keeps hb
        omega

/-- The members of an object, each met as `member` says, and in the end all together. -/
def ofMembers {σ α : Type} (member : String → σ → Scanner σ) (start : σ)
    (finish : σ → Except Cause α) : Part α where
  run s :=
    match Scan.members member true start s with
    | .error f => .error f
    | .ok (last, r) =>
      match finish last with
      | .error cause => .error (.unsettled cause r)
      | .ok a => .ok (a, r)
  keeps h := by
    split at h
    · cases h
    · rename_i hm
      split at h
      · cases h
      · cases h
        exact Scan.length_members_le hm

end Part

namespace Json.Scanner

def typedText : Scanner String := ⟨Scan.typedText, Scan.length_typedText_lt⟩

def typedWord (w : Width) : Scanner (Word w) := ⟨Scan.typedWord w, Scan.length_typedWord_lt⟩

/-- Any value at first, which then has to be an id. -/
def typedId (depth : Nat) : Scanner RequestId where
  run s :=
    match (Scan.value depth).run s with
    | .error f => .error f
    | .ok (v, r) =>
      match RequestId.ofValue? v with
      | none => .error (.unsettled (.noVariant "RequestId") r)
      | some i => .ok (i, r)
  shrinks h := by
    split at h
    · cases h
    · rename_i hv
      split at h
      · cases h
      · cases h
        exact (Scan.value depth).shrinks hv

/-- Null is nothing, and everything else is read. -/
def runUnlessNull {α : Type} (p : Scanner α) (s : Bytes) : Scan (Option α) :=
  match Scan.skipBlank s with
  | [] => (p.run []).map some
  | c :: rest =>
    if c = 110 then
      match Scan.literal (Bytes.ofText "ull") rest with
      | .error f => .error f
      | .ok r => .ok (none, r)
    else (p.run (c :: rest)).map some

theorem length_runUnlessNull_lt {α : Type} (p : Scanner α) {s r : Bytes} {a : Option α}
    (h : runUnlessNull p s = .ok (a, r)) : r.length < s.length := by
  have hs := Scan.length_skipBlank_le s
  unfold runUnlessNull at h
  split at h
  · obtain ⟨_, hp, -⟩ := Scan.of_map_eq_ok h
    have := p.shrinks hp
    simp at this
  · rename_i c rest hc
    rw [hc, List.length_cons] at hs
    split at h
    · split at h
      · cases h
      · rename_i hl
        cases h
        have := Scan.length_literal_le hl
        omega
    · obtain ⟨_, hp, -⟩ := Scan.of_map_eq_ok h
      have := p.shrinks hp
      rw [List.length_cons] at this
      omega

def unlessNull {α : Type} (p : Scanner α) : Scanner (Option α) :=
  ⟨runUnlessNull p, length_runUnlessNull_lt p⟩

/-- A list, if there is a way to read what lies in it. -/
def typedList {α : Type} (inner : Option (Scanner α)) : Scanner (List α) where
  run s :=
    match Scan.skipBlank s with
    | [] => .error (Scan.mismatch .list [])
    | c :: rest =>
      if c = 91 then
        match inner with
        | none => .error (.within .tooDeep (c :: rest))
        | some item => Scan.inList (Scan.items item true [] rest)
      else .error (Scan.mismatch .list (c :: rest))
  shrinks := by
    intro s a r h
    have hs := Scan.length_skipBlank_le s
    split at h
    · cases h
    · rename_i c rest hc
      rw [hc, List.length_cons] at hs
      split at h
      · split at h
        · cases h
        · obtain ⟨_, hi, he⟩ := Scan.of_enclosed_eq_ok h
          have := Scan.length_items_le hi
          have := Scan.length_endList_lt he
          omega
      · cases h

/-- A record in one of its forms, if there is a way to read what lies in it. -/
def record {α : Type} (name : String) (inner : Option (RecordForms α)) : Scanner α where
  run s :=
    match Scan.skipBlank s with
    | [] => .error (Scan.mismatch (.record name) [])
    | c :: rest =>
      if c = 91 then
        match inner with
        | none => .error (.within .tooDeep (c :: rest))
        | some forms => Scan.inList (forms.items.run rest)
      else if c = 123 then
        match inner with
        | none => .error (.within .tooDeep (c :: rest))
        | some forms => Scan.inObject (forms.members.run rest)
      else .error (Scan.mismatch (.record name) (c :: rest))
  shrinks := by
    intro s a r h
    have hs := Scan.length_skipBlank_le s
    split at h
    · cases h
    · rename_i c rest hc
      rw [hc, List.length_cons] at hs
      split at h
      · split at h
        · cases h
        · rename_i forms
          obtain ⟨_, hi, he⟩ := Scan.of_enclosed_eq_ok h
          have := forms.items.keeps hi
          have := Scan.length_endList_lt he
          omega
      · split at h
        · split at h
          · cases h
          · rename_i forms
            obtain ⟨_, hi, he⟩ := Scan.of_enclosed_eq_ok h
            have := forms.members.keeps hi
            have := Scan.length_endObject_lt he
            omega
        · cases h

end Json.Scanner

mutual

/-- Reads a text as something of the given kind, without a value in between. -/
def Schema.scan : (s : Schema) → (depth : Nat) → Scanner s.Carrier
  | .text, _ => .typedText
  | .word w, _ => .typedWord w
  | .id, depth => .typedId depth
  | .any, depth => Scan.value depth
  | .list _, 0 => .typedList none
  | .list item, depth + 1 => .typedList (some (item.scan depth))
  | .record name _, 0 => .record name none
  | .record name members, depth + 1 =>
    .record name (some
      ⟨.ofMembers (fun key slots => members.scanMember depth key slots) members.empty
          members.finish,
        members.scanItems depth name members.size 0⟩)
termination_by structural s => s

/-- Reads what stands behind a name in an object. Names that the record does not know have their
values passed over. -/
def Members.scanMember : (ms : Members) → (depth : Nat) → String → ms.Slots → Scanner ms.Slots
  | .nil, _, _, slots => Scan.skipValue.afterColon.map fun _ => slots
  | .required name s rest, depth, key, (slot, slots) =>
    if key = name then
      match slot with
      | some _ => .refuse (.unsettled (.duplicateMember name))
      | none => (s.scan depth).afterColon.map fun a => (some a, slots)
    else (rest.scanMember depth key slots).map fun next => (slot, next)
  | .optional name _ s rest, depth, key, (slot, slots) =>
    if key = name then
      match slot with
      | some _ => .refuse (.unsettled (.duplicateMember name))
      | none => (s.scan depth).unlessNull.afterColon.map fun a => (some a, slots)
    else (rest.scanMember depth key slots).map fun next => (slot, next)
termination_by structural ms => ms

/-- Reads members from their places in a list. -/
def Members.scanItems : (ms : Members) → (depth : Nat) → (name : String) → (size index : Nat) →
    Part ms.Carrier
  | .nil, _, _, _, _ => .unit
  | .required _ s rest, depth, name, size, index =>
    .item (index = 0) (s.scan depth) (.tooFewItems index name size)
      (rest.scanItems depth name size (index + 1))
  | .optional _ positional s rest, depth, name, size, index =>
    if positional then
      .item (index = 0) (s.scan depth).unlessNull (.tooFewItems index name size)
        (rest.scanItems depth name size (index + 1))
    else
      .optionalItem (index = 0) (s.scan depth).unlessNull
        (rest.scanItems depth name size (index + 1))
termination_by structural ms => ms

end

/-- Reads a whole text as something of the given kind. -/
def Schema.parse (s : Schema) (input : Bytes) : Except Error s.Carrier :=
  (s.scan Json.maxDepth).parse input

end LanguageServer
