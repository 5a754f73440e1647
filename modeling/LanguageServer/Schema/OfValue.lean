import LanguageServer.Json.Fault
import LanguageServer.Schema

namespace LanguageServer

open Json (Cause Expected Found Value)

/-- A number as an integer of some width. -/
def Word.ofNumber (w : Width) : Json.Number → Except Cause (Word w)
  | .integer n =>
    match Word.ofInt? w n with
    | some x => .ok x
    | none => .error (.invalidWord n w)
  | .floating x => .error (.invalidType (.number (.floating x)) (.word w))

/-- A value as an id. -/
def RequestId.ofValue? : Value → Option RequestId
  | .number (.integer n) => (Word.ofInt? .i64 n).map .number
  | .text s => some (.text s)
  | _ => none

namespace Members

/-- The record, once all members have been met. The first that is missing is reported. -/
def finish : (ms : Members) → ms.Slots → Except Cause ms.Carrier
  | .nil, _ => .ok ()
  | .required name _ rest, (slot, slots) =>
    match slot with
    | none => .error (.missingMember name)
    | some a =>
      match rest.finish slots with
      | .error e => .error e
      | .ok as => .ok (a, as)
  | .optional _ _ _ rest, (slot, slots) =>
    match rest.finish slots with
    | .error e => .error e
    | .ok as => .ok (slot.getD none, as)
termination_by structural ms => ms

end Members

/-- Reads the items of a list one after the other. -/
def readAll {α : Type} (read : Value → Except Cause α) : List Value → Except Cause (List α)
  | [] => .ok []
  | v :: vs =>
    match read v with
    | .error e => .error e
    | .ok a =>
      match readAll read vs with
      | .error e => .error e
      | .ok as => .ok (a :: as)

/-- Null is nothing, and everything else is read. -/
def readUnlessNull {α : Type} (read : Value → Except Cause α) : Value → Except Cause (Option α)
  | .null => .ok none
  | v =>
    match read v with
    | .error e => .error e
    | .ok a => .ok (some a)

theorem readUnlessNull_of_ne_null {α : Type} (read : Value → Except Cause α) {v : Value}
    (hv : v ≠ .null) : readUnlessNull read v = (read v).map some := by
  unfold readUnlessNull
  split
  · exact absurd rfl hv
  · cases read _ <;> rfl

/-- Meets the members of an object in the order in which they stand. -/
def meetAll {σ : Type} (meet : String → Value → σ → Except Cause σ) :
    List (String × Value) → σ → Except Cause σ
  | [], slots => .ok slots
  | (key, v) :: ms, slots =>
    match meet key v slots with
    | .error e => .error e
    | .ok next => meetAll meet ms next

mutual

/-- Reads a value as one of the given kind. Records stand as objects or as lists. -/
def Schema.ofValue : (s : Schema) → Value → Except Cause s.Carrier
  | .text, .text t => .ok t
  | .text, v => .error (.invalidType (.ofValue v) .text)
  | .word w, .number n => Word.ofNumber w n
  | .word w, v => .error (.invalidType (.ofValue v) (.word w))
  | .id, v =>
    match RequestId.ofValue? v with
    | some i => .ok i
    | none => .error (.noVariant "RequestId")
  | .any, v => .ok v
  | .list item, .list vs => readAll item.ofValue vs
  | .list _, v => .error (.invalidType (.ofValue v) .list)
  | .record _ members, .object ms =>
    match meetAll members.meet ms members.empty with
    | .error e => .error e
    | .ok slots => members.finish slots
  | .record name members, .list vs =>
    match members.ofItems name members.size 0 vs with
    | .error e => .error e
    | .ok (a, left) => if left.isEmpty then .ok a else .error (.tooManyItems vs.length)
  | .record name _, v => .error (.invalidType (.ofValue v) (.record name))
termination_by structural s => s

/-- Meets one member of an object. Names that the record does not know are passed over. -/
def Members.meet : (ms : Members) → String → Value → ms.Slots → Except Cause ms.Slots
  | .nil, _, _, slots => .ok slots
  | .required name s rest, key, v, (slot, slots) =>
    if key = name then
      match slot with
      | some _ => .error (.duplicateMember name)
      | none =>
        match s.ofValue v with
        | .error e => .error e
        | .ok a => .ok (some a, slots)
    else
      match rest.meet key v slots with
      | .error e => .error e
      | .ok next => .ok (slot, next)
  | .optional name _ s rest, key, v, (slot, slots) =>
    if key = name then
      match slot with
      | some _ => .error (.duplicateMember name)
      | none =>
        match readUnlessNull s.ofValue v with
        | .error e => .error e
        | .ok a => .ok (some a, slots)
    else
      match rest.meet key v slots with
      | .error e => .error e
      | .ok next => .ok (slot, next)
termination_by structural ms => ms

/-- Reads members from their places in a list, and gives what is left of it. -/
def Members.ofItems : (ms : Members) → (name : String) → (size index : Nat) → List Value →
    Except Cause (ms.Carrier × List Value)
  | .nil, _, _, _, vs => .ok ((), vs)
  | .required _ _ _, name, size, index, [] => .error (.tooFewItems index name size)
  | .required _ s rest, name, size, index, v :: vs =>
    match s.ofValue v with
    | .error e => .error e
    | .ok a =>
      match rest.ofItems name size (index + 1) vs with
      | .error e => .error e
      | .ok (as, left) => .ok ((a, as), left)
  | .optional _ positional _ rest, name, size, index, [] =>
    if positional then .error (.tooFewItems index name size)
    else
      match rest.ofItems name size (index + 1) [] with
      | .error e => .error e
      | .ok (as, left) => .ok ((none, as), left)
  | .optional _ _ s rest, name, size, index, v :: vs =>
    match readUnlessNull s.ofValue v with
    | .error e => .error e
    | .ok a =>
      match rest.ofItems name size (index + 1) vs with
      | .error e => .error e
      | .ok (as, left) => .ok ((a, as), left)
termination_by structural ms => ms

end

end LanguageServer
