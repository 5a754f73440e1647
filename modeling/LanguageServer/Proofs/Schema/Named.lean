import Mathlib.Data.Option.NAry
import LanguageServer.Proofs.Schema.RoundTrip

namespace LanguageServer

open Json (Cause Value)

theorem toOption_eq_some_iff {ε α : Type} {x : Except ε α} {a : α} :
    x.toOption = some a ↔ x = .ok a := by
  cases x <;> simp [Except.toOption]

section Reading

variable {α : Type} (read : Value → Except Cause α)

/-- A member that may be missing. -/
def readSlot (v : Option Value) : Option (Option α) :=
  match v with
  | none => some none
  | some v => (read v).toOption.map some

/-- An optional member may be missing or null. -/
theorem toOption_readUnlessNull (v : Value) :
    (readUnlessNull read v).toOption = readSlot read ((some v).filter fun v => !v.isNull) := by
  by_cases hv : v = .null
  · subst hv
    rfl
  · have hnull : v.isNull = false := by cases v <;> simp_all [Value.isNull]
    rw [readUnlessNull_of_ne_null read hv, Option.filter_some, hnull, Bool.not_false, if_pos rfl,
      readSlot]
    cases read v <;> rfl

end Reading

namespace Members

/-- The record of the members that stand under each name, wherever they stand. -/
def ofNamed : (ms : Members) → (String → Option Value) → Option ms.Carrier
  | .nil, _ => some ()
  | .required name s rest, get =>
    Option.map₂ Prod.mk ((get name).bind fun v => (s.ofValue v).toOption) (rest.ofNamed get)
  | .optional name _ s rest, get =>
    Option.map₂ Prod.mk (readSlot s.ofValue ((get name).filter fun v => !v.isNull))
      (rest.ofNamed get)
termination_by structural ms => ms

theorem ofNamed_congr {get get' : String → Option Value} : (ms : Members) →
    (∀ name ∈ ms.names, get name = get' name) → ms.ofNamed get = ms.ofNamed get'
  | .nil, _ => rfl
  | .required name s rest, h => by
    rw [ofNamed, ofNamed, h name List.mem_cons_self,
      rest.ofNamed_congr fun n hn => h n (List.mem_cons_of_mem name hn)]
  | .optional name _ s rest, h => by
    rw [ofNamed, ofNamed, h name List.mem_cons_self,
      rest.ofNamed_congr fun n hn => h n (List.mem_cons_of_mem name hn)]
termination_by structural ms => ms

/-- A name that the record does not know leaves it as it is. -/
theorem meet_of_notMem {key : String} (v : Value) : (ms : Members) → (slots : ms.Slots) →
    key ∉ ms.names → ms.meet key v slots = .ok slots
  | .nil, slots, _ => rfl
  | .required name s rest, (slot, slots), h => by
    rw [names, List.mem_cons, not_or] at h
    unfold meet
    rw [if_neg h.1, rest.meet_of_notMem v slots h.2]
  | .optional name _ s rest, (slot, slots), h => by
    rw [names, List.mem_cons, not_or] at h
    unfold meet
    rw [if_neg h.1, rest.meet_of_notMem v slots h.2]
termination_by structural ms => ms

end Members

section Meeting

variable {σ τ α : Type} {later : String → Value → τ → Except Cause τ} {name : String}
  {os : List (String × Value)}

/-- Members of other names leave the first slot alone. -/
theorem meetAll_others {meet : String → Value → σ × τ → Except Cause (σ × τ)}
    (hother : ∀ key v slot slots, key ≠ name →
      meet key v (slot, slots) = (later key v slots).map (slot, ·))
    (h : name ∉ os.map Prod.fst) (slot : σ) (slots : τ) :
    meetAll meet os (slot, slots) = (meetAll later os slots).map (slot, ·) := by
  induction os generalizing slots with
  | nil => rfl
  | cons o os ih =>
    rw [List.map_cons, List.mem_cons, not_or] at h
    rw [meetAll, meetAll, hother o.1 o.2 slot slots (Ne.symm h.1)]
    cases later o.1 o.2 slots with
    | error e => rfl
    | ok next => exact ih h.2 next

/-- Each member is met by the first slot or by the other slots, as its name says. -/
theorem toOption_meetAll {read : Value → Except Cause α}
    {meet : String → Value → Option α × τ → Except Cause (Option α × τ)}
    (hhit : ∀ v slots, meet name v (none, slots) = (read v).map fun a => (some a, slots))
    (hother : ∀ key v slot slots, key ≠ name →
      meet key v (slot, slots) = (later key v slots).map (slot, ·))
    (hlater : ∀ v slots, later name v slots = .ok slots)
    (hkeys : (os.map Prod.fst).Nodup) (slots : τ) :
    (meetAll meet os (none, slots)).toOption =
      Option.map₂ Prod.mk (readSlot read (os.lookup name)) (meetAll later os slots).toOption := by
  induction os generalizing slots with
  | nil => rfl
  | cons o os ih =>
    obtain ⟨key, v⟩ := o
    rw [List.map_cons, List.nodup_cons] at hkeys
    rw [meetAll, meetAll]
    by_cases hkey : key = name
    · subst hkey
      rw [hhit, hlater, List.lookup_cons_self, readSlot]
      cases hread : read v with
      | error e => simp [Except.map, Except.toOption]
      | ok a =>
        dsimp only [Except.map]
        rw [meetAll_others hother hkeys.1]
        cases meetAll later os slots <;> rfl
    · have hlookup : ((key, v) :: os).lookup name = os.lookup name := by
        rw [List.lookup_cons, beq_false_of_ne (Ne.symm hkey)]
      rw [hother key v none slots hkey, hlookup]
      cases later key v slots with
      | error e => simp [Except.map, Except.toOption]
      | ok next => exact ih hkeys.2 next

end Meeting

namespace Members

variable {name : String} {positional : Bool} {s : Schema} {rest : Members}
  {os : List (String × Value)}

theorem meet_required_self (v : Value) (slots : rest.Slots) :
    (required name s rest).meet name v (none, slots) =
      (s.ofValue v).map fun a => (some a, slots) := by
  unfold meet
  rw [if_pos rfl]
  cases s.ofValue v <;> rfl

theorem meet_required_other {key : String} (v : Value) (slot : Option s.Carrier)
    (slots : rest.Slots) (hkey : key ≠ name) :
    (required name s rest).meet key v (slot, slots) = (rest.meet key v slots).map (slot, ·) := by
  cases hnext : rest.meet key v slots <;>
    (unfold meet; rw [if_neg hkey, hnext]; rfl)

theorem meet_optional_self (v : Value) (slots : rest.Slots) :
    (optional name positional s rest).meet name v (none, slots) =
      (readUnlessNull s.ofValue v).map fun a => (some a, slots) := by
  unfold meet
  rw [if_pos rfl]
  cases readUnlessNull s.ofValue v <;> rfl

theorem meet_optional_other {key : String} (v : Value) (slot : Option (Option s.Carrier))
    (slots : rest.Slots) (hkey : key ≠ name) :
    (optional name positional s rest).meet key v (slot, slots) =
      (rest.meet key v slots).map (slot, ·) := by
  cases hnext : rest.meet key v slots <;>
    (unfold meet; rw [if_neg hkey, hnext]; rfl)

theorem toOption_finish_required (slot : Option s.Carrier) (slots : rest.Slots) :
    ((required name s rest).finish (slot, slots)).toOption =
      Option.map₂ Prod.mk slot (rest.finish slots).toOption := by
  cases slot with
  | none => rfl
  | some a =>
    rw [finish]
    cases rest.finish slots <;> rfl

theorem toOption_finish_optional (slot : Option (Option s.Carrier)) (slots : rest.Slots) :
    ((optional name positional s rest).finish (slot, slots)).toOption =
      (rest.finish slots).toOption.map (slot.getD none, ·) := by
  rw [finish]
  cases rest.finish slots <;> rfl

/-- Members met in the order in which they stand, and then taken together, are the members by their
names. -/
theorem toOption_meetAll_finish (hkeys : (os.map Prod.fst).Nodup) : (ms : Members) →
    ms.names.Nodup →
    ((meetAll ms.meet os ms.empty).toOption.bind fun slots => (ms.finish slots).toOption) =
      ms.ofNamed (os.lookup ·)
  | .nil, _ => by
    have hnil : meetAll nil.meet os nil.empty = .ok () := by
      clear hkeys
      induction os with
      | nil => rfl
      | cons o os ih => exact ih
    rw [hnil]
    rfl
  | .required name s rest, hnames => by
    rw [names, List.nodup_cons] at hnames
    have ih := rest.toOption_meetAll_finish hkeys hnames.2
    have hmeet : (meetAll (required name s rest).meet os (none, rest.empty)).toOption =
        Option.map₂ Prod.mk (readSlot s.ofValue (os.lookup name))
          (meetAll rest.meet os rest.empty).toOption :=
      toOption_meetAll meet_required_self (fun _ => meet_required_other)
        (fun v slots => rest.meet_of_notMem v slots hnames.1) hkeys rest.empty
    rw [empty]
    rw [hmeet, ofNamed, ← ih]
    cases (meetAll rest.meet os rest.empty).toOption with
    | none => simp
    | some slots =>
      cases os.lookup name with
      | none => rfl
      | some v =>
        rw [readSlot, Option.bind_some]
        cases s.ofValue v with
        | error e => rfl
        | ok a => exact toOption_finish_required (some a) slots
  | .optional name positional s rest, hnames => by
    rw [names, List.nodup_cons] at hnames
    have ih := rest.toOption_meetAll_finish hkeys hnames.2
    have hmeet : (meetAll (optional name positional s rest).meet os (none, rest.empty)).toOption =
        Option.map₂ Prod.mk (readSlot (readUnlessNull s.ofValue) (os.lookup name))
          (meetAll rest.meet os rest.empty).toOption :=
      toOption_meetAll meet_optional_self (fun _ => meet_optional_other)
        (fun v slots => rest.meet_of_notMem v slots hnames.1) hkeys rest.empty
    rw [empty]
    rw [hmeet, ofNamed, ← ih]
    cases (meetAll rest.meet os rest.empty).toOption with
    | none => simp
    | some slots =>
      cases os.lookup name with
      | none => exact toOption_finish_optional none slots
      | some v =>
        rw [readSlot, toOption_readUnlessNull]
        cases readSlot s.ofValue ((some v).filter fun v => !v.isNull) with
        | none => rfl
        | some slot => exact toOption_finish_optional (some slot) slots
termination_by structural ms => ms

end Members

/-- An object is read as the record of its members by their names: their order does not matter, and
neither do members that the record does not know. -/
theorem Schema.ofValue_object_eq_ok_iff {name : String} {members : Members}
    {os : List (String × Value)} {c : members.Carrier} (hnames : members.names.Nodup)
    (hkeys : (os.map Prod.fst).Nodup) :
    Schema.ofValue (.record name members) (.object os) = .ok c ↔
      members.ofNamed (os.lookup ·) = some c := by
  have hread : (Schema.ofValue (.record name members) (.object os)).toOption =
      members.ofNamed (os.lookup ·) := by
    rw [← members.toOption_meetAll_finish hkeys hnames, Schema.ofValue]
    cases meetAll members.meet os members.empty <;> rfl
  rw [← toOption_eq_some_iff, hread]

namespace Members

/-- The fewest items that a record needs when it stands as a list. -/
def fewest : Members → Nat
  | .nil => 0
  | .required _ _ rest => rest.fewest + 1
  | .optional _ positional _ rest =>
    if positional = true ∨ 0 < rest.fewest then rest.fewest + 1 else 0
termination_by structural ms => ms

theorem length_names : (ms : Members) → ms.names.length = ms.size
  | .nil => rfl
  | .required _ _ rest => congrArg (· + 1) rest.length_names
  | .optional _ _ _ rest => congrArg (· + 1) rest.length_names
termination_by structural ms => ms

theorem fewest_le_size : (ms : Members) → ms.fewest ≤ ms.size
  | .nil => Nat.le_refl 0
  | .required _ _ rest => Nat.succ_le_succ rest.fewest_le_size
  | .optional _ _ _ rest => by
    rw [fewest, size]
    split
    · exact Nat.succ_le_succ rest.fewest_le_size
    · exact Nat.zero_le _
termination_by structural ms => ms

theorem ofNamed_cons {name : String} {v : Value} {os : List (String × Value)} {ms : Members}
    (hname : name ∉ ms.names) :
    ms.ofNamed (((name, v) :: os).lookup ·) = ms.ofNamed (os.lookup ·) := by
  refine ms.ofNamed_congr fun key hkey => ?_
  have hne : key ≠ name := fun heq => hname (heq ▸ hkey)
  rw [List.lookup_cons, beq_false_of_ne hne]

theorem map₂_mk_eq_some_iff {α β : Type} {x : Option α} {y : Option β} {a : α} {b : β} :
    Option.map₂ Prod.mk x y = some (a, b) ↔ x = some a ∧ y = some b := by
  cases x <;> cases y <;> simp

section Items

variable {key name : String} {positional : Bool} {s : Schema} {rest : Members}
  {size index : Nat} {v : Value} {vs left : List Value} {as : rest.Carrier}

theorem ofItems_required_cons {a : s.Carrier} :
    (required key s rest).ofItems name size index (v :: vs) = .ok ((a, as), left) ↔
      s.ofValue v = .ok a ∧
        rest.ofItems name size (index + 1) vs = .ok (as, left) := by
  rw [ofItems]
  cases s.ofValue v with
  | error e => simp
  | ok b =>
    cases rest.ofItems name size (index + 1) vs with
    | error e => simp
    | ok p => simp [Prod.ext_iff, and_assoc]

theorem ofItems_optional_cons {a : Option s.Carrier} :
    (optional key positional s rest).ofItems name size index (v :: vs) = .ok ((a, as), left) ↔
      readUnlessNull s.ofValue v = .ok a ∧
        rest.ofItems name size (index + 1) vs = .ok (as, left) := by
  rw [ofItems]
  cases readUnlessNull s.ofValue v with
  | error e => simp
  | ok b =>
    cases rest.ofItems name size (index + 1) vs with
    | error e => simp
    | ok p => simp [Prod.ext_iff, and_assoc]

theorem ofItems_optional_nil {a : Option s.Carrier} :
    (optional key positional s rest).ofItems name size index [] = .ok ((a, as), left) ↔
      positional = false ∧ a = none ∧
        rest.ofItems name size (index + 1) [] = .ok (as, left) := by
  rw [ofItems]
  cases positional with
  | true => simp
  | false =>
    cases rest.ofItems name size (index + 1) [] with
    | error e => simp
    | ok p => simp [Prod.ext_iff, and_assoc, eq_comm]

end Items

/-- Items are read as the members whose names come in their places. -/
theorem ofItems_eq_ok_iff : (ms : Members) → ms.names.Nodup → {name : String} →
    {size index : Nat} → {vs : List Value} → {c : ms.Carrier} →
    (ms.ofItems name size index vs = .ok (c, []) ↔ ms.fewest ≤ vs.length ∧
      vs.length ≤ ms.size ∧ ms.ofNamed ((ms.names.zip vs).lookup ·) = some c)
  | .nil, _, name, size, index, vs, c => by
    cases vs <;> simp [ofItems, fewest, Members.size, ofNamed]
  | .required key s rest, hnames, name, size, index, [], c => by
    simp [ofItems, fewest]
  | .required key s rest, hnames, name, size, index, v :: vs, (a, as) => by
    rw [names, List.nodup_cons] at hnames
    rw [ofItems_required_cons, ← toOption_eq_some_iff, rest.ofItems_eq_ok_iff hnames.2, ofNamed,
      names, List.zip_cons_cons, map₂_mk_eq_some_iff, ofNamed_cons hnames.1, List.lookup_cons_self,
      Option.bind_some, fewest, Members.size, List.length_cons]
    simp only [Nat.add_le_add_iff_right]
    tauto
  | .optional key positional s rest, hnames, name, size, index, [], (a, as) => by
    rw [names, List.nodup_cons] at hnames
    rw [ofItems_optional_nil, rest.ofItems_eq_ok_iff hnames.2, ofNamed, names,
      map₂_mk_eq_some_iff, fewest, List.zip_nil_right, List.zip_nil_right]
    have hslot : readSlot s.ofValue ((List.lookup key []).filter fun v => !v.isNull) = some none :=
      rfl
    rw [hslot, List.length_nil, Option.some_inj]
    split
    · rename_i hplace
      constructor
      · intro h
        obtain ⟨rfl, -, hle, -⟩ := h
        rcases hplace with hplace | hplace
        · cases hplace
        · omega
      · intro h
        have hle := h.1
        omega
    · rename_i hplace
      simp only [not_or, Bool.not_eq_true] at hplace
      constructor
      · intro h
        obtain ⟨-, rfl, -, -, has⟩ := h
        exact ⟨Nat.le_refl 0, Nat.zero_le _, rfl, has⟩
      · intro h
        obtain ⟨-, -, rfl, has⟩ := h
        exact ⟨hplace.1, rfl, by omega, Nat.zero_le _, has⟩
  | .optional key positional s rest, hnames, name, size, index, v :: vs, (a, as) => by
    rw [names, List.nodup_cons] at hnames
    rw [ofItems_optional_cons, ← toOption_eq_some_iff, rest.ofItems_eq_ok_iff hnames.2, ofNamed,
      names, List.zip_cons_cons, map₂_mk_eq_some_iff, ofNamed_cons hnames.1, List.lookup_cons_self,
      toOption_readUnlessNull, fewest, Members.size, List.length_cons]
    have hfewest : (if positional = true ∨ 0 < rest.fewest then rest.fewest + 1 else 0) ≤
        vs.length + 1 ↔ rest.fewest ≤ vs.length := by
      split <;> omega
    rw [hfewest]
    simp only [Nat.add_le_add_iff_right]
    tauto
termination_by structural ms => ms

end Members

theorem Schema.ofValue_list_eq_ok_iff_ofItems {name : String} {members : Members}
    {vs : List Value} {c : members.Carrier} :
    Schema.ofValue (.record name members) (.list vs) = .ok c ↔
      members.ofItems name members.size 0 vs = .ok (c, []) := by
  rw [Schema.ofValue]
  cases members.ofItems name members.size 0 vs with
  | error e => simp
  | ok p =>
    obtain ⟨a, left⟩ := p
    cases left <;> simp

/-- A list is read as the record of its items under the names in their order, if it is neither too
short nor too long. -/
theorem Schema.ofValue_list_eq_ok_iff {name : String} {members : Members} {vs : List Value}
    {c : members.Carrier} (hnames : members.names.Nodup) :
    Schema.ofValue (.record name members) (.list vs) = .ok c ↔ members.fewest ≤ vs.length ∧
      vs.length ≤ members.size ∧ members.ofNamed ((members.names.zip vs).lookup ·) = some c := by
  rw [Schema.ofValue_list_eq_ok_iff_ofItems, members.ofItems_eq_ok_iff hnames]

end LanguageServer
