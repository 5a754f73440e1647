import LanguageServer.Proofs.Schema.ToValue

namespace LanguageServer

open Json (Cause Value)

mutual

/-- Every record has names of its own for its members. -/
def Schema.isNamed : Schema → Bool
  | .list item => item.isNamed
  | .record _ members => decide members.names.Nodup && members.areNamed
  | _ => true
termination_by structural s => s

def Members.areNamed : Members → Bool
  | .nil => true
  | .required _ s rest => s.isNamed && rest.areNamed
  | .optional _ _ s rest => s.isNamed && rest.areNamed
termination_by structural ms => ms

end

mutual

/-- What comes back of something of the given kind: all but the optional members that stand as
null. -/
def Schema.kept : (s : Schema) → s.Carrier → s.Carrier
  | .text, t => t
  | .word _, x => x
  | .id, i => i
  | .any, v => v
  | .list item, as => as.map item.kept
  | .record _ members, as => members.kept as
termination_by structural s => s

def Members.kept : (ms : Members) → ms.Carrier → ms.Carrier
  | .nil, _ => ()
  | .required _ s rest, (a, as) => (s.kept a, rest.kept as)
  | .optional _ _ s rest, (slot, as) =>
    ((slot.filter fun a => !(s.toValue a).isNull).map s.kept, rest.kept as)
termination_by structural ms => ms

end

theorem Word.ofNumber_val {w : Width} (x : Word w) : Word.ofNumber w (.integer x.val) = .ok x := by
  simp only [Word.ofNumber, Word.ofInt?_val]

theorem RequestId.ofValue?_toValue (i : RequestId) : ofValue? i.toValue = some i := by
  cases i with
  | number n => simp [toValue, ofValue?, Word.ofInt?_val]
  | text s => rfl

theorem readUnlessNull_eq {α : Type} {read : Value → Except Cause α} {v : Value} {a : α}
    (h : read v = .ok a) :
    readUnlessNull read v = .ok (if v.isNull then none else some a) := by
  cases v <;> simp [readUnlessNull, Value.isNull, h]

theorem readAll_map {α β : Type} {read : Value → Except Cause β} {write : α → Value}
    {kept : α → β} (h : ∀ a, read (write a) = .ok (kept a)) (as : List α) :
    readAll read (as.map write) = .ok (as.map kept) := by
  induction as with
  | nil => rfl
  | cons a as ih => simp only [List.map_cons, readAll, h, ih]

/-- Members that the first slot is not for go to the other slots. -/
theorem meetAll_later {σ τ : Type} {meet : String → Value → σ × τ → Except Cause (σ × τ)}
    {later : String → Value → τ → Except Cause τ} {members : List (String × Value)} {slot : σ}
    {slots last : τ}
    (h : ∀ m ∈ members, ∀ slots next, later m.1 m.2 slots = .ok next →
      meet m.1 m.2 (slot, slots) = .ok (slot, next))
    (hlater : meetAll later members slots = .ok last) :
    meetAll meet members (slot, slots) = .ok (slot, last) := by
  induction members generalizing slots with
  | nil =>
    cases hlater
    rfl
  | cons m members ih =>
    rw [meetAll] at hlater
    cases hm : later m.1 m.2 slots with
    | error e =>
      rw [hm] at hlater
      cases hlater
    | ok next =>
      rw [hm] at hlater
      rw [meetAll, h m List.mem_cons_self slots next hm]
      exact ih (fun x hx => h x (List.mem_cons_of_mem m hx)) hlater

namespace Members

variable {name : String} {positional : Bool} {s : Schema} {rest : Members}
  {members : List (String × Value)} {slots last : rest.Slots}

theorem meetAll_required (slot : Option s.Carrier) (hname : name ∉ members.map Prod.fst)
    (h : meetAll rest.meet members slots = .ok last) :
    meetAll (required name s rest).meet members (slot, slots) = .ok (slot, last) := by
  refine meetAll_later (fun m hm slots next hnext => ?_) h
  have hne : m.1 ≠ name := fun heq => hname (heq ▸ List.mem_map_of_mem hm)
  unfold meet
  rw [if_neg hne, hnext]

theorem meetAll_optional (slot : Option (Option s.Carrier)) (hname : name ∉ members.map Prod.fst)
    (h : meetAll rest.meet members slots = .ok last) :
    meetAll (optional name positional s rest).meet members (slot, slots) = .ok (slot, last) := by
  refine meetAll_later (fun m hm slots next hnext => ?_) h
  have hne : m.1 ≠ name := fun heq => hname (heq ▸ List.mem_map_of_mem hm)
  unfold meet
  rw [if_neg hne, hnext]

end Members

mutual

/-- Reading the value that stands for something gives what is kept of it. -/
theorem Schema.ofValue_toValue : (s : Schema) → s.isNamed = true → (c : s.Carrier) →
    s.ofValue (s.toValue c) = .ok (s.kept c)
  | .text, _, c => rfl
  | .word w, _, c => Word.ofNumber_val c
  | .id, _, c => by
    have hid := RequestId.ofValue?_toValue c
    simp only [Schema.ofValue, Schema.toValue, Schema.kept, hid]
  | .any, _, c => rfl
  | .list item, h, c => readAll_map (item.ofValue_toValue h) c
  | .record name members, h, c => by
    rw [Schema.isNamed, Bool.and_eq_true, decide_eq_true_eq] at h
    obtain ⟨slots, hmeet, hfinish⟩ := members.meetAll_toMembers h.1 h.2 c
    rw [Schema.toValue, Schema.ofValue, hmeet]
    exact hfinish
termination_by structural s => s

/-- The members that stand for a record are met, each in its own slot, and make up what is kept of
the record. -/
theorem Members.meetAll_toMembers : (ms : Members) → ms.names.Nodup → ms.areNamed = true →
    (c : ms.Carrier) → ∃ slots, meetAll ms.meet (ms.toMembers c) ms.empty = .ok slots ∧
      ms.finish slots = .ok (ms.kept c)
  | .nil, _, _, _ => ⟨(), rfl, rfl⟩
  | .required name s rest, hnodup, h, (a, as) => by
    rw [Members.areNamed, Bool.and_eq_true] at h
    rw [Members.names, List.nodup_cons] at hnodup
    obtain ⟨slots, hmeet, hfinish⟩ := rest.meetAll_toMembers hnodup.2 h.2 as
    have hread := s.ofValue_toValue h.1 a
    have hname : name ∉ (rest.toMembers as).map Prod.fst :=
      fun hmem => hnodup.1 ((rest.names_toMembers as).subset hmem)
    refine ⟨(some (s.kept a), slots), ?_, ?_⟩
    · rw [Members.toMembers, meetAll, Members.empty, Members.meet]
      rw [if_pos rfl, hread]
      exact Members.meetAll_required _ hname hmeet
    · rw [Members.finish]
      rw [hfinish]
      rfl
  | .optional name positional s rest, hnodup, h, (slot, as) => by
    rw [Members.areNamed, Bool.and_eq_true] at h
    rw [Members.names, List.nodup_cons] at hnodup
    obtain ⟨slots, hmeet, hfinish⟩ := rest.meetAll_toMembers hnodup.2 h.2 as
    have hname : name ∉ (rest.toMembers as).map Prod.fst :=
      fun hmem => hnodup.1 ((rest.names_toMembers as).subset hmem)
    cases slot with
    | none =>
      refine ⟨(none, slots), Members.meetAll_optional none hname hmeet, ?_⟩
      rw [Members.finish]
      rw [hfinish]
      rfl
    | some a =>
      have hread := readUnlessNull_eq (s.ofValue_toValue h.1 a)
      refine ⟨(some (if (s.toValue a).isNull then none else some (s.kept a)), slots), ?_, ?_⟩
      · rw [Members.toMembers]
        rw [meetAll, Members.empty, Members.meet]
        rw [if_pos rfl, hread]
        exact Members.meetAll_optional _ hname hmeet
      · rw [Members.finish]
        rw [hfinish, Members.kept]
        cases hnull : (s.toValue a).isNull <;> simp [Option.filter, hnull]
termination_by structural ms => ms

end

theorem Payload.ofValue_toValue {α : Type} [Payload α] (h : (schema α).isNamed = true) (a : α) :
    ofValue α (toValue a) = .ok (ofCarrier ((schema α).kept (toCarrier a))) := by
  simp only [ofValue, toValue, (schema α).ofValue_toValue h]

end LanguageServer
