import Mathlib.Logic.Relation
import LanguageServer.Payload.Analysis
import LanguageServer.Payload.Handshake
import LanguageServer.Proofs.Schema.Within

namespace LanguageServer

open Json (Value)
open Relation (EqvGen ReflTransGen)

namespace Members

variable {ms : Members} {v w : Value}

/-- Two objects that differ in what a record does not look at: the order of the members, a member
that it does not know, or an optional one that is null. -/
inductive Variation (ms : Members) : Value → Value → Prop where
  | reorder {os os' : List (String × Value)} (hkeys : (os.map Prod.fst).Nodup) (h : os.Perm os') :
    Variation ms (.object os) (.object os')
  | foreign {pre post : List (String × Value)} {key : String} {v : Value}
    (hkeys : ((pre ++ (key, v) :: post).map Prod.fst).Nodup) (hkey : key ∉ ms.names) :
    Variation ms (.object (pre ++ post)) (.object (pre ++ (key, v) :: post))
  | null {pre post : List (String × Value)} {m : Member}
    (hkeys : ((pre ++ (m.name, .null) :: post).map Prod.fst).Nodup) (hm : m ∈ ms.toList)
    (hoptional : m.isOptional = true) :
    Variation ms (.object (pre ++ post)) (.object (pre ++ (m.name, .null) :: post))

/-- An object and the list of its members in the order of the record, with null for those that it
does not have. -/
inductive Listing (ms : Members) : Value → Value → Prop where
  | listed {os : List (String × Value)} (hkeys : (os.map Prod.fst).Nodup) :
    Listing ms (.object os) (.list (ms.names.map fun name => (os.lookup name).getD .null))

theorem nodup_keys_of_insert {pre post : List (String × Value)} {key : String}
    (hkeys : ((pre ++ (key, v) :: post).map Prod.fst).Nodup) :
    ((pre ++ post).map Prod.fst).Nodup ∧ (pre ++ post).lookup key = none ∧
      (pre ++ (key, v) :: post).lookup key = some v := by
  rw [List.map_append, List.map_cons, List.nodup_middle, List.nodup_cons,
    ← List.map_append] at hkeys
  refine ⟨hkeys.2, lookup_eq_none hkeys.1, lookup_middle ?_⟩
  rw [List.map_append] at hkeys
  exact fun hmem => hkeys.1 (List.mem_append_left _ hmem)

/-- Two objects in which the members of a record are kept. -/
inductive Kept (ms : Members) : Value → Value → Prop where
  | objects {os os' : List (String × Value)} (hkeys : (os.map Prod.fst).Nodup)
    (hkeys' : (os'.map Prod.fst).Nodup)
    (hkeeps : ms.names.Nodup → ∀ m ∈ ms.toList, m.Keeps (os.lookup m.name) (os'.lookup m.name)) :
    Kept ms (.object os) (.object os')

theorem harmless_kept : Harmless Kept where
  left h := by
    cases h
    rfl
  right h := by
    cases h
    rfl
  read h hnames hc := by
    obtain ⟨hkeys, hkeys', hkeeps⟩ := h
    rw [Schema.ofValue_object_eq_ok_iff hnames hkeys] at hc
    rw [Schema.ofValue_object_eq_ok_iff hnames hkeys']
    exact ofNamed_of_keeps _ (hkeeps hnames) hc

/-- A variation can be made and taken back. -/
theorem Variation.kept (h : Variation ms v w) : Kept ms v w ∧ Kept ms w v := by
  cases h with
  | @reorder os os' hkeys hperm =>
    have hkeys' : (os'.map Prod.fst).Nodup := (hperm.map Prod.fst).nodup_iff.mp hkeys
    refine ⟨.objects hkeys hkeys' fun _ m _ => ?_, .objects hkeys' hkeys fun _ m _ => ?_⟩ <;>
      rw [lookup_eq_of_perm hkeys hperm] <;> exact .same _
  | @foreign pre post key v hkeys hkey =>
    have hlookup : ∀ m ∈ ms.toList, (pre ++ (key, v) :: post).lookup m.name =
        (pre ++ post).lookup m.name := by
      intro m hm
      apply lookup_middle_of_ne
      rintro rfl
      rw [names_eq_map] at hkey
      exact hkey (List.mem_map_of_mem hm)
    have hkeys' := (nodup_keys_of_insert hkeys).1
    constructor
    · exact .objects hkeys' hkeys fun _ m hm => hlookup m hm ▸ .same _
    · exact .objects hkeys hkeys' fun _ m hm => hlookup m hm ▸ .same _
  | @null pre post m hkeys hm hoptional =>
    obtain ⟨hkeys', habsent, hpresent⟩ := nodup_keys_of_insert hkeys
    have hkeeps : ms.names.Nodup → ∀ n ∈ ms.toList,
        n.Keeps ((pre ++ post).lookup n.name) ((pre ++ (m.name, .null) :: post).lookup n.name) ∧
        n.Keeps ((pre ++ (m.name, .null) :: post).lookup n.name) ((pre ++ post).lookup n.name) := by
      intro hnames n hn
      by_cases hname : n.name = m.name
      · obtain rfl := eq_of_name_eq hnames hn hm hname
        rw [habsent, hpresent]
        exact ⟨.add hoptional, .remove hoptional⟩
      · rw [lookup_middle_of_ne hname]
        exact ⟨.same _, .same _⟩
    exact ⟨.objects hkeys' hkeys fun hnames n hn => (hkeeps hnames n hn).1,
      .objects hkeys hkeys' fun hnames n hn => (hkeeps hnames n hn).2⟩

theorem harmless_variation : Harmless Variation := harmless_kept.mono fun h => h.kept.1

theorem harmless_variation_flip : Harmless fun ms v w => Variation ms w v :=
  harmless_kept.mono fun h => h.kept.2

theorem lookup_zip_map {f : String → Value} {name : String} {names : List String}
    (h : name ∈ names) : (names.zip (names.map f)).lookup name = some (f name) := by
  induction names with
  | nil => cases h
  | cons first names ih =>
    rw [List.map_cons, List.zip_cons_cons]
    by_cases hname : name = first
    · subst hname
      exact List.lookup_cons_self
    · rw [List.lookup_cons, beq_false_of_ne hname]
      exact ih ((List.mem_cons.mp h).resolve_left hname)

theorem keeps_getD (m : Member) (o : Option Value) : m.Keeps o (some (o.getD .null)) := by
  cases o with
  | some v => exact .same _
  | none =>
    cases hoptional : m.isOptional with
    | false => exact .missing hoptional _
    | true => exact .add hoptional

theorem harmless_listing : Harmless Listing where
  left h := by
    cases h
    rfl
  right h := by
    cases h
    rfl
  read {ms v w name c} h hnames hc := by
    obtain ⟨hkeys⟩ := h
    rw [Schema.ofValue_object_eq_ok_iff hnames hkeys] at hc
    rw [Schema.ofValue_list_eq_ok_iff hnames, List.length_map, length_names]
    refine ⟨ms.fewest_le_size, Nat.le_refl _, ms.ofNamed_of_keeps (fun m hm => ?_) hc⟩
    have hname : m.name ∈ ms.names := by
      rw [names_eq_map]
      exact List.mem_map_of_mem hm
    rw [lookup_zip_map hname]
    exact keeps_getD m _

end Members

namespace Payload

variable {α : Type} [Payload α] {v w : Value}

/-- The second value comes from the first by any number of changes that records do not look at, made
and taken back in objects at any depth. -/
def Varied (α : Type) [Payload α] : Value → Value → Prop :=
  EqvGen ((schema α).Within Members.Variation)

/-- The second value has lists in the place of some of the objects of the first. -/
def Listed (α : Type) [Payload α] : Value → Value → Prop :=
  ReflTransGen ((schema α).Within Members.Listing)

theorem ofValue_eq_ok_of_within {step : Members → Value → Value → Prop}
    (hα : (schema α).isNamed = true) (hstep : Members.Harmless step)
    (h : (schema α).Within step v w) {a : α} (ha : ofValue α v = .ok a) : ofValue α w = .ok a := by
  unfold ofValue at ha
  split at ha
  · cases ha
  · rename_i c hc
    rw [ofValue, h.ofValue_eq_ok hstep hα hc]
    exact ha

theorem ofValue_varied (hα : (schema α).isNamed = true) (h : Varied α v w) (a : α) :
    ofValue α v = .ok a ↔ ofValue α w = .ok a := by
  induction h with
  | rel v w h =>
    exact ⟨ofValue_eq_ok_of_within hα Members.harmless_variation h,
      ofValue_eq_ok_of_within hα Members.harmless_variation_flip h.flip⟩
  | refl v => exact Iff.rfl
  | symm v w _ ih => exact ih.symm
  | trans u v w _ _ ih ih' => exact ih.trans ih'

theorem ofValue_listed (hα : (schema α).isNamed = true) (h : Listed α v w) {a : α}
    (ha : ofValue α v = .ok a) : ofValue α w = .ok a := by
  induction h with
  | refl => exact ha
  | tail _ h ih => exact ofValue_eq_ok_of_within hα Members.harmless_listing h ih

/-- Only the members that the protocol has are seen: variations are read alike or not at all, and
what can be read can also be written as lists. -/
structure Tolerant (α : Type) [Payload α] : Prop where
  varied {v w : Value} (h : Varied α v w) (a : α) : ofValue α v = .ok a ↔ ofValue α w = .ok a
  listed {v w : Value} (h : Listed α v w) {a : α} (ha : ofValue α v = .ok a) :
    ofValue α w = .ok a

/-- The params of every method tolerate what the protocol does not know. -/
theorem tolerant_params :
    Tolerant HandshakeParams ∧ Tolerant DidOpenParams ∧ Tolerant DidChangeParams ∧
      Tolerant DidCloseParams ∧ Tolerant InlayHintParams ∧ Tolerant DiagnosticParams :=
  ⟨⟨ofValue_varied (by decide), ofValue_listed (by decide)⟩,
    ⟨ofValue_varied (by decide), ofValue_listed (by decide)⟩,
    ⟨ofValue_varied (by decide), ofValue_listed (by decide)⟩,
    ⟨ofValue_varied (by decide), ofValue_listed (by decide)⟩,
    ⟨ofValue_varied (by decide), ofValue_listed (by decide)⟩,
    ⟨ofValue_varied (by decide), ofValue_listed (by decide)⟩⟩

/-- A change with a member that the protocol does not know and with a range that is null, and the
same change as a list. -/
theorem tolerant_params_change :
    let change (v : Value) : Value := .object
      [("textDocument", .object [("uri", .text "a")]), ("contentChanges", .list [v])]
    let plain := change (.object [("text", .text "b")])
    let varied := change (.object [("id", .bool true), ("range", .null), ("text", .text "b")])
    let listed := change (.list [.null, .text "b"])
    let p : DidChangeParams := ⟨⟨"a", none⟩, [⟨none, "b"⟩]⟩
    Varied DidChangeParams plain varied ∧ Listed DidChangeParams varied listed ∧
      ofValue DidChangeParams plain = .ok p ∧ ofValue DidChangeParams listed = .ok p := by
  intro change plain varied listed p
  let members : Members := .optional "range" false (schema Range) (.required "text" .text .nil)
  have within {step : Members → Value → Value → Prop} {v w : Value} (h : step members v w) :
      (schema DidChangeParams).Within step (change v) (change w) :=
    @Schema.Within.member _ _ _ ⟨"contentChanges", false, .list (schema ContentChange)⟩
      [("textDocument", .object [("uri", .text "a")])] [] _ _
      (List.mem_cons_of_mem _ List.mem_cons_self) (by simp)
      (@Schema.Within.item _ _ [] [] v w (.here h))
  have hnull : members.Variation (.object [("text", .text "b")])
      (.object [("range", .null), ("text", .text "b")]) :=
    @Members.Variation.null _ [] [("text", .text "b")] ⟨"range", true, schema Range⟩ (by simp)
      List.mem_cons_self rfl
  have hforeign : members.Variation (.object [("range", .null), ("text", .text "b")])
      (.object [("id", .bool true), ("range", .null), ("text", .text "b")]) :=
    @Members.Variation.foreign _ [] [("range", .null), ("text", .text "b")] "id" (.bool true)
      (by simp) (by decide)
  have hvaried : Varied DidChangeParams plain varied :=
    .trans _ _ _ (.rel _ _ (within hnull)) (.rel _ _ (within hforeign))
  have hlisted : Listed DidChangeParams varied listed :=
    .single (within (.listed (by simp)))
  have htolerant := tolerant_params.2.2.1
  have hplain : ofValue DidChangeParams plain = .ok p := rfl
  exact ⟨hvaried, hlisted, hplain,
    htolerant.listed hlisted ((htolerant.varied hvaried p).mp hplain)⟩

end Payload

end LanguageServer
