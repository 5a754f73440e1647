import LanguageServer.Payload
import LanguageServer.Proofs.Json.Skip

namespace LanguageServer

open Json (Cause Opens Scan Scanner Value separated)

section Reading

variable {α : Type} {read : Value → Except Cause α} {v : Value}

theorem of_readUnlessNull_eq_ok {o : Option α} (h : readUnlessNull read v = .ok o)
    (hv : v ≠ .null) : ∃ a, read v = .ok a ∧ o = some a := by
  rw [readUnlessNull_of_ne_null read hv] at h
  cases ha : read v with
  | error e =>
    rw [ha] at h
    cases h
  | ok a =>
    rw [ha] at h
    cases h
    exact ⟨a, rfl, rfl⟩

theorem of_readAll_cons_eq_ok {vs : List Value} {as : List α}
    (h : readAll read (v :: vs) = .ok as) :
    ∃ a rest, read v = .ok a ∧ readAll read vs = .ok rest ∧ as = a :: rest := by
  unfold readAll at h
  split at h
  · cases h
  · rename_i a ha
    split at h
    · cases h
    · rename_i rest hrest
      cases h
      exact ⟨a, rest, ha, hrest, rfl⟩

end Reading

namespace Json

namespace Scanner

variable {α : Type} {v : Value}

theorem reads_typedText (t : String) : typedText.Reads (Value.text t).render t := by
  intro s hs
  change Scan.typedText (renderText t ++ s) = .ok (t, s)
  rw [Scan.renderText_append, Scan.typedText, Scan.skipBlank_cons (by decide)]
  exact Scan.text_escape t s

theorem reads_typedWord {w : Width} {n : Int} {x : Word w} (h : isExact n = true)
    (hx : Word.ofNumber w (.integer n) = .ok x) :
    (typedWord w).Reads (Value.number (.integer n)).render x := by
  intro s hs
  change Scan.typedWord w (Bytes.ofText (Number.integer n).text ++ s) = .ok (x, s)
  rcases Scan.number_text h hs with ⟨c, rest, hbytes, hdigit, hread⟩ | ⟨rest, hbytes, hread⟩
  · have hminus := Scan.ne_of_isDigit hdigit 45 (by decide)
    rw [List.cons_append] at hread
    rw [hbytes, List.cons_append, Scan.typedWord,
      Scan.skipBlank_cons (Scan.not_isBlank_of_isDigit hdigit)]
    dsimp only
    rw [if_neg hminus, if_pos hdigit, hread]
    simp only [Scan.ofNumber, hx]
  · rw [hbytes, List.cons_append, Scan.typedWord, Scan.skipBlank_cons (by decide)]
    dsimp only
    rw [if_pos rfl, hread]
    simp only [Scan.ofNumber, hx]

theorem reads_typedId {d : Nat} {i : RequestId} (h : v.Fits d)
    (hi : RequestId.ofValue? v = some i) : (typedId d).Reads v.render i := by
  intro s hs
  have hread := Value.reads_render h s hs
  simp only [typedId, hread, hi]

theorem reads_unlessNull {p : Scanner α} {read : Value → Except Cause α} {o : Option α}
    (hexact : v.isExact = true) (h : ∀ a, read v = .ok a → p.Reads v.render a)
    (ho : readUnlessNull read v = .ok o) : p.unlessNull.Reads v.render o := by
  intro s hs
  change runUnlessNull p (v.render ++ s) = .ok (o, s)
  by_cases hnull : v = .null
  · subst hnull
    cases ho
    rw [Value.render_null]
    rfl
  · obtain ⟨a, ha, rfl⟩ := of_readUnlessNull_eq_ok ho hnull
    have hread := h a ha s hs
    obtain ⟨c, rest, hrender, hblank, -, hne⟩ := Value.exists_render_cons hexact
    rw [hrender, List.cons_append] at hread ⊢
    rw [runUnlessNull, Scan.skipBlank_cons hblank]
    dsimp only
    rw [if_neg (hne hnull), hread]
    rfl

theorem reads_typedList {item : Scanner α} {read : Value → Except Cause α} {vs : List Value}
    {as : List α} (hexact : ∀ v ∈ vs, v.isExact = true)
    (h : ∀ v ∈ vs, ∀ a, read v = .ok a → item.Reads v.render a) (has : readAll read vs = .ok as) :
    (typedList (some item)).Reads (Value.list vs).render as := by
  have hitems : List.Forall₂ (fun b a => Opens b ∧ item.Reads b a) (vs.map Value.render) as := by
    induction vs generalizing as with
    | nil =>
      cases has
      exact .nil
    | cons v vs ih =>
      obtain ⟨a, rest, ha, hrest, rfl⟩ := of_readAll_cons_eq_ok has
      have hv := hexact v List.mem_cons_self
      exact .cons ⟨Value.opens_render hv, h v List.mem_cons_self a ha⟩
        (ih (fun w hw => hexact w (List.mem_cons_of_mem v hw))
          (fun w hw => h w (List.mem_cons_of_mem v hw)) hrest)
  intro s hs
  rw [Value.render_list]
  change Scan.inList (Scan.items item true [] _) = _
  rw [Scan.inList_bracket (Scan.items_separated hitems s)]

variable {name : String} {forms : RecordForms α} {a : α}

theorem reads_record_object {ms : List (String × Value)}
    (h : ∀ s, forms.members.run (separated (Value.renderMembers ms) ++ 125 :: s) =
      .ok (a, 125 :: s)) :
    (record name (some forms)).Reads (Value.object ms).render a := by
  intro s hs
  rw [Value.render_object]
  change Scan.inObject (forms.members.run _) = _
  rw [Scan.inObject_brace (h s)]

theorem reads_record_list {vs : List Value}
    (h : ∀ s, forms.items.run (separated (vs.map Value.render) ++ 93 :: s) = .ok (a, 93 :: s)) :
    (record name (some forms)).Reads (Value.list vs).render a := by
  intro s hs
  rw [Value.render_list]
  change Scan.inList (forms.items.run _) = _
  rw [Scan.inList_bracket (h s)]

end Scanner

end Json

namespace Part

/-- How values stand in a list, from its start or from behind an item of it. -/
def listed (first : Bool) (vs : List Value) : Bytes :=
  if first then separated (vs.map Value.render)
  else (vs.map Value.render).flatMap (44 :: ·)

theorem listed_nil (first : Bool) : listed first [] = [] := by
  cases first <;> rfl

theorem nextItem_listed {v : Value} (h : v.isExact = true) (first : Bool) (vs : List Value)
    (s : Bytes) : Scan.nextItem first (listed first (v :: vs) ++ s) =
      .ok (some (v.render ++ (listed false vs ++ s))) := by
  have hopens := Value.opens_render h
  cases first with
  | true =>
    rw [listed, if_pos rfl, List.map_cons, Json.separated_cons, List.append_assoc]
    exact Scan.nextItem_first hopens _
  | false =>
    rw [listed, if_neg (by decide), List.map_cons, List.flatMap_cons, List.append_assoc]
    exact Scan.nextItem_comma hopens _

theorem follows_listed (vs : List Value) (s : Bytes) :
    Scan.Follows (listed false vs ++ 93 :: s) := Json.follows_more _ (.inl rfl) s

variable {α β : Type} {p : Scanner α} {missing : Cause} {rest : Part β} {first : Bool}
  {v : Value} {vs : List Value} {a : α} {b : β} {s t : Bytes}

theorem run_item (hv : v.isExact = true) (hp : p.Reads v.render a)
    (hrest : rest.run (listed false vs ++ 93 :: s) = .ok (b, t)) :
    (item first p missing rest).run (listed first (v :: vs) ++ 93 :: s) = .ok ((a, b), t) := by
  simp only [item, nextItem_listed hv, hp _ (follows_listed vs s), hrest, Scan.map]

theorem run_optionalItem {p : Scanner (Option α)} {a : Option α} (hv : v.isExact = true)
    (hp : p.Reads v.render a) (hrest : rest.run (listed false vs ++ 93 :: s) = .ok (b, t)) :
    (optionalItem first p rest).run (listed first (v :: vs) ++ 93 :: s) = .ok ((a, b), t) := by
  simp only [optionalItem, nextItem_listed hv, hp _ (follows_listed vs s), hrest, Scan.map]

theorem run_optionalItem_end {p : Scanner (Option α)} (hrest : rest.run (93 :: s) = .ok (b, t)) :
    (optionalItem first p rest).run (93 :: s) = .ok ((none, b), t) := by
  have hblank : Scan.skipBlank (93 :: s) = 93 :: s := rfl
  simp only [optionalItem, Scan.nextItem_end, hblank, hrest, Scan.map]

theorem run_ofMembers {σ : Type} {member : String → σ → Scanner σ} {start last : σ}
    {finish : σ → Except Cause α} {meet : String → Value → σ → Except Cause σ}
    {ms : List (String × Value)} (hmeet : meetAll meet ms start = .ok last)
    (hmembers : Scan.ReadsMembers member meet ms) (hfinish : finish last = .ok a) (s : Bytes) :
    (ofMembers member start finish).run (separated (Value.renderMembers ms) ++ 125 :: s) =
      .ok (a, 125 :: s) := by
  simp only [ofMembers, Scan.members_separated hmeet hmembers, hfinish]

end Part

mutual

/-- A text is read straight as whatever its value is read as. -/
theorem Schema.reads_render : (schema : Schema) → {v : Value} → {c : schema.Carrier} → {d : Nat} →
    v.Fits d → schema.ofValue v = .ok c → (schema.scan d).Reads v.render c
  | .text, v, c, d, hfits, h => by
    cases v with
    | text t =>
      cases h
      exact Scanner.reads_typedText _
    | _ => cases h
  | .word w, v, c, d, hfits, h => by
    cases v with
    | number n =>
      cases n with
      | integer n => exact Scanner.reads_typedWord hfits.exact h
      | floating x => cases hfits.exact
    | _ => cases h
  | .id, v, c, d, hfits, h => by
    rw [Schema.ofValue] at h
    split at h
    · rename_i i hi
      cases h
      exact Scanner.reads_typedId hfits hi
    · cases h
  | .any, v, c, d, hfits, h => by
    cases h
    exact Value.reads_render hfits
  | .list item, v, c, d, hfits, h => by
    cases v with
    | list vs =>
      obtain ⟨d, rfl, hitems⟩ := hfits.exists_items
      exact Scanner.reads_typedList (fun v hv => (hitems v hv).exact)
        (fun v hv a ha => Schema.reads_render item (hitems v hv) ha) h
    | _ => cases h
  | .record name members, v, c, d, hfits, h => by
    cases v with
    | object ms =>
      obtain ⟨d, rfl, -, hmembers⟩ := hfits.exists_members
      rw [Schema.ofValue] at h
      split at h
      · cases h
      · rename_i slots hslots
        refine Scanner.reads_record_object (Part.run_ofMembers hslots ?_ h)
        intro m hm slots next hnext
        exact Members.reads_scanMember members (hmembers m hm) hnext
    | list vs =>
      obtain ⟨d, rfl, hitems⟩ := hfits.exists_items
      rw [Schema.ofValue] at h
      split at h
      · cases h
      · rename_i a left hleft
        split at h
        · rename_i hempty
          cases h
          rw [List.isEmpty_iff.mp hempty] at hleft
          exact Scanner.reads_record_list (Members.run_scanItems members hitems hleft)
        · cases h
    | _ => cases h
termination_by structural schema => schema

/-- What stands behind a name is read straight as whatever its value is met as. -/
theorem Members.reads_scanMember : (ms : Members) → {key : String} → {v : Value} →
    {slots next : ms.Slots} → {d : Nat} → v.Fits d →
    ms.meet key v slots = .ok next → (ms.scanMember d key slots).Reads (58 :: v.render) next
  | .nil, key, v, slots, next, d, hfits, h => by
    cases h
    exact (Scan.reads_skipValue hfits.exact).afterColon.map _
  | .required name s rest, key, v, (slot, slots), next, d, hfits, h => by
    unfold Members.meet at h
    unfold Members.scanMember
    split at h
    · rename_i hkey
      rw [if_pos hkey]
      split at h
      · cases h
      · split at h
        · cases h
        · rename_i a ha
          cases h
          exact (Schema.reads_render s hfits ha).afterColon.map _
    · rename_i hkey
      rw [if_neg hkey]
      split at h
      · cases h
      · rename_i next hnext
        cases h
        exact (Members.reads_scanMember rest hfits hnext).map _
  | .optional name positional s rest, key, v, (slot, slots), next, d, hfits, h => by
    unfold Members.meet at h
    unfold Members.scanMember
    split at h
    · rename_i hkey
      rw [if_pos hkey]
      split at h
      · cases h
      · split at h
        · cases h
        · rename_i o ho
          cases h
          exact (Scanner.reads_unlessNull hfits.exact
            (fun a ha => Schema.reads_render s hfits ha) ho).afterColon.map _
    · rename_i hkey
      rw [if_neg hkey]
      split at h
      · cases h
      · rename_i next hnext
        cases h
        exact (Members.reads_scanMember rest hfits hnext).map _
termination_by structural ms => ms

/-- Items of a list are read straight as what their values are read as. -/
theorem Members.run_scanItems : (ms : Members) → {name : String} → {size index : Nat} →
    {vs : List Value} → {c : ms.Carrier} → {d : Nat} → (∀ v ∈ vs, v.Fits d) →
    ms.ofItems name size index vs = .ok (c, []) → (s : Bytes) →
    (ms.scanItems d name size index).run (Part.listed (index = 0) vs ++ 93 :: s) = .ok (c, 93 :: s)
  | .nil, name, size, index, vs, c, d, hfits, h, s => by
    cases h
    rw [Part.listed_nil]
    rfl
  | .required _ schema rest, name, size, index, vs, c, d, hfits, h, s => by
    match vs with
    | [] => cases h
    | v :: vs =>
      rw [Members.ofItems] at h
      split at h
      · cases h
      · rename_i a ha
        split at h
        · cases h
        · rename_i as left has
          cases h
          have hv := hfits v List.mem_cons_self
          exact Part.run_item hv.exact (Schema.reads_render schema hv ha)
            (Members.run_scanItems rest (fun w hw => hfits w (List.mem_cons_of_mem v hw)) has s)
  | .optional _ positional schema rest, name, size, index, vs, c, d, hfits, h, s => by
    match vs with
    | [] =>
      rw [Members.ofItems] at h
      split at h
      · cases h
      · rename_i hpositional
        split at h
        · cases h
        · rename_i as left has
          cases h
          have hrest := Members.run_scanItems rest hfits has s
          rw [Part.listed_nil] at hrest ⊢
          rw [Members.scanItems, if_neg hpositional]
          exact Part.run_optionalItem_end hrest
    | v :: vs =>
      rw [Members.ofItems] at h
      split at h
      · cases h
      · rename_i o ho
        split at h
        · cases h
        · rename_i as left has
          cases h
          have hv := hfits v List.mem_cons_self
          have hreads := Scanner.reads_unlessNull hv.exact
            (fun a ha => Schema.reads_render schema hv ha) ho
          have hrest := Members.run_scanItems rest
            (fun w hw => hfits w (List.mem_cons_of_mem v hw)) has s
          rw [Members.scanItems]
          split
          · exact Part.run_item hv.exact hreads hrest
          · exact Part.run_optionalItem hv.exact hreads hrest
termination_by structural ms => ms

end

/-- Reading a text straight as something of a kind gives what its value is read as. -/
theorem Schema.parse_render {schema : Schema} {v : Value} {c : schema.Carrier}
    (hfits : v.Fits Json.maxDepth) (h : schema.ofValue v = .ok c) :
    schema.parse v.render = .ok c := Scanner.parse_of_reads (schema.reads_render hfits h)

theorem Payload.parse_render {α : Type} [Payload α] {v : Value} {a : α}
    (hfits : v.Fits Json.maxDepth) (h : Payload.ofValue α v = .ok a) :
    Payload.parse α v.render = .ok a := by
  unfold Payload.ofValue at h
  split at h
  · cases h
  · rename_i c hc
    cases h
    simp only [Payload.parse, Schema.parse_render hfits hc]

end LanguageServer
