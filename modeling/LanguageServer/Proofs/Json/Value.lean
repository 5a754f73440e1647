import LanguageServer.Json.Parser
import LanguageServer.Proofs.Json.Collection

namespace LanguageServer.Json

namespace Value

/-- Lists and objects hold for what lies in them. -/
theorem induction {P : Value → Prop} (null : P .null) (bool : ∀ b, P (.bool b))
    (number : ∀ n, P (.number n)) (text : ∀ t, P (.text t))
    (list : ∀ items, (∀ v ∈ items, P v) → P (.list items))
    (object : ∀ ms, (∀ m ∈ ms, P m.2) → P (.object ms)) (v : Value) : P v :=
  @Value.rec P (fun items => ∀ v ∈ items, P v) (fun ms => ∀ m ∈ ms, P m.2) (fun m => P m.2)
    null bool number text list object (by simp)
    (fun v vs hv hvs w hw => by
      rcases List.mem_cons.mp hw with rfl | hw
      · exact hv
      · exact hvs w hw)
    (by simp)
    (fun m ms hm hms n hn => by
      rcases List.mem_cons.mp hn with rfl | hn
      · exact hm
      · exact hms n hn)
    (fun _ _ hv => hv) v

mutual

/-- All numbers are integers that are kept exact, and no object has two members of one name. -/
def isExact : Value → Bool
  | .number (.integer n) => Json.isExact n
  | .number (.floating _) => false
  | .list items => itemsExact items
  | .object members => decide (members.map Prod.fst).Nodup && membersExact members
  | _ => true
termination_by structural v => v

def itemsExact : List Value → Bool
  | [] => true
  | v :: vs => v.isExact && itemsExact vs
termination_by structural vs => vs

def membersExact : List (String × Value) → Bool
  | [] => true
  | (_, v) :: ms => v.isExact && membersExact ms
termination_by structural ms => ms

end

theorem isExact_list_iff {items : List Value} :
    (Value.list items).isExact = true ↔ ∀ v ∈ items, v.isExact = true := by
  rw [isExact]
  induction items with
  | nil => simp [itemsExact]
  | cons v vs ih => simp [itemsExact, ih]

theorem isExact_object_iff {ms : List (String × Value)} :
    (Value.object ms).isExact = true ↔
      (ms.map Prod.fst).Nodup ∧ ∀ m ∈ ms, m.2.isExact = true := by
  have hmembers : membersExact ms = true ↔ ∀ m ∈ ms, m.2.isExact = true := by
    induction ms with
    | nil => simp [membersExact]
    | cons m ms ih => simp [membersExact, ih]
  rw [isExact, Bool.and_eq_true, hmembers, decide_eq_true_eq]

theorem depth_list_le_iff {items : List Value} {d : Nat} :
    (Value.list items).depth ≤ d + 1 ↔ ∀ v ∈ items, v.depth ≤ d := by
  rw [depth, Nat.add_le_add_iff_right]
  induction items with
  | nil => simp [itemsDepth]
  | cons v vs ih => simp [itemsDepth, ih]

theorem depth_object_le_iff {ms : List (String × Value)} {d : Nat} :
    (Value.object ms).depth ≤ d + 1 ↔ ∀ m ∈ ms, m.2.depth ≤ d := by
  rw [depth, Nat.add_le_add_iff_right]
  induction ms with
  | nil => simp [membersDepth]
  | cons m ms ih => simp [membersDepth, ih]

/-- The value is exact, and its lists and objects lie at most `d` within one another. -/
structure Fits (d : Nat) (v : Value) : Prop where
  exact : v.isExact = true
  depth_le : v.depth ≤ d

theorem Fits.mono {d e : Nat} {v : Value} (h : v.Fits d) (hle : d ≤ e) : v.Fits e :=
  ⟨h.exact, h.depth_le.trans hle⟩

theorem fits_list {d : Nat} {items : List Value} (h : ∀ v ∈ items, v.Fits d) :
    (Value.list items).Fits (d + 1) where
  exact := isExact_list_iff.mpr fun v hv => (h v hv).exact
  depth_le := depth_list_le_iff.mpr fun v hv => (h v hv).depth_le

theorem fits_object {d : Nat} {ms : List (String × Value)} (hnames : (ms.map Prod.fst).Nodup)
    (h : ∀ m ∈ ms, m.2.Fits d) : (Value.object ms).Fits (d + 1) where
  exact := isExact_object_iff.mpr ⟨hnames, fun m hm => (h m hm).exact⟩
  depth_le := depth_object_le_iff.mpr fun m hm => (h m hm).depth_le

theorem Fits.exists_items {d : Nat} {items : List Value} (h : (Value.list items).Fits d) :
    ∃ e, d = e + 1 ∧ ∀ v ∈ items, v.Fits e := by
  obtain ⟨hexact, hdepth⟩ := h
  cases d with
  | zero =>
    rw [depth] at hdepth
    omega
  | succ e =>
    have hitems := isExact_list_iff.mp hexact
    have hdepths := depth_list_le_iff.mp hdepth
    exact ⟨e, rfl, fun v hv => ⟨hitems v hv, hdepths v hv⟩⟩

theorem Fits.exists_members {d : Nat} {ms : List (String × Value)} (h : (Value.object ms).Fits d) :
    ∃ e, d = e + 1 ∧ (ms.map Prod.fst).Nodup ∧ ∀ m ∈ ms, m.2.Fits e := by
  obtain ⟨hexact, hdepth⟩ := h
  cases d with
  | zero =>
    rw [depth] at hdepth
    omega
  | succ e =>
    obtain ⟨hnames, hmembers⟩ := isExact_object_iff.mp hexact
    have hdepths := depth_object_le_iff.mp hdepth
    exact ⟨e, rfl, hnames, fun m hm => ⟨hmembers m hm, hdepths m hm⟩⟩

theorem render_null : render .null = [110, 117, 108, 108] := by decide +kernel

theorem render_true : render (.bool true) = [116, 114, 117, 101] := by decide +kernel

theorem render_false : render (.bool false) = [102, 97, 108, 115, 101] := by decide +kernel

end Value

namespace Scan

variable {c : UInt8} {s : Bytes} {d : Nat}

theorem scalar_digit (h : Bytes.isDigit c = true) (s : Bytes) :
    scalar (c :: s) = (number false (c :: s)).map .number := by
  have hne := ne_of_isDigit h
  rw [scalar, if_neg (hne 110 (by decide)), if_neg (hne 116 (by decide)),
    if_neg (hne 102 (by decide)), if_neg (hne 45 (by decide)), if_pos h]

theorem scalar_minus (s : Bytes) : scalar (45 :: s) = (number true s).map .number := rfl

theorem scalar_quote (s : Bytes) : scalar (34 :: s) = (text s).map .text := rfl

theorem valueWith_scalar (hblank : isBlank c = false) (hlist : c ≠ 91) (hobject : c ≠ 123)
    (inner : Option (Scanner Value)) (s : Bytes) : valueWith inner (c :: s) = scalar (c :: s) := by
  rw [valueWith, skipBlank_cons hblank]
  dsimp only
  rw [if_neg hlist, if_neg hobject]

theorem exists_run_value (d : Nat) : ∃ inner, (value d).run = valueWith inner := by
  cases d with
  | zero => exact ⟨none, rfl⟩
  | succ d => exact ⟨some (value d), rfl⟩

theorem run_value_scalar (hblank : isBlank c = false) (hlist : c ≠ 91) (hobject : c ≠ 123)
    (d : Nat) (s : Bytes) : (value d).run (c :: s) = scalar (c :: s) := by
  obtain ⟨inner, hinner⟩ := exists_run_value d
  rw [hinner, valueWith_scalar hblank hlist hobject]

theorem run_value_list (d : Nat) (s : Bytes) : (value (d + 1)).run (91 :: s) =
    (inList (items (value d) true [] s)).map .list := rfl

/-- Adds a member to those before it, the last one first. -/
def pushMember (key : String) (v : Value) (done : List (String × Value)) :
    Except Cause (List (String × Value)) := .ok ((key, v) :: done)

theorem run_value_object (d : Nat) (s : Bytes) : (value (d + 1)).run (123 :: s) =
    (inObject (members (fun key done => (value d).afterColon.map fun v => (key, v) :: done)
      true [] s)).map fun ms => .ofMembers ms.reverse := rfl

theorem meetAll_pushMember (ms done : List (String × Value)) :
    meetAll pushMember ms done = .ok (ms.reverse ++ done) := by
  induction ms generalizing done with
  | nil => rfl
  | cons m ms ih => simp [meetAll, pushMember, ih]

/-- Where some bytes are read as a list, they are read so between brackets too. -/
theorem inList_bracket {α : Type} {x : Scan α} {a : α} (h : x = .ok (a, 93 :: s)) :
    inList x = .ok (a, s) := by
  rw [h]
  rfl

theorem inObject_brace {α : Type} {x : Scan α} {a : α} (h : x = .ok (a, 125 :: s)) :
    inObject x = .ok (a, s) := by
  rw [h]
  rfl

end Scan

namespace Value

open Scan

theorem render_list (items : List Value) (s : Bytes) :
    render (.list items) ++ s = 91 :: (separated (items.map render) ++ 93 :: s) := by
  simp [render, renderItems_eq_map]

theorem render_object (ms : List (String × Value)) (s : Bytes) :
    render (.object ms) ++ s = 123 :: (separated (renderMembers ms) ++ 125 :: s) := by
  simp [render]

/-- How a value begins. Only null begins with an n. -/
theorem exists_render_cons {v : Value} (h : v.isExact = true) :
    ∃ c rest, v.render = c :: rest ∧ isBlank c = false ∧ c ≠ 93 ∧ (v ≠ .null → c ≠ 110) := by
  cases v with
  | null => exact ⟨_, _, render_null, by decide, by decide, absurd rfl⟩
  | bool b =>
    cases b with
    | true => exact ⟨_, _, render_true, by decide, by decide, fun _ => by decide⟩
    | false => exact ⟨_, _, render_false, by decide, by decide, fun _ => by decide⟩
  | number n =>
    cases n with
    | integer n =>
      rcases number_text h follows_nil with ⟨c, rest, hbytes, hdigit, -⟩ | ⟨rest, hbytes, -⟩
      · have hne := ne_of_isDigit hdigit
        exact ⟨c, rest, hbytes, not_isBlank_of_isDigit hdigit, hne 93 (by decide),
          fun _ => hne 110 (by decide)⟩
      · exact ⟨45, rest, hbytes, by decide, by decide, fun _ => by decide⟩
    | floating x => cases h
  | text t => exact ⟨34, _, rfl, by decide, by decide, fun _ => by decide⟩
  | list items => exact ⟨91, _, rfl, by decide, by decide, fun _ => by decide⟩
  | object ms => exact ⟨123, _, rfl, by decide, by decide, fun _ => by decide⟩

theorem opens_render {v : Value} (h : v.isExact = true) : Opens v.render := by
  obtain ⟨c, rest, hrender, hblank, hend, -⟩ := exists_render_cons h
  exact ⟨c, rest, hrender, hblank, hend⟩

/-- The compact text of a value is read as this value. -/
theorem reads_render {v : Value} {d : Nat} (h : v.Fits d) : (Scan.value d).Reads v.render v := by
  induction v using Value.induction generalizing d with
  | null =>
    intro s hs
    rw [render_null, List.cons_append, run_value_scalar (by decide) (by decide) (by decide)]
    rfl
  | bool b =>
    intro s hs
    cases b with
    | true =>
      rw [render_true, List.cons_append, run_value_scalar (by decide) (by decide) (by decide)]
      rfl
    | false =>
      rw [render_false, List.cons_append, run_value_scalar (by decide) (by decide) (by decide)]
      rfl
  | number n =>
    intro s hs
    cases n with
    | integer n =>
      rcases number_text h.exact hs with ⟨c, rest, hbytes, hdigit, hread⟩ | ⟨rest, hbytes, hread⟩
      · have hne := ne_of_isDigit hdigit
        rw [render, hbytes, List.cons_append, run_value_scalar (not_isBlank_of_isDigit hdigit)
          (hne 91 (by decide)) (hne 123 (by decide)), scalar_digit hdigit, ← List.cons_append,
          hread]
        rfl
      · rw [render, hbytes, List.cons_append,
          run_value_scalar (by decide) (by decide) (by decide), scalar_minus, hread]
        rfl
    | floating x => cases h.exact
  | text t =>
    intro s hs
    rw [render, renderText_append, run_value_scalar (by decide) (by decide) (by decide),
      scalar_quote, text_escape]
    rfl
  | list items ih =>
    intro s hs
    obtain ⟨d, rfl, hfits⟩ := h.exists_items
    have hitems : List.Forall₂ (fun b v => Opens b ∧ (Scan.value d).Reads b v)
        (items.map render) items := by
      refine List.forall₂_map_left_iff.mpr (List.forall₂_same.mpr ?_)
      intro v hv
      exact ⟨opens_render (hfits v hv).exact, ih v hv (hfits v hv)⟩
    rw [render_list, run_value_list, inList_bracket (items_separated hitems s)]
    rfl
  | object ms ih =>
    intro s hs
    obtain ⟨d, rfl, hnames, hfits⟩ := h.exists_members
    have hmembers : ReadsMembers
        (fun key done => (Scan.value d).afterColon.map fun v => (key, v) :: done)
        pushMember ms := by
      intro m hm done next hnext
      cases hnext
      exact (ih m hm (hfits m hm)).afterColon.map _
    rw [render_object, run_value_object,
      inObject_brace (members_separated (meetAll_pushMember ms []) hmembers s)]
    rw [Scan.map, List.append_nil, List.reverse_reverse, ofMembers_of_nodup hnames]

end Value

/-- What is read wherever it stands is read as a whole text. -/
theorem Scanner.parse_of_reads {α : Type} {p : Scanner α} {b : Bytes} {a : α} (h : p.Reads b a) :
    p.parse b = .ok a := by
  have hrun := h [] Scan.follows_nil
  rw [List.append_nil] at hrun
  simp only [parse, hrun]
  rfl

/-- The compact text of a value is a text of this value. -/
theorem parse_render {v : Value} (h : v.Fits maxDepth) : parse v.render = .ok v :=
  Scanner.parse_of_reads (Value.reads_render h)

end LanguageServer.Json
