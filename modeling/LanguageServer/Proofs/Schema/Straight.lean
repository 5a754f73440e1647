import LanguageServer.Proofs.Json.Inversion
import LanguageServer.Proofs.Schema.Named
import LanguageServer.Proofs.Schema.OfText

namespace LanguageServer

open Json (Cause Scan Scanner Value)

namespace Json.Scan

variable {r t : Bytes} {d : Nat}

theorem typedText_eq_ok_iff {x : String} :
    typedText t = .ok (x, r) ↔ (value d).run t = .ok (.text x, r) := by
  have hinj : Function.Injective Value.text := fun a b h => by cases h; rfl
  have hquote {rest : Bytes} (ht : skipBlank t = 34 :: rest) :
      typedText t = .ok (x, r) ↔ (value d).run t = .ok (.text x, r) := by
    rw [run_value_of_skipBlank ht (by decide) (by decide), scalar_quote, map_eq_ok_iff hinj,
      typedText, ht]
    rfl
  constructor
  · intro h
    have hstart := h
    unfold typedText at hstart
    split at hstart
    · cases hstart
    · rename_i c rest hc
      split at hstart
      · rename_i h34
        subst h34
        exact (hquote hc).mp h
      · cases hstart
  · intro h
    obtain ⟨c, rest, hc, rfl⟩ := exists_begins h
    exact (hquote hc).mpr h

theorem ofNumber_eq_ok_iff {w : Width} {p : Scan Json.Number} {x : Word w} :
    ofNumber w p = .ok (x, r) ↔ ∃ n, p = .ok (n, r) ∧ Word.ofNumber w n = .ok x := by
  constructor
  · exact of_ofNumber_eq_ok
  · intro h
    obtain ⟨n, rfl, hx⟩ := h
    simp only [ofNumber, hx]

theorem typedWord_eq_ok_iff {w : Width} {x : Word w} : typedWord w t = .ok (x, r) ↔
    ∃ n, (value d).run t = .ok (.number n, r) ∧ Word.ofNumber w n = .ok x := by
  have hinj : Function.Injective Value.number := fun a b h => by cases h; rfl
  have hminus {rest : Bytes} (ht : skipBlank t = 45 :: rest) : typedWord w t = .ok (x, r) ↔
      ∃ n, (value d).run t = .ok (.number n, r) ∧ Word.ofNumber w n = .ok x := by
    rw [run_value_of_skipBlank ht (by decide) (by decide), scalar_minus, typedWord, ht]
    simp only [map_eq_ok_iff hinj, ← ofNumber_eq_ok_iff]
    rfl
  have hdigit {c : UInt8} {rest : Bytes} (ht : skipBlank t = c :: rest)
      (hc : Bytes.isDigit c = true) : typedWord w t = .ok (x, r) ↔
      ∃ n, (value d).run t = .ok (.number n, r) ∧ Word.ofNumber w n = .ok x := by
    have hne := ne_of_isDigit hc
    rw [run_value_of_skipBlank ht (hne 91 (by decide)) (hne 123 (by decide)), scalar_digit hc,
      typedWord, ht]
    simp only [map_eq_ok_iff hinj, ← ofNumber_eq_ok_iff]
    rw [if_neg (hne 45 (by decide)), if_pos hc]
  constructor
  · intro h
    have hstart := h
    unfold typedWord at hstart
    split at hstart
    · cases hstart
    · rename_i c rest hc
      split at hstart
      · rename_i h45
        subst h45
        exact (hminus hc).mp h
      · split at hstart
        · rename_i hd
          exact (hdigit hc hd).mp h
        · cases hstart
  · intro h
    obtain ⟨n, hn, hx⟩ := h
    obtain ⟨c, rest, hc, rfl | hd⟩ := exists_begins hn
    · exact (hminus hc).mpr ⟨n, hn, hx⟩
    · exact (hdigit hc hd).mpr ⟨n, hn, hx⟩

theorem run_value_of_null {rest : Bytes} (ht : skipBlank t = 110 :: rest) :
    (value d).run t = (literal (Bytes.ofText "ull") rest).map (.null, ·) := by
  rw [run_value_of_skipBlank ht (by decide) (by decide), scalar, if_pos rfl]

theorem ne_null_of_run_value {v : Value} (ht : (skipBlank t).head? ≠ some 110)
    (hv : (value d).run t = .ok (v, r)) : v ≠ .null := by
  intro hnull
  subst hnull
  obtain ⟨c, rest, hc, hbegins⟩ := exists_begins hv
  rw [hc] at ht
  exact ht (congrArg some hbegins)

end Json.Scan

/-- Neither lists nor records, which have parts. -/
def Schema.isPlain : Schema → Bool
  | .list _ | .record _ _ => false
  | _ => true

def Members.arePlain : Members → Bool
  | .nil => true
  | .required _ s rest => s.isPlain && rest.arePlain
  | .optional _ _ s rest => s.isPlain && rest.arePlain
termination_by structural ms => ms

section Plain

variable {s : Schema} {d : Nat}

/-- The scanner reads something straight just where a value is read that can be read as it. -/
def Json.Scanner.Straight {α : Type} (p : Scanner α) (d : Nat) (read : Value → Except Cause α) :
    Prop :=
  ∀ t r a, p.run t = .ok (a, r) ↔ ∃ v, (Scan.value d).run t = .ok (v, r) ∧ read v = .ok a

theorem Schema.straight_scan (hs : s.isPlain = true) : (s.scan d).Straight d s.ofValue := by
  intro t r c
  cases s with
  | text =>
    change Scan.typedText t = .ok (c, r) ↔ _
    rw [Scan.typedText_eq_ok_iff (d := d)]
    constructor
    · exact fun h => ⟨.text c, h, rfl⟩
    · intro h
      obtain ⟨v, hv, hc⟩ := h
      cases v with
      | text x =>
        cases hc
        exact hv
      | _ => cases hc
  | word w =>
    change Scan.typedWord w t = .ok (c, r) ↔ _
    rw [Scan.typedWord_eq_ok_iff (d := d)]
    constructor
    · intro h
      obtain ⟨n, hn, hc⟩ := h
      exact ⟨.number n, hn, hc⟩
    · intro h
      obtain ⟨v, hv, hc⟩ := h
      cases v with
      | number n => exact ⟨n, hv, hc⟩
      | _ => cases hc
  | id =>
    change (Scanner.typedId d).run t = .ok (c, r) ↔ _
    dsimp only [Scanner.typedId]
    cases (Scan.value d).run t with
    | error f => simp
    | ok p =>
      obtain ⟨v, q⟩ := p
      have hvalue : (∃ w, (Except.ok (v, q) : Scan Value) = .ok (w, r) ∧
          Schema.ofValue .id w = .ok c) ↔ q = r ∧ Schema.ofValue .id v = .ok c := by
        simp
      rw [hvalue, Schema.ofValue]
      dsimp only
      cases RequestId.ofValue? v with
      | none => simp
      | some i =>
        simp only [Except.ok.injEq, Prod.mk.injEq]
        exact and_comm
  | any =>
    change (Scan.value d).run t = .ok (c, r) ↔ _
    simp [Schema.ofValue]
  | list item => cases hs
  | record name members => cases hs

end Plain

section UnlessNull

open Json.Scan

variable {α : Type} {p : Scanner α} {read : Value → Except Cause α} {d : Nat} {t : Bytes}

theorem Json.Scanner.runUnlessNull_of_null {rest : Bytes} (ht : skipBlank t = 110 :: rest) :
    runUnlessNull p t = (literal (Bytes.ofText "ull") rest).map (none, ·) := by
  rw [runUnlessNull, ht]
  dsimp only
  rw [if_pos rfl]
  cases literal (Bytes.ofText "ull") rest <;> rfl

theorem Json.Scanner.runUnlessNull_of_ne_null (ht : (skipBlank t).head? ≠ some 110) :
    runUnlessNull p t = (p.run (skipBlank t)).map some := by
  unfold runUnlessNull
  cases hs : skipBlank t with
  | nil => rfl
  | cons c rest =>
    rw [hs] at ht
    exact if_neg fun h110 => ht (congrArg some h110)

theorem Json.Scanner.Straight.unlessNull (hp : p.Straight d read) :
    p.unlessNull.Straight d (readUnlessNull read) := by
  intro t r o
  change runUnlessNull p t = .ok (o, r) ↔ _
  by_cases ht : (skipBlank t).head? = some 110
  · obtain ⟨rest, ht⟩ := List.head?_eq_some_iff.mp ht
    rw [runUnlessNull_of_null ht, run_value_of_null ht]
    cases literal (Bytes.ofText "ull") rest with
    | error f => simp [Except.map]
    | ok q =>
      simp only [Except.map, Except.ok.injEq, Prod.mk.injEq]
      constructor
      · intro h
        obtain ⟨rfl, rfl⟩ := h
        exact ⟨.null, ⟨rfl, rfl⟩, rfl⟩
      · intro h
        obtain ⟨v, ⟨rfl, rfl⟩, ho⟩ := h
        cases ho
        exact ⟨rfl, rfl⟩
  · rw [runUnlessNull_of_ne_null ht]
    constructor
    · intro h
      obtain ⟨a, ha, rfl⟩ := of_map_eq_ok h
      obtain ⟨v, hv, ha⟩ := (hp _ _ _).mp ha
      rw [run_value_skipBlank] at hv
      refine ⟨v, hv, ?_⟩
      rw [readUnlessNull_of_ne_null read (ne_null_of_run_value ht hv), ha]
      rfl
    · intro h
      obtain ⟨v, hv, ho⟩ := h
      obtain ⟨a, ha, rfl⟩ := of_readUnlessNull_eq_ok ho (ne_null_of_run_value ht hv)
      rw [← run_value_skipBlank] at hv
      rw [(hp _ _ _).mpr ⟨v, hv, ha⟩]
      rfl

end UnlessNull

namespace Part

open Json.Scan

variable {α β : Type} {first : Bool} {missing : Cause} {rest : Part β} {t r : Bytes}

theorem inList_map_eq_ok_iff {x : Scan β} {a a' : α} {b : β} :
    inList (x.map fun b => (a', b)) = .ok ((a, b), r) ↔ a' = a ∧ inList x = .ok (b, r) := by
  simp only [inList_eq_ok_iff]
  constructor
  · intro h
    obtain ⟨s, hs, hend⟩ := h
    obtain ⟨b', hb, heq⟩ := of_map_eq_ok hs
    cases heq
    exact ⟨rfl, s, hb, hend⟩
  · intro h
    obtain ⟨rfl, s, rfl, hend⟩ := h
    exact ⟨s, rfl, hend⟩

theorem inList_item_eq_ok_iff {p : Scanner α} {a : α} {b : β} :
    inList ((item first p missing rest).run t) = .ok ((a, b), r) ↔
      ∃ s u, nextItem first t = .ok (some s) ∧ p.run s = .ok (a, u) ∧
        inList (rest.run u) = .ok (b, r) := by
  dsimp only [item]
  cases nextItem first t with
  | error f => simp [inList, enclosed]
  | ok next =>
    cases next with
    | none => simp [inList, enclosed]
    | some s =>
      cases hp : p.run s with
      | error f => simp [inList, enclosed, hp]
      | ok q =>
        obtain ⟨a', u⟩ := q
        simp [inList_map_eq_ok_iff, hp]

theorem inList_optionalItem_eq_ok_iff {p : Scanner (Option α)} {a : Option α} {b : β} :
    inList ((optionalItem first p rest).run t) = .ok ((a, b), r) ↔
      (a = none ∧ nextItem first t = .ok none ∧ inList (rest.run (skipBlank t)) = .ok (b, r)) ∨
      ∃ s u, nextItem first t = .ok (some s) ∧ p.run s = .ok (a, u) ∧
        inList (rest.run u) = .ok (b, r) := by
  dsimp only [optionalItem]
  cases nextItem first t with
  | error f => simp [inList, enclosed]
  | ok next =>
    cases next with
    | none =>
      constructor
      · intro h
        obtain ⟨rfl, hrest⟩ := inList_map_eq_ok_iff.mp h
        exact .inl ⟨rfl, rfl, hrest⟩
      · intro h
        rcases h with ⟨rfl, -, hrest⟩ | ⟨s, u, hs, -⟩
        · exact inList_map_eq_ok_iff.mpr ⟨rfl, hrest⟩
        · cases hs
    | some s =>
      cases hp : p.run s with
      | error f => simp [inList, enclosed, hp]
      | ok q =>
        obtain ⟨a', u⟩ := q
        simp [inList_map_eq_ok_iff, hp]

end Part

namespace Members

open Json.Scan

/-- Members are read straight from a list just where it is read as a list of values that can be
read so. -/
def StraightItems (ms : Members) (d : Nat) : Prop :=
  ∀ name size index t r c, inList ((ms.scanItems d name size index).run t) = .ok (c, r) ↔
    Lists d (index = 0) t r fun vs => ms.ofItems name size index vs = .ok (c, [])

theorem straightItems_nil (d : Nat) : StraightItems .nil d := by
  intro name size index t r c
  rw [lists_iff]
  constructor
  · intro h
    obtain ⟨s, hs, hend⟩ := inList_eq_ok_iff.mp h
    cases hs
    exact .inl ⟨endList_eq_ok_iff.mp hend, rfl⟩
  · intro h
    rcases h with ⟨hs, -⟩ | ⟨s, v, u, -, -, vs, -, hitems⟩
    · exact inList_eq_ok_iff.mpr ⟨t, rfl, endList_eq_ok_iff.mpr hs⟩
    · cases hitems

variable {key : String} {positional : Bool} {s : Schema} {rest : Members} {d : Nat}

theorem StraightItems.required (hrest : rest.StraightItems d) (hs : s.isPlain = true) :
    (required key s rest).StraightItems d := by
  intro name size index t r (a, as)
  rw [lists_iff]
  change inList ((Part.item _ _ _ _).run t) = _ ↔ _
  rw [Part.inList_item_eq_ok_iff]
  constructor
  · intro h
    obtain ⟨q, u, hnext, ha, hmore⟩ := h
    obtain ⟨v, hv, hread⟩ := (Schema.straight_scan hs _ _ _).mp ha
    obtain ⟨vs, hvs, hitems⟩ := (hrest ..).mp hmore
    exact .inr ⟨q, v, u, hnext, hv, vs, hvs, ofItems_required_cons.mpr ⟨hread, hitems⟩⟩
  · intro h
    rcases h with ⟨-, hnil⟩ | ⟨q, v, u, hnext, hv, vs, hvs, hitems⟩
    · cases hnil
    · obtain ⟨hread, hitems⟩ := ofItems_required_cons.mp hitems
      exact ⟨q, u, hnext, (Schema.straight_scan hs _ _ _).mpr ⟨v, hv, hread⟩,
        (hrest ..).mpr ⟨vs, hvs, hitems⟩⟩

/-- An optional member that has an item of its own. -/
theorem StraightItems.optional_some (hrest : rest.StraightItems d) (hs : s.isPlain = true)
    {name : String} {size index : Nat} {t r : Bytes} {a : Option s.Carrier} {as : rest.Carrier} :
    (∃ q u, nextItem (decide (index = 0)) t = .ok (some q) ∧
      (s.scan d).unlessNull.run q = .ok (a, u) ∧
      inList ((rest.scanItems d name size (index + 1)).run u) = .ok (as, r)) ↔
      ∃ q v u, nextItem (decide (index = 0)) t = .ok (some q) ∧ (value d).run q = .ok (v, u) ∧
        Lists d false u r fun vs => (optional key positional s rest).ofItems name size index
          (v :: vs) = .ok ((a, as), []) := by
  have hstraight := (Schema.straight_scan (d := d) hs).unlessNull
  constructor
  · intro h
    obtain ⟨q, u, hnext, ha, hmore⟩ := h
    obtain ⟨v, hv, hread⟩ := (hstraight _ _ _).mp ha
    obtain ⟨vs, hvs, hitems⟩ := (hrest ..).mp hmore
    exact ⟨q, v, u, hnext, hv, vs, hvs, ofItems_optional_cons.mpr ⟨hread, hitems⟩⟩
  · intro h
    obtain ⟨q, v, u, hnext, hv, vs, hvs, hitems⟩ := h
    obtain ⟨hread, hitems⟩ := ofItems_optional_cons.mp hitems
    exact ⟨q, u, hnext, (hstraight _ _ _).mpr ⟨v, hv, hread⟩, (hrest ..).mpr ⟨vs, hvs, hitems⟩⟩

/-- An optional member whose place is behind the end of the list. -/
theorem StraightItems.optional_none (hrest : rest.StraightItems d) {name : String}
    {size index : Nat} {t r : Bytes} {a : Option s.Carrier} {as : rest.Carrier} :
    (a = none ∧ nextItem (decide (index = 0)) t = .ok none ∧
      inList ((rest.scanItems d name size (index + 1)).run (skipBlank t)) = .ok (as, r)) ↔
      skipBlank t = 93 :: r ∧
        (optional key false s rest).ofItems name size index [] = .ok ((a, as), []) := by
  rw [hrest, lists_iff, skipBlank_skipBlank, nextItem_eq_none_iff, ofItems_optional_nil]
  constructor
  · intro h
    obtain ⟨rfl, ⟨q, hq⟩, hmore⟩ := h
    rcases hmore with ⟨hend, hitems⟩ | ⟨p, v, u, hnext, -⟩
    · exact ⟨hend, rfl, rfl, hitems⟩
    · rw [hq, nextItem_end] at hnext
      cases hnext
  · intro h
    obtain ⟨hend, -, rfl, hitems⟩ := h
    exact ⟨rfl, ⟨r, hend⟩, .inl ⟨hend, hitems⟩⟩

theorem StraightItems.optional (hrest : rest.StraightItems d) (hs : s.isPlain = true) :
    (optional key positional s rest).StraightItems d := by
  intro name size index t r (a, as)
  rw [lists_iff, scanItems]
  cases positional with
  | true =>
    rw [if_pos rfl, Part.inList_item_eq_ok_iff, hrest.optional_some hs]
    constructor
    · exact .inr
    · intro h
      rcases h with ⟨-, hnil⟩ | hsome
      · exact absurd (ofItems_optional_nil.mp hnil).1 (by simp)
      · exact hsome
  | false =>
    rw [if_neg Bool.false_ne_true, Part.inList_optionalItem_eq_ok_iff, hrest.optional_some hs,
      hrest.optional_none]

theorem straightItems (d : Nat) : (ms : Members) → ms.arePlain = true → ms.StraightItems d
  | .nil, _ => straightItems_nil d
  | .required key s rest, h => by
    rw [arePlain, Bool.and_eq_true] at h
    exact (rest.straightItems d h.2).required h.1
  | .optional key positional s rest, h => by
    rw [arePlain, Bool.and_eq_true] at h
    exact (rest.straightItems d h.2).optional h.1
termination_by structural ms => ms

end Members

section Record

open Json.Scan

variable {name : String} {members : Members} {d : Nat} {t r : Bytes} {c : members.Carrier}

theorem Schema.run_scan_record_of_list (hplain : members.arePlain = true) {rest : Bytes}
    (ht : skipBlank t = 91 :: rest) :
    ((Schema.record name members).scan (d + 1)).run t = .ok (c, r) ↔
      ∃ v, (value (d + 1)).run t = .ok (v, r) ∧
        Schema.ofValue (.record name members) v = .ok c := by
  have hvalue : (value (d + 1)).run t =
      (inList (items (value d) true [] rest)).map .list := by
    rw [← run_value_skipBlank, ht, run_value_list]
  have hrecord : ((Schema.record name members).scan (d + 1)).run t =
      inList ((members.scanItems d name members.size 0).run rest) := by
    change (Scanner.record name _).run t = _
    dsimp only [Scanner.record]
    rw [ht]
    rfl
  rw [hvalue, hrecord, members.straightItems d hplain]
  constructor
  · intro h
    obtain ⟨vs, hvs, hitems⟩ := h
    exact ⟨.list vs, congrArg (map Value.list) hvs,
      Schema.ofValue_list_eq_ok_iff_ofItems.mpr hitems⟩
  · intro h
    obtain ⟨v, hv, hread⟩ := h
    obtain ⟨vs, hvs, rfl⟩ := of_map_eq_ok hv
    exact ⟨vs, hvs, Schema.ofValue_list_eq_ok_iff_ofItems.mp hread⟩

/-- From anything but an object, a record is read straight just where a value is read that can be
read so. -/
theorem Schema.run_scan_record_eq_ok_iff (hplain : members.arePlain = true)
    (hobject : (skipBlank t).head? ≠ some 123) :
    ((Schema.record name members).scan (d + 1)).run t = .ok (c, r) ↔
      ∃ v, (value (d + 1)).run t = .ok (v, r) ∧
        Schema.ofValue (.record name members) v = .ok c := by
  by_cases hlist : (skipBlank t).head? = some 91
  · obtain ⟨rest, ht⟩ := List.head?_eq_some_iff.mp hlist
    exact Schema.run_scan_record_of_list hplain ht
  · constructor
    · intro h
      change (Scanner.record name _).run t = _ at h
      dsimp only [Scanner.record] at h
      split at h
      · cases h
      · rename_i b rest ht
        rw [ht] at hlist hobject
        rw [if_neg (by simpa using hlist), if_neg (by simpa using hobject)] at h
        cases h
    · intro h
      obtain ⟨v, hv, hread⟩ := h
      obtain ⟨b, rest, ht, hbegins⟩ := exists_begins hv
      rw [ht] at hlist hobject
      cases v with
      | list vs => exact absurd (congrArg some hbegins) hlist
      | object os => exact absurd (congrArg some hbegins) hobject
      | _ => cases hread

theorem Json.Scanner.parse_eq_ok_iff {α : Type} {p : Scanner α} {input : Bytes} {a : α} :
    p.parse input = .ok a ↔ ∃ rest, p.run input = .ok (a, rest) ∧ skipBlank rest = [] := by
  unfold parse
  cases p.run input with
  | error f => simp
  | ok q =>
    obtain ⟨b, rest⟩ := q
    cases hrest : skipBlank rest with
    | nil => simp [hrest]
    | cons x more => simp [hrest]

/-- A whole text that is no object is read straight as a record just if its value can be read so. -/
theorem Schema.parse_record_eq_ok_iff (hplain : members.arePlain = true) {input : Bytes}
    (hobject : (skipBlank input).head? ≠ some 123) :
    (Schema.record name members).parse input = .ok c ↔
      ∃ v, Json.parse input = .ok v ∧ Schema.ofValue (.record name members) v = .ok c := by
  constructor
  · intro h
    obtain ⟨rest, hrun, hrest⟩ := Json.Scanner.parse_eq_ok_iff.mp h
    obtain ⟨v, hv, hread⟩ := (Schema.run_scan_record_eq_ok_iff hplain hobject).mp hrun
    exact ⟨v, Json.Scanner.parse_eq_ok_iff.mpr ⟨rest, hv, hrest⟩, hread⟩
  · intro h
    obtain ⟨v, hparse, hread⟩ := h
    obtain ⟨rest, hv, hrest⟩ := Json.Scanner.parse_eq_ok_iff.mp hparse
    exact Json.Scanner.parse_eq_ok_iff.mpr
      ⟨rest, (Schema.run_scan_record_eq_ok_iff hplain hobject).mpr ⟨v, hv, hread⟩, hrest⟩

end Record

end LanguageServer
