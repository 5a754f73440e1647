import LanguageServer.Proofs.Schema.Named

namespace LanguageServer

open Json (Cause Value)

/-- A member of a record, on its own. -/
structure Member where
  name : String
  isOptional : Bool
  kind : Schema

/-- The members of a record one by one. -/
def Members.toList : Members → List Member
  | .nil => []
  | .required name s rest => ⟨name, false, s⟩ :: rest.toList
  | .optional name _ s rest => ⟨name, true, s⟩ :: rest.toList
termination_by structural ms => ms

namespace Member

/-- What stands under the name of a member may be replaced so that the member, if it could be read,
is read as before. -/
inductive Keeps (m : Member) : Option Value → Option Value → Prop where
  | same (o : Option Value) : Keeps m o o
  | read {v w : Value} (hv : v.isNull = false) (hw : w.isNull = false)
    (h : ∀ a, m.kind.ofValue v = .ok a → m.kind.ofValue w = .ok a) : Keeps m (some v) (some w)
  | add (h : m.isOptional = true) : Keeps m none (some .null)
  | remove (h : m.isOptional = true) : Keeps m (some .null) none
  | missing (h : m.isOptional = false) (o : Option Value) : Keeps m none o

variable {name : String} {s : Schema} {o o' : Option Value}

theorem Keeps.required (h : Keeps ⟨name, false, s⟩ o o') {a : s.Carrier}
    (ha : (o.bind fun v => (s.ofValue v).toOption) = some a) :
    (o'.bind fun v => (s.ofValue v).toOption) = some a := by
  cases h with
  | same => exact ha
  | read _ _ h =>
    rw [Option.bind_some, toOption_eq_some_iff] at ha ⊢
    exact h a ha
  | add h => cases h
  | remove h => cases h
  | missing => cases ha

theorem Keeps.optional (h : Keeps ⟨name, true, s⟩ o o') {slot : Option s.Carrier}
    (hslot : readSlot s.ofValue (o.filter fun v => !v.isNull) = some slot) :
    readSlot s.ofValue (o'.filter fun v => !v.isNull) = some slot := by
  cases h with
  | same => exact hslot
  | read hv hw h =>
    simp only [Option.filter_some, hv, hw, Bool.not_false, if_true, readSlot,
      Option.map_eq_some_iff, toOption_eq_some_iff] at hslot ⊢
    obtain ⟨a, ha, rfl⟩ := hslot
    exact ⟨a, h a ha, rfl⟩
  | add => exact hslot
  | remove => exact hslot
  | missing h => cases h

end Member

section Lookup

variable {os os' pre post : List (String × Value)} {key other : String} {v : Value}

theorem lookup_eq_none (hkey : key ∉ os.map Prod.fst) : os.lookup key = none := by
  rw [List.lookup_eq_none_iff]
  intro o ho
  have hne : key ≠ o.1 := fun heq => hkey (heq ▸ List.mem_map_of_mem ho)
  simpa using hne

theorem lookup_middle (hkey : key ∉ pre.map Prod.fst) :
    (pre ++ (key, v) :: post).lookup key = some v := by
  rw [List.lookup_append, lookup_eq_none hkey, Option.none_or, List.lookup_cons_self]

theorem lookup_middle_of_ne (hne : other ≠ key) :
    (pre ++ (key, v) :: post).lookup other = (pre ++ post).lookup other := by
  rw [List.lookup_append, List.lookup_append, List.lookup_cons, beq_false_of_ne hne]

theorem lookup_eq_some_iff_mem (hkeys : (os.map Prod.fst).Nodup) :
    os.lookup key = some v ↔ (key, v) ∈ os := by
  constructor
  · intro h
    obtain ⟨pre, post, rfl, -⟩ := List.lookup_eq_some_iff.mp h
    simp
  · intro h
    obtain ⟨pre, post, rfl⟩ := List.append_of_mem h
    apply lookup_middle
    rw [List.map_append] at hkeys
    exact fun hmem => List.disjoint_of_nodup_append hkeys hmem List.mem_cons_self

theorem lookup_eq_of_perm (hkeys : (os.map Prod.fst).Nodup) (h : os.Perm os') (key : String) :
    os.lookup key = os'.lookup key := by
  have hkeys' : (os'.map Prod.fst).Nodup := (h.map Prod.fst).nodup_iff.mp hkeys
  refine Option.ext fun v => ?_
  rw [lookup_eq_some_iff_mem hkeys, lookup_eq_some_iff_mem hkeys', h.mem_iff]

end Lookup

namespace Members

variable {ms : Members} {m n : Member} {get get' : String → Option Value}

theorem names_eq_map : (ms : Members) → ms.names = ms.toList.map Member.name
  | .nil => rfl
  | .required name _ rest => congrArg (name :: ·) rest.names_eq_map
  | .optional name _ _ rest => congrArg (name :: ·) rest.names_eq_map
termination_by structural ms => ms

theorem eq_of_name_eq (hnames : ms.names.Nodup) (hm : m ∈ ms.toList) (hn : n ∈ ms.toList)
    (h : m.name = n.name) : m = n := by
  rw [names_eq_map] at hnames
  exact List.inj_on_of_nodup_map hnames hm hn h

theorem isNamed_of_mem : (ms : Members) → ms.areNamed = true → m ∈ ms.toList →
    m.kind.isNamed = true
  | .nil, _, hm => by cases hm
  | .required name s rest, h, hm => by
    rw [areNamed, Bool.and_eq_true] at h
    rcases List.mem_cons.mp hm with rfl | hm
    · exact h.1
    · exact rest.isNamed_of_mem h.2 hm
  | .optional name _ s rest, h, hm => by
    rw [areNamed, Bool.and_eq_true] at h
    rcases List.mem_cons.mp hm with rfl | hm
    · exact h.1
    · exact rest.isNamed_of_mem h.2 hm
termination_by structural ms => ms

/-- A record is read as before if all its members are. -/
theorem ofNamed_of_keeps : (ms : Members) → {c : ms.Carrier} →
    (∀ m ∈ ms.toList, m.Keeps (get m.name) (get' m.name)) → ms.ofNamed get = some c →
    ms.ofNamed get' = some c
  | .nil, _, _, h => h
  | .required name s rest, (a, as), hkeeps, h => by
    rw [ofNamed, map₂_mk_eq_some_iff] at h ⊢
    exact ⟨(hkeeps _ List.mem_cons_self).required h.1,
      rest.ofNamed_of_keeps (fun m hm => hkeeps m (List.mem_cons_of_mem _ hm)) h.2⟩
  | .optional name _ s rest, (slot, as), hkeeps, h => by
    rw [ofNamed, map₂_mk_eq_some_iff] at h ⊢
    exact ⟨(hkeeps _ List.mem_cons_self).optional h.1,
      rest.ofNamed_of_keeps (fun m hm => hkeeps m (List.mem_cons_of_mem _ hm)) h.2⟩
termination_by structural ms => ms

theorem ofNamed_replace {pre post : List (String × Value)} {v w : Value} {c : ms.Carrier}
    (hnames : ms.names.Nodup) (hm : m ∈ ms.toList) (hkey : m.name ∉ pre.map Prod.fst)
    (hkeeps : m.Keeps (some v) (some w))
    (h : ms.ofNamed ((pre ++ (m.name, v) :: post).lookup ·) = some c) :
    ms.ofNamed ((pre ++ (m.name, w) :: post).lookup ·) = some c := by
  refine ms.ofNamed_of_keeps (fun n hn => ?_) h
  by_cases hname : n.name = m.name
  · obtain rfl := eq_of_name_eq hnames hn hm hname
    rwa [lookup_middle hkey, lookup_middle hkey]
  · rw [lookup_middle_of_ne hname, lookup_middle_of_ne hname]
    exact .same _

end Members

theorem readAll_replace {α : Type} {read : Value → Except Cause α} {v w : Value}
    (h : ∀ a, read v = .ok a → read w = .ok a) {pre post : List Value} {as : List α}
    (has : readAll read (pre ++ v :: post) = .ok as) :
    readAll read (pre ++ w :: post) = .ok as := by
  induction pre generalizing as with
  | nil =>
    rw [List.nil_append, readAll] at has ⊢
    cases hv : read v with
    | error e =>
      rw [hv] at has
      cases has
    | ok a =>
      rw [hv] at has
      rwa [h a hv]
  | cons u pre ih =>
    rw [List.cons_append, readAll] at has ⊢
    cases hu : read u with
    | error e =>
      rw [hu] at has
      cases has
    | ok a =>
      rw [hu] at has
      dsimp only at has ⊢
      split at has
      · cases has
      · rename_i as' htail
        rwa [ih htail]

/-- A step at one record inside a value of some kind, as deep as it may lie. The names in an object
are all different. -/
inductive Schema.Within (step : Members → Value → Value → Prop) :
    Schema → Value → Value → Prop where
  | here {name : String} {members : Members} {v w : Value} (h : step members v w) :
    Within step (.record name members) v w
  | member {name : String} {members : Members} {m : Member} {pre post : List (String × Value)}
    {v w : Value} (hm : m ∈ members.toList)
    (hkeys : ((pre ++ (m.name, v) :: post).map Prod.fst).Nodup) (h : Within step m.kind v w) :
    Within step (.record name members) (.object (pre ++ (m.name, v) :: post))
      (.object (pre ++ (m.name, w) :: post))
  | place {name : String} {members : Members} {m : Member} {before after : List Member}
    {pre post : List Value} {v w : Value} (hm : members.toList = before ++ m :: after)
    (hlength : before.length = pre.length) (h : Within step m.kind v w) :
    Within step (.record name members) (.list (pre ++ v :: post)) (.list (pre ++ w :: post))
  | item {s : Schema} {pre post : List Value} {v w : Value} (h : Within step s v w) :
    Within step (.list s) (.list (pre ++ v :: post)) (.list (pre ++ w :: post))

/-- A step after which a record that could be read is read as before. -/
structure Members.Harmless (step : Members → Value → Value → Prop) : Prop where
  left {ms : Members} {v w : Value} : step ms v w → v.isNull = false
  right {ms : Members} {v w : Value} : step ms v w → w.isNull = false
  read {ms : Members} {v w : Value} {name : String} {c : ms.Carrier} : step ms v w →
    ms.names.Nodup → Schema.ofValue (.record name ms) v = .ok c →
      Schema.ofValue (.record name ms) w = .ok c

theorem Members.Harmless.mono {step step' : Members → Value → Value → Prop}
    (h : Harmless step) (himp : ∀ {ms v w}, step' ms v w → step ms v w) : Harmless step' where
  left hstep := h.left (himp hstep)
  right hstep := h.right (himp hstep)
  read hstep := h.read (himp hstep)

namespace Schema.Within

variable {step : Members → Value → Value → Prop} {s : Schema} {v w : Value}

theorem flip (h : Within step s v w) : Within (fun ms v w => step ms w v) s w v := by
  induction h with
  | here h => exact .here h
  | member hm hkeys _ ih =>
    refine .member hm ?_ ih
    simpa using hkeys
  | place hm hlength _ ih => exact .place hm hlength ih
  | item _ ih => exact .item ih

theorem isNull_left (hstep : Members.Harmless step) (h : Within step s v w) :
    v.isNull = false := by
  cases h with
  | here h => exact hstep.left h
  | _ => rfl

theorem isNull_right (hstep : Members.Harmless step) (h : Within step s v w) :
    w.isNull = false := by
  cases h with
  | here h => exact hstep.right h
  | _ => rfl

theorem keeps {m : Member} (hstep : Members.Harmless step) (h : Within step m.kind v w)
    (hread : ∀ a, m.kind.ofValue v = .ok a → m.kind.ofValue w = .ok a) :
    m.Keeps (some v) (some w) :=
  .read (h.isNull_left hstep) (h.isNull_right hstep) hread

/-- A harmless step is harmless wherever it is taken. -/
theorem ofValue_eq_ok (hstep : Members.Harmless step) (h : Within step s v w)
    (hs : s.isNamed = true) {c : s.Carrier} (hc : s.ofValue v = .ok c) : s.ofValue w = .ok c := by
  induction h with
  | here h =>
    rw [isNamed, Bool.and_eq_true, decide_eq_true_eq] at hs
    exact hstep.read h hs.1 hc
  | @member name members m pre post v w hm hkeys h ih =>
    rw [isNamed, Bool.and_eq_true, decide_eq_true_eq] at hs
    have hkeeps := h.keeps hstep fun a ha => ih (members.isNamed_of_mem hs.2 hm) ha
    have hkey : m.name ∉ pre.map Prod.fst := by
      rw [List.map_append] at hkeys
      exact fun hmem => List.disjoint_of_nodup_append hkeys hmem List.mem_cons_self
    rw [ofValue_object_eq_ok_iff hs.1 hkeys] at hc
    rw [ofValue_object_eq_ok_iff hs.1 (by simpa using hkeys)]
    exact members.ofNamed_replace hs.1 hm hkey hkeeps hc
  | @place name members m before after pre post v w hsplit hlength h ih =>
    rw [isNamed, Bool.and_eq_true, decide_eq_true_eq] at hs
    have hm : m ∈ members.toList := by simp [hsplit]
    have hkeeps := h.keeps hstep fun a ha => ih (members.isNamed_of_mem hs.2 hm) ha
    have hzip (u : Value) : members.names.zip (pre ++ u :: post) =
        (before.map Member.name).zip pre ++ (m.name, u) :: (after.map Member.name).zip post := by
      rw [Members.names_eq_map, hsplit, List.map_append, List.map_cons,
        List.zip_append (by rw [List.length_map, hlength]), List.zip_cons_cons]
    have hkey : m.name ∉ ((before.map Member.name).zip pre).map Prod.fst := by
      have hnames := hs.1
      rw [Members.names_eq_map, hsplit, List.map_append] at hnames
      rw [List.map_fst_zip (by rw [List.length_map, hlength])]
      exact fun hmem => List.disjoint_of_nodup_append hnames hmem List.mem_cons_self
    rw [ofValue_list_eq_ok_iff hs.1, hzip] at hc ⊢
    obtain ⟨hfewest, hsize, hread⟩ := hc
    refine ⟨by simpa using hfewest, by simpa using hsize, ?_⟩
    exact members.ofNamed_replace hs.1 hm hkey hkeeps hread
  | item _ ih => exact readAll_replace (fun a ha => ih hs ha) hc

end Schema.Within

end LanguageServer
