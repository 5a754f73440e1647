import LanguageServer.Binary64

namespace LanguageServer.Json

/-- Integers from `-2 ^ 63` to `2 ^ 64 - 1` are kept exact. Every other number is floating. -/
inductive Number where
  | integer (n : Int)
  | floating (x : Binary64)
  deriving DecidableEq

/-- The integers that are kept exact. -/
def isExact (n : Int) : Bool := -9223372036854775808 ≤ n && n < 18446744073709551616

/-- A JSON value. The members of an object keep their order. -/
inductive Value where
  | null
  | bool (b : Bool)
  | number (n : Number)
  | text (s : String)
  | list (items : List Value)
  | object (members : List (String × Value))
  deriving Inhabited

namespace Value

mutual

/-- How many lists and objects lie within one another. -/
def depth : Value → Nat
  | .list items => itemsDepth items + 1
  | .object members => membersDepth members + 1
  | _ => 0
termination_by structural v => v

def itemsDepth : List Value → Nat
  | [] => 0
  | v :: vs => max v.depth (itemsDepth vs)
termination_by structural vs => vs

def membersDepth : List (String × Value) → Nat
  | [] => 0
  | (_, v) :: ms => max v.depth (membersDepth ms)
termination_by structural ms => ms

end

mutual

def decEq : (v w : Value) → Decidable (v = w)
  | .null, .null => isTrue rfl
  | .bool a, .bool b => if h : a = b then isTrue (h ▸ rfl) else isFalse (by simp [h])
  | .number a, .number b => if h : a = b then isTrue (h ▸ rfl) else isFalse (by simp [h])
  | .text a, .text b => if h : a = b then isTrue (h ▸ rfl) else isFalse (by simp [h])
  | .list a, .list b =>
    match itemsDecEq a b with
    | isTrue h => isTrue (h ▸ rfl)
    | isFalse h => isFalse (by simp [h])
  | .object a, .object b =>
    match membersDecEq a b with
    | isTrue h => isTrue (h ▸ rfl)
    | isFalse h => isFalse (by simp [h])
  | .null, .bool _ | .null, .number _ | .null, .text _ | .null, .list _ | .null, .object _
  | .bool _, .null | .bool _, .number _ | .bool _, .text _ | .bool _, .list _
  | .bool _, .object _ | .number _, .null | .number _, .bool _ | .number _, .text _
  | .number _, .list _ | .number _, .object _ | .text _, .null | .text _, .bool _
  | .text _, .number _ | .text _, .list _ | .text _, .object _ | .list _, .null
  | .list _, .bool _ | .list _, .number _ | .list _, .text _ | .list _, .object _
  | .object _, .null | .object _, .bool _ | .object _, .number _ | .object _, .text _
  | .object _, .list _ => isFalse (by simp)
termination_by structural v => v

def itemsDecEq : (vs ws : List Value) → Decidable (vs = ws)
  | [], [] => isTrue rfl
  | v :: vs, w :: ws =>
    match decEq v w, itemsDecEq vs ws with
    | isTrue h, isTrue t => isTrue (by rw [h, t])
    | isFalse h, _ => isFalse (by simp [h])
    | _, isFalse t => isFalse (by simp [t])
  | [], _ :: _ | _ :: _, [] => isFalse (by simp)
termination_by structural vs => vs

def membersDecEq : (ms ns : List (String × Value)) → Decidable (ms = ns)
  | [], [] => isTrue rfl
  | (k, v) :: ms, (l, w) :: ns =>
    if hk : k = l then
      match decEq v w, membersDecEq ms ns with
      | isTrue h, isTrue t => isTrue (by rw [hk, h, t])
      | isFalse h, _ => isFalse (by simp [h])
      | _, isFalse t => isFalse (by simp [t])
    else isFalse (by simp [hk])
  | [], _ :: _ | _ :: _, [] => isFalse (by simp)
termination_by structural ms => ms

end

instance : DecidableEq Value := decEq

/-- The value of the first member with a name. -/
def get? (key : String) : Value → Option Value
  | .object members => members.lookup key
  | _ => none

/-- Sets a member: in its old place if the name is there, else at the end. -/
def setMember (key : String) (v : Value) : List (String × Value) → List (String × Value)
  | [] => [(key, v)]
  | (k, w) :: ms => if k = key then (k, v) :: ms else (k, w) :: setMember key v ms

/-- The object that results from setting members one after the other. -/
def ofMembers (ms : List (String × Value)) : Value :=
  .object (ms.foldl (fun done m => setMember m.1 m.2 done) [])

def isNull : Value → Bool
  | .null => true
  | _ => false

theorem keys_setMember (key : String) (v : Value) (ms : List (String × Value)) :
    (setMember key v ms).map Prod.fst =
      if key ∈ ms.map Prod.fst then ms.map Prod.fst else ms.map Prod.fst ++ [key] := by
  induction ms with
  | nil => simp [setMember]
  | cons m ms ih =>
    obtain ⟨k, w⟩ := m
    unfold setMember
    by_cases h : k = key
    · simp [h]
    · have h' : ¬ key = k := fun e => h e.symm
      rw [if_neg h, List.map_cons, ih]
      simp only [List.map_cons, List.mem_cons, h', false_or]
      split <;> rfl

theorem setMember_of_notMem {key : String} {ms : List (String × Value)} (v : Value)
    (h : key ∉ ms.map Prod.fst) : setMember key v ms = ms ++ [(key, v)] := by
  induction ms with
  | nil => rfl
  | cons m ms ih =>
    obtain ⟨k, w⟩ := m
    simp only [List.map_cons, List.mem_cons, not_or] at h
    rw [setMember, if_neg (fun e => h.1 e.symm), ih h.2]
    rfl

/-- Members with distinct names are an object as they stand. -/
theorem ofMembers_of_nodup {ms : List (String × Value)} (h : (ms.map Prod.fst).Nodup) :
    ofMembers ms = .object ms := by
  suffices step : ∀ done : List (String × Value), ((done ++ ms).map Prod.fst).Nodup →
      ms.foldl (fun done m => setMember m.1 m.2 done) done = done ++ ms by
    rw [ofMembers, step [] h]
    rfl
  clear h
  induction ms with
  | nil => simp
  | cons m ms ih =>
    obtain ⟨k, v⟩ := m
    intro done hd
    have hk : k ∉ done.map Prod.fst := by
      rw [List.map_append, List.nodup_append] at hd
      intro hm
      exact hd.2.2 k hm k (by simp) rfl
    rw [List.foldl_cons, setMember_of_notMem v hk, ih _ (by simpa using hd), List.append_assoc,
      List.singleton_append]

end Value

end LanguageServer.Json
