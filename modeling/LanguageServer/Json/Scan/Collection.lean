import LanguageServer.Json.Scan.Text

namespace LanguageServer.Json.Scan

/-- The items of a list, up to and without the bracket that closes it. Those before `s` are in
`done`, the last one first. -/
def items {α : Type} (item : Scanner α) (first : Bool) (done : List α) (s : Bytes) :
    Scan (List α) :=
  match _h : nextItem first s with
  | .error f => .error f
  | .ok none => .ok (done.reverse, skipBlank s)
  | .ok (some r) =>
    match _ha : item.run r with
    | .error f => .error f
    | .ok (a, t) => items item false (a :: done) t
termination_by s.length
decreasing_by
  have := length_nextItem_le _h
  have := item.shrinks _ha
  omega

/-- The members of an object, up to and without the brace that closes it. Each is read behind its
name and added to what the members before it have led to. -/
def members {σ : Type} (member : String → σ → Scanner σ) (first : Bool) (done : σ) (s : Bytes) :
    Scan σ :=
  match _h : nextKey first s with
  | .error f => .error f
  | .ok none => .ok (done, skipBlank s)
  | .ok (some r) =>
    match _hk : text r with
    | .error f => .error f
    | .ok (key, t) =>
      match _hm : (member key done).run t with
      | .error f => .error f
      | .ok (next, u) => members member false next u
termination_by s.length
decreasing_by
  have := length_nextKey_lt _h
  have := length_text_lt _hk
  have := (member key done).shrinks _hm
  omega

theorem length_items_le {α : Type} {item : Scanner α} {first : Bool} {done as : List α}
    {s r : Bytes} (h : items item first done s = .ok (as, r)) : r.length ≤ s.length := by
  fun_induction items item first done s with
  | case1 => cases h
  | case2 first done s =>
    cases h
    exact length_skipBlank_le s
  | case3 => cases h
  | case4 first done s r' hn a t ha ih =>
    have := length_nextItem_le hn
    have := item.shrinks ha
    have := ih h
    omega

theorem length_members_le {σ : Type} {member : String → σ → Scanner σ} {first : Bool}
    {done last : σ} {s r : Bytes} (h : members member first done s = .ok (last, r)) :
    r.length ≤ s.length := by
  fun_induction members member first done s with
  | case1 => cases h
  | case2 first done s =>
    cases h
    exact length_skipBlank_le s
  | case3 => cases h
  | case4 => cases h
  | case5 first done s r' hn key t hk next u hm ih =>
    have := length_nextKey_lt hn
    have := length_text_lt hk
    have := (member key done).shrinks hm
    have := ih h
    omega

end LanguageServer.Json.Scan

namespace LanguageServer.Json.Scanner

/-- Reads what follows a colon. -/
def afterColon {α : Type} (p : Scanner α) : Scanner α where
  run s :=
    match Scan.colon s with
    | .error f => .error f
    | .ok r => p.run r
  shrinks h := by
    split at h
    · cases h
    · rename_i hr
      have := Scan.length_colon_lt hr
      have := p.shrinks h
      omega

end LanguageServer.Json.Scanner
