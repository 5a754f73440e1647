import LanguageServer.Proofs.Schema.Straight

namespace LanguageServer

open Json (Cause Fault Scan Scanner Value separated)

namespace Json

/-- The scanner takes some bytes for nothing, wherever they stand as a value. -/
def Scanner.Refuses {α : Type} (p : Scanner α) (b : Bytes) : Prop :=
  ∀ s, Scan.Follows s → ∃ f, p.run (b ++ s) = .error f

namespace Scanner

variable {α : Type} {p : Scanner α} {b : Bytes}

theorem Refuses.afterColon (h : p.Refuses b) : p.afterColon.Refuses (58 :: b) := by
  intro s hs
  exact h s hs

theorem Refuses.map {β : Type} (h : p.Refuses b) (f : α → β) : (p.map f).Refuses b := by
  intro s hs
  obtain ⟨fault, hfault⟩ := h s hs
  exact ⟨fault, by simp only [Scanner.map, hfault, Scan.map]⟩

/-- What is read straight refuses the text of a value that cannot be read. -/
theorem Straight.refuses {d : Nat} {read : Value → Except Cause α} {v : Value} {e : Cause}
    (hp : p.Straight d read) (hfits : v.Fits d) (he : read v = .error e) : p.Refuses v.render := by
  intro s hs
  cases hrun : p.run (v.render ++ s) with
  | error f => exact ⟨f, rfl⟩
  | ok q =>
    obtain ⟨a, r⟩ := q
    obtain ⟨w, hw, ha⟩ := (hp _ _ _).mp hrun
    rw [Value.reads_render hfits s hs] at hw
    cases hw
    rw [he] at ha
    cases ha

end Scanner

namespace Scan

variable {σ : Type} {member : String → σ → Scanner σ} {first : Bool} {done : σ} {s r t : Bytes}
  {key : String} {f : Fault} {e : Cause}

theorem members_of_member_error (h : nextKey first s = .ok (some r)) (hkey : text r = .ok (key, t))
    (hmember : (member key done).run t = .error f) : members member first done s = .error f := by
  rw [members]
  split
  · simp_all
  · simp_all
  · rename_i r' h'
    rw [h] at h'
    cases h'
    split
    · simp_all
    · rename_i key' t' hkey'
      rw [hkey] at hkey'
      cases hkey'
      split <;> simp_all

theorem members_first_refused {v : Bytes} (h : (member key done).Refuses (58 :: v))
    (hr : Follows r) :
    ∃ f, members member true done (renderText key ++ 58 :: v ++ r) = .error f := by
  obtain ⟨f, hf⟩ := h r hr
  rw [List.append_assoc, renderText_append]
  exact ⟨f, members_of_member_error (nextKey_first _) (text_escape key _) hf⟩

theorem members_comma_refused {v : Bytes} (h : (member key done).Refuses (58 :: v))
    (hr : Follows r) :
    ∃ f, members member false done (44 :: (renderText key ++ 58 :: v) ++ r) = .error f := by
  obtain ⟨f, hf⟩ := h r hr
  rw [List.cons_append, List.append_assoc, renderText_append]
  exact ⟨f, members_of_member_error (nextKey_comma _) (text_escape key _) hf⟩

variable {meet : String → Value → σ → Except Cause σ} {ms : List (String × Value)}

/-- What reads the members of an object one by one refuses those that cannot be met. -/
def RefusesMembers (member : String → σ → Scanner σ) (meet : String → Value → σ → Except Cause σ)
    (ms : List (String × Value)) : Prop :=
  ∀ m ∈ ms, ∀ done e, meet m.1 m.2 done = .error e → (member m.1 done).Refuses (58 :: m.2.render)

theorem members_more_refused (hmeet : meetAll meet ms done = .error e)
    (hreads : ReadsMembers member meet ms) (hrefuses : RefusesMembers member meet ms) (s : Bytes) :
    ∃ f, members member false done ((Value.renderMembers ms).flatMap (44 :: ·) ++ 125 :: s) =
      .error f := by
  induction ms generalizing done with
  | nil => cases hmeet
  | cons m ms ih =>
    obtain ⟨key, v⟩ := m
    rw [meetAll] at hmeet
    rw [Value.renderMembers, List.flatMap_cons, List.append_assoc]
    have hfollows := follows_more (Value.renderMembers ms) (.inr rfl) s
    cases hv : meet key v done with
    | error e =>
      exact members_comma_refused (hrefuses _ List.mem_cons_self done e hv) hfollows
    | ok next =>
      rw [hv] at hmeet
      rw [members_comma (hreads _ List.mem_cons_self done next hv) hfollows]
      exact ih hmeet (fun m hm => hreads m (List.mem_cons_of_mem _ hm))
        fun m hm => hrefuses m (List.mem_cons_of_mem _ hm)

/-- Where one of the members cannot be met, all of them are refused. -/
theorem members_separated_refused (hmeet : meetAll meet ms done = .error e)
    (hreads : ReadsMembers member meet ms) (hrefuses : RefusesMembers member meet ms) (s : Bytes) :
    ∃ f, members member true done (separated (Value.renderMembers ms) ++ 125 :: s) = .error f := by
  cases ms with
  | nil => cases hmeet
  | cons m ms =>
    obtain ⟨key, v⟩ := m
    rw [meetAll] at hmeet
    rw [Value.renderMembers, separated_cons, List.append_assoc]
    have hfollows := follows_more (Value.renderMembers ms) (.inr rfl) s
    cases hv : meet key v done with
    | error e =>
      exact members_first_refused (hrefuses _ List.mem_cons_self done e hv) hfollows
    | ok next =>
      rw [hv] at hmeet
      rw [members_first (hreads _ List.mem_cons_self done next hv) hfollows]
      exact members_more_refused hmeet (fun m hm => hreads m (List.mem_cons_of_mem _ hm))
        (fun m hm => hrefuses m (List.mem_cons_of_mem _ hm)) s

end Scan

end Json

theorem of_map_eq_error {ε α β : Type} {f : α → β} {x : Except ε α} {e : ε}
    (h : x.map f = .error e) : x = .error e := by
  cases x with
  | error e' =>
    cases h
    rfl
  | ok a => cases h

namespace Members

/-- Behind the name of a member that has no parts, a value that cannot be met is refused. -/
theorem refuses_scanMember : (ms : Members) → ms.arePlain = true → {key : String} → {v : Value} →
    {slots : ms.Slots} → {e : Cause} → {d : Nat} → v.Fits d → ms.meet key v slots = .error e →
    (ms.scanMember d key slots).Refuses (58 :: v.render)
  | .nil, _, key, v, slots, e, d, _, h => by cases h
  | .required name s rest, hplain, key, v, (slot, slots), e, d, hfits, h => by
    rw [arePlain, Bool.and_eq_true] at hplain
    unfold scanMember
    by_cases hkey : key = name
    · subst hkey
      rw [if_pos rfl]
      cases slot with
      | some a => exact fun s _ => ⟨_, rfl⟩
      | none =>
        rw [meet_required_self] at h
        have hrefuses := (Schema.straight_scan hplain.1).refuses hfits (of_map_eq_error h)
        exact hrefuses.afterColon.map _
    · rw [meet_required_other _ _ _ hkey] at h
      rw [if_neg hkey]
      exact (rest.refuses_scanMember hplain.2 hfits (of_map_eq_error h)).map _
  | .optional name positional s rest, hplain, key, v, (slot, slots), e, d, hfits, h => by
    rw [arePlain, Bool.and_eq_true] at hplain
    unfold scanMember
    by_cases hkey : key = name
    · subst hkey
      rw [if_pos rfl]
      cases slot with
      | some a => exact fun s _ => ⟨_, rfl⟩
      | none =>
        rw [meet_optional_self] at h
        have hrefuses := (Schema.straight_scan hplain.1).unlessNull.refuses hfits
          (of_map_eq_error h)
        exact hrefuses.afterColon.map _
    · rw [meet_optional_other _ _ _ hkey] at h
      rw [if_neg hkey]
      exact (rest.refuses_scanMember hplain.2 hfits (of_map_eq_error h)).map _
termination_by structural ms => ms

end Members

theorem Part.run_ofMembers_refused {σ α : Type} {member : String → σ → Scanner σ} {start : σ}
    {finish : σ → Except Cause α} {meet : String → Value → σ → Except Cause σ}
    {os : List (String × Value)} {e : Cause}
    (h : (meetAll meet os start).bind finish = .error e)
    (hreads : Scan.ReadsMembers member meet os) (hrefuses : Scan.RefusesMembers member meet os)
    (s : Bytes) :
    ∃ f, (ofMembers member start finish).run (separated (Value.renderMembers os) ++ 125 :: s) =
      .error f := by
  dsimp only [ofMembers]
  cases hmeet : meetAll meet os start with
  | error e' =>
    obtain ⟨f, hf⟩ := Scan.members_separated_refused hmeet hreads hrefuses s
    exact ⟨f, by rw [hf]⟩
  | ok last =>
    rw [hmeet] at h
    have hfinish : finish last = .error e := h
    rw [Scan.members_separated hmeet hreads]
    dsimp only
    rw [hfinish]
    exact ⟨_, rfl⟩

section Record

variable {name : String} {members : Members} {os : List (String × Value)} {d : Nat} {e : Cause}

theorem Schema.refuses_render_object (hplain : members.arePlain = true)
    (hfits : (Value.object os).Fits d)
    (h : Schema.ofValue (.record name members) (.object os) = .error e) :
    ((Schema.record name members).scan d).Refuses (Value.object os).render := by
  obtain ⟨d, rfl, -, hmembers⟩ := hfits.exists_members
  intro s hs
  have hbind : (meetAll members.meet os members.empty).bind members.finish = .error e := by
    rw [Schema.ofValue] at h
    rw [← h]
    cases meetAll members.meet os members.empty <;> rfl
  have hreads : Scan.ReadsMembers (fun key slots => members.scanMember d key slots) members.meet
      os := fun m hm slots next hnext => members.reads_scanMember (hmembers m hm) hnext
  have hrefuses : Scan.RefusesMembers (fun key slots => members.scanMember d key slots)
      members.meet os :=
    fun m hm slots e he => members.refuses_scanMember hplain (hmembers m hm) he
  obtain ⟨f, hf⟩ := Part.run_ofMembers_refused hbind hreads hrefuses s
  rw [Value.render_object]
  change ∃ f, Scan.inObject ((Part.ofMembers _ _ _).run _) = _
  rw [hf]
  exact ⟨_, rfl⟩

/-- The compact text of an object is read straight as a record of members without parts just if the
object can be read so. -/
theorem Schema.parse_render_object_eq_ok_iff (hplain : members.arePlain = true)
    (hfits : (Value.object os).Fits Json.maxDepth) {c : members.Carrier} :
    (Schema.record name members).parse (Value.object os).render = .ok c ↔
      Schema.ofValue (.record name members) (.object os) = .ok c := by
  constructor
  · intro h
    cases hread : Schema.ofValue (.record name members) (.object os) with
    | ok c' =>
      rw [Schema.parse_render hfits hread] at h
      cases h
      rfl
    | error e =>
      obtain ⟨f, hf⟩ := Schema.refuses_render_object hplain hfits hread [] Scan.follows_nil
      obtain ⟨rest, hrun, -⟩ := Scanner.parse_eq_ok_iff.mp h
      rw [List.append_nil] at hf
      rw [hf] at hrun
      cases hrun
  · exact Schema.parse_render hfits

end Record

end LanguageServer
