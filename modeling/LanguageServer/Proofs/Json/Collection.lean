import LanguageServer.Json.Scan.Collection
import LanguageServer.Proofs.Json.Number
import LanguageServer.Proofs.Json.Text
import LanguageServer.Schema.OfValue

namespace LanguageServer.Json

open Scan

/-- The scanner takes some bytes for `a`, wherever they stand as a value. -/
def Scanner.Reads {α : Type} (p : Scanner α) (b : Bytes) (a : α) : Prop :=
  ∀ s, Follows s → p.run (b ++ s) = .ok (a, s)

/-- How a value begins, which is neither blank nor the end of a list. -/
def Opens (b : Bytes) : Prop := ∃ c rest, b = c :: rest ∧ isBlank c = false ∧ c ≠ 93

theorem separated_cons (b : Bytes) (bs : List Bytes) :
    separated (b :: bs) = b ++ bs.flatMap (44 :: ·) := by
  induction bs generalizing b with
  | nil => simp [separated]
  | cons c bs ih => rw [separated, ih c, List.flatMap_cons, List.cons_append]; simp

theorem follows_more (bs : List Bytes) {c : UInt8} (hc : c = 93 ∨ c = 125) (s : Bytes) :
    Follows (bs.flatMap (44 :: ·) ++ c :: s) := by
  cases bs with
  | nil => rcases hc with rfl | rfl <;> simp [Follows]
  | cons b bs => simp [Follows]

namespace Scan

variable {s r t b : Bytes} {first : Bool}

theorem skipBlank_cons {c : UInt8} (h : isBlank c = false) (s : Bytes) :
    skipBlank (c :: s) = c :: s := by
  simp [skipBlank, h]

theorem nextItem_end (first : Bool) (s : Bytes) : nextItem first (93 :: s) = .ok none := rfl

theorem nextItem_first (h : Opens b) (s : Bytes) :
    nextItem true (b ++ s) = .ok (some (b ++ s)) := by
  obtain ⟨c, rest, rfl, hblank, hend⟩ := h
  simp [nextItem, skipBlank_cons hblank, hend]

theorem nextItem_comma (h : Opens b) (s : Bytes) :
    nextItem false (44 :: b ++ s) = .ok (some (b ++ s)) := by
  obtain ⟨c, rest, rfl, hblank, hend⟩ := h
  rw [List.cons_append, nextItem, skipBlank_cons (by decide)]
  simp [skipBlank_cons hblank, hend]

theorem nextKey_end (first : Bool) (s : Bytes) : nextKey first (125 :: s) = .ok none := rfl

theorem nextKey_first (s : Bytes) : nextKey true (34 :: s) = .ok (some s) := rfl

theorem nextKey_comma (s : Bytes) : nextKey false (44 :: 34 :: s) = .ok (some s) := rfl

section Items

variable {α : Type} {item : Scanner α} {done : List α}

theorem items_of_none (h : nextItem first s = .ok none) :
    items item first done s = .ok (done.reverse, skipBlank s) := by
  rw [items]
  split <;> simp_all

theorem items_of_some {a : α} (h : nextItem first s = .ok (some r))
    (ha : item.run r = .ok (a, t)) : items item first done s = items item false (a :: done) t := by
  rw [items]
  split
  · simp_all
  · simp_all
  · rename_i r' h'
    rw [h] at h'
    cases h'
    split <;> simp_all

theorem items_more {bs : List Bytes} {as : List α}
    (h : List.Forall₂ (fun b a => Opens b ∧ item.Reads b a) bs as) (done : List α) (s : Bytes) :
    items item false done (bs.flatMap (44 :: ·) ++ 93 :: s) =
      .ok (done.reverse ++ as, 93 :: s) := by
  induction h generalizing done with
  | nil =>
    rw [List.append_nil]
    exact items_of_none (nextItem_end false s)
  | @cons b a bs as hb htail ih =>
    obtain ⟨hopens, hreads⟩ := hb
    rw [List.flatMap_cons, List.append_assoc,
      items_of_some (nextItem_comma hopens _) (hreads _ (follows_more bs (.inl rfl) s)), ih,
      List.reverse_cons, List.append_assoc]
    rfl

/-- Items with commas between them are read one after the other. -/
theorem items_separated {bs : List Bytes} {as : List α}
    (h : List.Forall₂ (fun b a => Opens b ∧ item.Reads b a) bs as) (s : Bytes) :
    items item true [] (separated bs ++ 93 :: s) = .ok (as, 93 :: s) := by
  cases h with
  | nil => exact items_of_none (nextItem_end true s)
  | @cons b a bs as hb htail =>
    obtain ⟨hopens, hreads⟩ := hb
    rw [separated_cons, List.append_assoc,
      items_of_some (nextItem_first hopens _) (hreads _ (follows_more bs (.inl rfl) s)),
      items_more htail]
    rfl

end Items

section Members

variable {σ : Type} {member : String → σ → Scanner σ} {done last : σ}

theorem members_of_none (h : nextKey first s = .ok none) :
    members member first done s = .ok (done, skipBlank s) := by
  rw [members]
  split <;> simp_all

theorem members_of_some {key : String} {next : σ} {u : Bytes} (h : nextKey first s = .ok (some r))
    (hkey : text r = .ok (key, t)) (hmember : (member key done).run t = .ok (next, u)) :
    members member first done s = members member false next u := by
  rw [members]
  split
  · simp_all
  · simp_all
  · rename_i r' h'
    rw [h] at h'
    cases h'
    split
    · simp_all
    · rename_i key' t' hkey'
      rw [hkey] at hkey'
      cases hkey'
      split <;> simp_all

theorem members_first {key : String} {next : σ} {v : Bytes}
    (hreads : (member key done).Reads (58 :: v) next) (hr : Follows r) :
    members member true done (renderText key ++ 58 :: v ++ r) = members member false next r := by
  rw [List.append_assoc, renderText_append]
  exact members_of_some (nextKey_first _) (text_escape key _) (hreads r hr)

theorem members_comma {key : String} {next : σ} {v : Bytes}
    (hreads : (member key done).Reads (58 :: v) next) (hr : Follows r) :
    members member false done (44 :: (renderText key ++ 58 :: v) ++ r) =
      members member false next r := by
  rw [List.cons_append, List.append_assoc, renderText_append]
  exact members_of_some (nextKey_comma _) (text_escape key _) (hreads r hr)

variable {meet : String → Value → σ → Except Cause σ} {ms : List (String × Value)}

theorem meetAll_cons_eq_ok {key : String} {v : Value}
    (h : meetAll meet ((key, v) :: ms) done = .ok last) :
    ∃ next, meet key v done = .ok next ∧ meetAll meet ms next = .ok last := by
  unfold meetAll at h
  split at h
  · cases h
  · rename_i next hnext
    exact ⟨next, hnext, h⟩

/-- What reads the members of an object one by one meets them one by one. -/
def ReadsMembers (member : String → σ → Scanner σ) (meet : String → Value → σ → Except Cause σ)
    (ms : List (String × Value)) : Prop :=
  ∀ m ∈ ms, ∀ done next, meet m.1 m.2 done = .ok next →
    (member m.1 done).Reads (58 :: m.2.render) next

theorem members_more (hmeet : meetAll meet ms done = .ok last) (h : ReadsMembers member meet ms)
    (s : Bytes) :
    members member false done ((Value.renderMembers ms).flatMap (44 :: ·) ++ 125 :: s) =
      .ok (last, 125 :: s) := by
  induction ms generalizing done with
  | nil =>
    cases hmeet
    exact members_of_none (nextKey_end false s)
  | cons m ms ih =>
    obtain ⟨key, v⟩ := m
    obtain ⟨next, hnext, hrest⟩ := meetAll_cons_eq_ok hmeet
    rw [Value.renderMembers, List.flatMap_cons, List.append_assoc,
      members_comma (h _ List.mem_cons_self done next hnext) (follows_more _ (.inr rfl) s)]
    exact ih hrest fun m hm => h m (List.mem_cons_of_mem _ hm)

/-- Members with commas between them are met one after the other. -/
theorem members_separated (hmeet : meetAll meet ms done = .ok last)
    (h : ReadsMembers member meet ms) (s : Bytes) :
    members member true done (separated (Value.renderMembers ms) ++ 125 :: s) =
      .ok (last, 125 :: s) := by
  cases ms with
  | nil =>
    cases hmeet
    exact members_of_none (nextKey_end true s)
  | cons m ms =>
    obtain ⟨key, v⟩ := m
    obtain ⟨next, hnext, hrest⟩ := meetAll_cons_eq_ok hmeet
    rw [Value.renderMembers, separated_cons, List.append_assoc,
      members_first (h _ List.mem_cons_self done next hnext) (follows_more _ (.inr rfl) s)]
    exact members_more hrest (fun m hm => h m (List.mem_cons_of_mem _ hm)) s

end Members

end Scan

namespace Scanner

variable {α : Type} {p : Scanner α} {b : Bytes} {a : α}

theorem Reads.afterColon (h : p.Reads b a) : p.afterColon.Reads (58 :: b) a := by
  intro s hs
  exact h s hs

theorem Reads.map {β : Type} (h : p.Reads b a) (f : α → β) : (p.map f).Reads b (f a) := by
  intro s hs
  simp only [Scanner.map, h s hs, Scan.map]

end Scanner

end LanguageServer.Json
