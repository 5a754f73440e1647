import LanguageServer.Log

namespace LanguageServer

/-- The texts of the open documents. Each document is there once. -/
structure Documents where
  entries : List (String × String) := []
  nodup : (entries.map Prod.fst).Nodup := by exact List.nodup_nil
  deriving DecidableEq

namespace Documents

def text? (d : Documents) (uri : String) : Option String := d.entries.lookup uri

def size (d : Documents) : Nat := d.entries.length

def isEmpty (d : Documents) : Bool := d.entries.isEmpty

def isOpen (d : Documents) (uri : String) : Bool := (d.text? uri).isSome

/-- The entries of all other documents. -/
def others (uri : String) (entries : List (String × String)) : List (String × String) :=
  entries.filter fun e => e.1 != uri

theorem nodup_others {entries : List (String × String)} (uri : String)
    (h : (entries.map Prod.fst).Nodup) : ((others uri entries).map Prod.fst).Nodup :=
  h.sublist (List.filter_sublist.map Prod.fst)

theorem notMem_others (uri : String) (entries : List (String × String)) :
    uri ∉ (others uri entries).map Prod.fst := by
  simp [others]

/-- Sets the text of a document, open or not. -/
def put (d : Documents) (uri text : String) : Documents where
  entries := (uri, text) :: others uri d.entries
  nodup := List.nodup_cons.mpr ⟨notMem_others uri d.entries, nodup_others uri d.nodup⟩

/-- Forgets a document. -/
def close (d : Documents) (uri : String) : Documents where
  entries := others uri d.entries
  nodup := nodup_others uri d.nodup

/-- What is logged when a document gets a new text: it should have been open. -/
def updateLog (d : Documents) (uri : String) : List Log.Event :=
  if d.isOpen uri then []
  else [⟨.warn, .documents, s!"Update for unopened document {uri}, creating it"⟩]

theorem lookup_others (uri other : String) (entries : List (String × String)) :
    (others uri entries).lookup other =
      if other = uri then none else entries.lookup other := by
  induction entries with
  | nil => simp [others]
  | cons e es ih =>
    obtain ⟨k, t⟩ := e
    have keep : others uri ((k, t) :: es) =
        if k = uri then others uri es else (k, t) :: others uri es := by
      by_cases h : k = uri <;> simp [others, h]
    rw [keep]
    by_cases hk : k = uri
    · rw [if_pos hk, ih]
      by_cases ho : other = uri
      · rw [if_pos ho, if_pos ho]
      · have : (other == k) = false := by simp [hk, ho]
        rw [if_neg ho, if_neg ho, List.lookup_cons, this]
    · rw [if_neg hk, List.lookup_cons, ih, List.lookup_cons]
      by_cases ho : other = k
      · have : ¬ other = uri := by rw [ho]; exact hk
        simp [ho, hk]
      · have : (other == k) = false := by simp [ho]
        rw [this]

theorem text?_put (d : Documents) (uri text other : String) :
    (d.put uri text).text? other = if other = uri then some text else d.text? other := by
  unfold text? put
  dsimp only
  rw [List.lookup_cons, lookup_others]
  by_cases h : other = uri
  · simp [h]
  · have : (other == uri) = false := by simp [h]
    rw [this, if_neg h, if_neg h]

theorem text?_close (d : Documents) (uri other : String) :
    (d.close uri).text? other = if other = uri then none else d.text? other :=
  lookup_others uri other d.entries

theorem text?_isSome_iff (d : Documents) (uri : String) :
    (d.text? uri).isSome = true ↔ uri ∈ d.entries.map Prod.fst := by
  unfold text?
  induction d.entries with
  | nil => simp
  | cons e es ih =>
    obtain ⟨k, t⟩ := e
    rw [List.lookup_cons]
    by_cases h : uri = k
    · simp [h]
    · have : (uri == k) = false := by simp [h]
      rw [this]
      simp only [List.map_cons, List.mem_cons, h, false_or]
      exact ih

end Documents

end LanguageServer
