import LanguageServer.Payload
import LanguageServer.Proofs.Json.Value

namespace LanguageServer

open Json (Value)

mutual

/-- Nothing of any kind lies in it, and every record has names of its own for its members. -/
def Schema.isClosed : Schema → Bool
  | .any => false
  | .list item => item.isClosed
  | .record _ members => decide members.names.Nodup && members.areClosed
  | _ => true
termination_by structural s => s

def Members.areClosed : Members → Bool
  | .nil => true
  | .required _ s rest => s.isClosed && rest.areClosed
  | .optional _ _ s rest => s.isClosed && rest.areClosed
termination_by structural ms => ms

end

mutual

/-- How many lists and records lie within one another, values of any kind aside. -/
def Schema.depth : Schema → Nat
  | .list item => item.depth + 1
  | .record _ members => members.depth + 1
  | _ => 0
termination_by structural s => s

def Members.depth : Members → Nat
  | .nil => 0
  | .required _ s rest => max s.depth rest.depth
  | .optional _ _ s rest => max s.depth rest.depth
termination_by structural ms => ms

end

theorem Word.isExact_val {w : Width} (x : Word w) : Json.isExact x.val = true := by
  have hmin := x.min_le
  have hmax := x.le_max
  simp only [Json.isExact, Bool.and_eq_true, decide_eq_true_eq]
  cases w <;> simp only [Width.min, Width.max] at hmin hmax <;> omega

theorem Json.Value.fits_integer {n : Int} (h : Json.isExact n = true) :
    (Value.number (.integer n)).Fits 0 := ⟨h, Nat.le_refl 0⟩

theorem Json.Value.fits_null : Value.null.Fits 0 := ⟨rfl, Nat.le_refl 0⟩

theorem Json.Value.fits_text (t : String) : (Value.text t).Fits 0 := ⟨rfl, Nat.le_refl 0⟩

theorem RequestId.fits_toValue (i : RequestId) : i.toValue.Fits 0 := by
  cases i with
  | number n => exact Value.fits_integer n.isExact_val
  | text s => exact Value.fits_text s

/-- Only the names of a record are names of its members. -/
theorem Members.names_toMembers : (ms : Members) → (c : ms.Carrier) →
    ((ms.toMembers c).map Prod.fst).Sublist ms.names
  | .nil, _ => List.Sublist.refl _
  | .required name _ rest, (_, as) => (rest.names_toMembers as).cons_cons name
  | .optional name _ _ rest, (none, as) => (rest.names_toMembers as).cons name
  | .optional name _ _ rest, (some _, as) => (rest.names_toMembers as).cons_cons name
termination_by structural ms => ms

mutual

/-- What stands for something of a closed kind can be read again. -/
theorem Schema.fits_toValue : (s : Schema) → s.isClosed = true → (c : s.Carrier) →
    (s.toValue c).Fits s.depth
  | .text, _, c => Value.fits_text c
  | .word w, _, c => Value.fits_integer (Word.isExact_val c)
  | .id, _, c => RequestId.fits_toValue c
  | .list item, h, c => by
    refine Value.fits_list ?_
    intro v hv
    obtain ⟨a, -, rfl⟩ := List.mem_map.mp hv
    exact item.fits_toValue h a
  | .record _ members, h, c => by
    rw [Schema.isClosed, Bool.and_eq_true, decide_eq_true_eq] at h
    exact Value.fits_object (h.1.sublist (members.names_toMembers c))
      (members.fits_toMembers h.2 c)
termination_by structural s => s

theorem Members.fits_toMembers : (ms : Members) → ms.areClosed = true → (c : ms.Carrier) →
    ∀ m ∈ ms.toMembers c, m.2.Fits ms.depth
  | .nil, _, _ => by
    intro m hm
    cases hm
  | .required name s rest, h, (a, as) => by
    rw [Members.areClosed, Bool.and_eq_true] at h
    intro m hm
    rcases List.mem_cons.mp hm with rfl | hm
    · exact (s.fits_toValue h.1 a).mono (Nat.le_max_left _ _)
    · exact (rest.fits_toMembers h.2 as m hm).mono (Nat.le_max_right _ _)
  | .optional name _ s rest, h, (slot, as) => by
    rw [Members.areClosed, Bool.and_eq_true] at h
    intro m hm
    cases slot with
    | none => exact (rest.fits_toMembers h.2 as m hm).mono (Nat.le_max_right _ _)
    | some a =>
      rcases List.mem_cons.mp hm with rfl | hm
      · exact (s.fits_toValue h.1 a).mono (Nat.le_max_left _ _)
      · exact (rest.fits_toMembers h.2 as m hm).mono (Nat.le_max_right _ _)
termination_by structural ms => ms

end

theorem Payload.fits_toValue {α : Type} [Payload α] (h : (schema α).isClosed = true) (a : α) :
    (toValue a).Fits (schema α).depth := (schema α).fits_toValue h (toCarrier a)

end LanguageServer
