import LanguageServer.Proofs.Handler
import LanguageServer.Proofs.Message.Response

namespace LanguageServer

open Json (Value)

theorem Schema.isNull_toValue {s : Schema} (h : s.isClosed = true) (c : s.Carrier) :
    (s.toValue c).isNull = false := by
  cases s with
  | any => cases h
  | id => cases c <;> rfl
  | _ => rfl

mutual

theorem Schema.isNamed_of_isClosed : (s : Schema) → s.isClosed = true → s.isNamed = true
  | .text, _ => rfl
  | .word _, _ => rfl
  | .id, _ => rfl
  | .any, h => by cases h
  | .list item, h => item.isNamed_of_isClosed h
  | .record _ members, h => by
    rw [Schema.isClosed, Bool.and_eq_true] at h
    rw [Schema.isNamed, h.1, members.areNamed_of_areClosed h.2]
    rfl
termination_by structural s => s

theorem Members.areNamed_of_areClosed : (ms : Members) → ms.areClosed = true → ms.areNamed = true
  | .nil, _ => rfl
  | .required _ s rest, h => by
    rw [Members.areClosed, Bool.and_eq_true] at h
    rw [Members.areNamed, s.isNamed_of_isClosed h.1, rest.areNamed_of_areClosed h.2]
    rfl
  | .optional _ _ s rest, h => by
    rw [Members.areClosed, Bool.and_eq_true] at h
    rw [Members.areNamed, s.isNamed_of_isClosed h.1, rest.areNamed_of_areClosed h.2]
    rfl
termination_by structural ms => ms

end

mutual

/-- All of it is kept, as no member of a closed kind stands as null. -/
theorem Schema.kept_of_isClosed : (s : Schema) → s.isClosed = true → (c : s.Carrier) →
    s.kept c = c
  | .text, _, _ => rfl
  | .word _, _, _ => rfl
  | .id, _, _ => rfl
  | .any, h, _ => by cases h
  | .list item, h, c => (List.map_congr_left fun a _ => item.kept_of_isClosed h a).trans c.map_id
  | .record _ members, h, c => by
    rw [Schema.isClosed, Bool.and_eq_true] at h
    exact members.kept_of_areClosed h.2 c
termination_by structural s => s

theorem Members.kept_of_areClosed : (ms : Members) → ms.areClosed = true → (c : ms.Carrier) →
    ms.kept c = c
  | .nil, _, _ => rfl
  | .required _ s rest, h, (a, as) => by
    rw [Members.areClosed, Bool.and_eq_true] at h
    rw [Members.kept, s.kept_of_isClosed h.1 a, rest.kept_of_areClosed h.2 as]
  | .optional _ _ s rest, h, (slot, as) => by
    rw [Members.areClosed, Bool.and_eq_true] at h
    rw [Members.kept, rest.kept_of_areClosed h.2 as]
    cases slot with
    | none => rfl
    | some a =>
      simp [Option.filter, Schema.isNull_toValue h.1 a, s.kept_of_isClosed h.1 a]
termination_by structural ms => ms

end

namespace Payload

variable {α : Type} [Payload α]

/-- The frame that carries a payload. -/
def encode (a : α) : Bytes := Frame.encode (toValue a).render

/-- The frame is whole, and what it carries is the payload, read straight from the text and read
through a value. -/
structure Carries (frame : Bytes) (a : α) : Prop where
  whole : Frame.IsWhole frame
  straight : parse α (Frame.content frame) = .ok a
  staged : ∃ v, Json.parse (Frame.content frame) = .ok v ∧ ofValue α v = .ok a

theorem ofValue_toValue_of_isClosed (h : (schema α).isClosed = true) (a : α) :
    ofValue α (toValue a) = .ok a := by
  rw [ofValue_toValue ((schema α).isNamed_of_isClosed h), (schema α).kept_of_isClosed h,
    ofCarrier_toCarrier]

theorem carries_encode (h : (schema α).isClosed = true) (hdepth : (schema α).depth ≤ Json.maxDepth)
    (a : α) : Carries (encode a) a := by
  have hfits : (toValue a).Fits Json.maxDepth := (fits_toValue h a).mono hdepth
  have hread := ofValue_toValue_of_isClosed h a
  rw [encode]
  refine ⟨Frame.isWhole_encode _, ?_, ?_⟩
  · rw [Frame.content_encode]
    exact parse_render hfits hread
  · rw [Frame.content_encode]
    exact ⟨toValue a, Json.parse_render hfits, hread⟩

end Payload

/-- Ids, errors, places, ranges, hints, diagnostics and kinds of synchronisation come back from
their frames whatever they are, and from the frame of a report all its diagnostics do. -/
theorem Payload.carries_twoWay :
    (∀ i : RequestId, Carries (encode i) i) ∧
    (∀ e : ResponseError, Carries (encode e) e) ∧
    (∀ p : Position, Carries (encode p) p) ∧
    (∀ r : Range, Carries (encode r) r) ∧
    (∀ h : InlayHint, Carries (encode h) h) ∧
    (∀ d : Diagnostic, Carries (encode d) d) ∧
    (∀ k : SyncKind, Carries (encode k) k) ∧
    ∀ items : List Diagnostic,
      let report := Frame.encode (DiagnosticReport.toValue ⟨items⟩).render
      Frame.IsWhole report ∧ ∃ listed : Value,
        Json.parse (Frame.content report) =
          .ok (.object [("kind", .text "full"), ("items", listed)]) ∧
        ofValue (List Diagnostic) listed = .ok items := by
  refine ⟨carries_encode (by decide) (by decide), carries_encode (by decide) (by decide),
    carries_encode (by decide) (by decide), carries_encode (by decide) (by decide),
    carries_encode (by decide) (by decide), carries_encode (by decide) (by decide),
    carries_encode (by decide) (by decide), fun items => ?_⟩
  refine ⟨Frame.isWhole_encode _, toValue items, ?_,
    ofValue_toValue_of_isClosed (by decide) items⟩
  rw [Frame.content_encode, Json.parse_render ((DiagnosticReport.fits_toValue _).mono (by decide))]
  rfl

end LanguageServer
