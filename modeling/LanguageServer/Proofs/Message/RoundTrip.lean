import LanguageServer.Proofs.Message.Response

namespace LanguageServer

open Json (Value)

namespace Response

variable {r : Response}

/-- What comes back of a response: all but a result that is null. -/
def received (r : Response) : Response := { r with result := r.result.filter (!·.isNull) }

theorem kept_toCarrier (r : Response) :
    (Payload.schema Response).kept (Payload.toCarrier r) = Payload.toCarrier r.received := by
  have hany (o : Option Value) : o.map (Schema.kept .any) = o := by
    cases o <;> rfl
  obtain ⟨version, id, result, error⟩ := r
  change (version, id, (result.filter fun v => !v.isNull).map (Schema.kept .any),
    ((error.map Payload.toCarrier).filter fun e =>
      !((Payload.schema ResponseError).toValue e).isNull).map
        (Payload.schema ResponseError).kept, ()) = _
  rw [hany]
  cases error <;> rfl

theorem ofValue_response (r : Response) :
    Payload.ofValue Response (Payload.toValue r) = .ok r.received := by
  rw [Payload.ofValue_toValue (by decide), kept_toCarrier, Payload.ofCarrier_toCarrier]

/-- A body is read as the response that it carries, but for a result that is null. -/
theorem parse_body (h : ∀ v ∈ r.result, v.Fits 126) :
    Payload.parse Response r.body = .ok r.received :=
  Payload.parse_render (fits_toValue (by decide) h) r.ofValue_response

theorem received_eq_iff : r.received = r ↔ r.result ≠ some .null := by
  have hnull (v : Value) : v.isNull = true ↔ v = .null := by
    cases v <;> simp [Value.isNull]
  obtain ⟨version, id, result, error⟩ := r
  cases result with
  | none => simp [received]
  | some v => simp [received, Option.filter, hnull]

/-- Responses in the same frame have the same members. -/
theorem members_eq_of_encode {t : Response} (h : ∀ v ∈ r.result, v.Fits 126)
    (ht : ∀ v ∈ t.result, v.Fits 126) (heq : r.encode = t.encode) : r.members = t.members := by
  have hbody : r.body = t.body := Frame.encode_injective heq
  have hparse := Json.parse_render (fits_toValue (by decide) h)
  have hparse' := Json.parse_render (fits_toValue (by decide) ht)
  rw [← body, hbody, body, hparse', Except.ok.injEq, toValue_eq, toValue_eq] at hparse
  exact (Value.object.inj hparse).symm

theorem received_of_null (hr : r.result = some .null) :
    r.received = { r with result := none } := by
  rw [received, hr]
  rfl

theorem encode_received_ne (hr : r.result = some .null) : r.received.encode ≠ r.encode := by
  intro heq
  have hnull : Value.null.Fits 126 := Value.fits_null.mono (by decide)
  rw [received_of_null hr] at heq
  have hmembers := members_eq_of_encode (by simp) (by simpa [hr] using hnull) heq
  have hlength := congrArg List.length hmembers
  simp [members, hr] at hlength

/-- A response comes back as it was written exactly if its result is not null. A result that is null
is lost: what comes back has neither a result nor an error, and is written in another frame. -/
theorem parse_encoded (hr : (∃ id v, r = success id v ∧ v.isExact = true ∧ v.depth ≤ 126) ∨
    ∃ id e, r = failure id e) :
    r.encode = Frame.encode r.body ∧ Payload.parse Response r.body = .ok r.received ∧
      (r.received = r ↔ r.result ≠ some .null) ∧
      (r.received.result.isSome = (!r.received.error.isSome) ↔ r.result ≠ some .null) ∧
      (r.received.encode = r.encode ↔ r.result ≠ some .null) := by
  have hfits : ∀ v ∈ r.result, v.Fits 126 := by
    rcases hr with ⟨id, v, rfl, hexact, hdepth⟩ | ⟨id, e, rfl⟩
    · have hv : v.Fits 126 := ⟨hexact, hdepth⟩
      simpa [success] using hv
    · simp [failure]
  have hone : r.result.isSome = !r.error.isSome := by
    rcases hr with ⟨id, v, rfl, -⟩ | ⟨id, e, rfl⟩ <;> rfl
  refine ⟨rfl, parse_body hfits, received_eq_iff, ?_, ?_⟩
  · constructor
    · intro hback hnull
      rw [hnull] at hone
      rw [received_of_null hnull] at hback
      cases herror : r.error <;> simp [herror] at hone hback
    · intro hnull
      rw [received_eq_iff.mpr hnull]
      exact hone
  · constructor
    · intro hback hnull
      exact encode_received_ne hnull hback
    · intro hnull
      rw [received_eq_iff.mpr hnull]

/-- The answer to shutting down, whose result is null, does not come back, and an answer with a list
of nulls does. -/
theorem parse_encoded_null :
    let consent := success (.number { val := 1 }) .null
    let found := success (.text "a") (.list [.null])
    ((∃ id v, consent = success id v ∧ v.isExact = true ∧ v.depth ≤ 126) ∨
        ∃ id e, consent = failure id e) ∧
      ((∃ id v, found = success id v ∧ v.isExact = true ∧ v.depth ≤ 126) ∨
        ∃ id e, found = failure id e) ∧
      (∃ back, Payload.parse Response consent.body = .ok back ∧ back ≠ consent ∧
        back.result = none ∧ back.error = none ∧ back.encode ≠ consent.encode) ∧
      Payload.parse Response found.body = .ok found := by
  intro consent found
  have hconsent : (∃ id v, consent = success id v ∧ v.isExact = true ∧ v.depth ≤ 126) ∨
      ∃ id e, consent = failure id e := .inl ⟨_, _, rfl, by decide, by decide⟩
  have hfound : (∃ id v, found = success id v ∧ v.isExact = true ∧ v.depth ≤ 126) ∨
      ∃ id e, found = failure id e := .inl ⟨_, _, rfl, by decide, by decide⟩
  refine ⟨hconsent, hfound, ?_, ?_⟩
  · obtain ⟨-, hparse, hback, -, hframe⟩ := parse_encoded hconsent
    exact ⟨_, hparse, fun h => hback.mp h rfl, rfl, rfl, fun h => hframe.mp h rfl⟩
  · obtain ⟨-, hparse, hback, -, -⟩ := parse_encoded hfound
    have hsame : found.received = found := hback.mpr (by decide)
    rw [hsame] at hparse
    exact hparse

end Response

end LanguageServer
