import LanguageServer.Message.Response
import LanguageServer.Proofs.Frame.Encode
import LanguageServer.Proofs.Schema.OfText
import LanguageServer.Proofs.Schema.RoundTrip

namespace LanguageServer

open Json (Value)

theorem RequestId.toValue_ne_null (i : RequestId) : i.toValue ≠ .null := by
  cases i <;> simp [toValue]

theorem RequestId.readUnlessNull_toValue (i : RequestId) :
    readUnlessNull (Schema.ofValue .id) i.toValue = .ok (some i) := by
  rw [readUnlessNull_of_ne_null _ i.toValue_ne_null]
  simp [Schema.ofValue, i.ofValue?_toValue, Except.map]

theorem Schema.ofValue_object (name : String) (members : Members) (ms : List (String × Value)) :
    Schema.ofValue (.record name members) (.object ms) =
      match meetAll members.meet ms members.empty with
      | .error e => .error e
      | .ok slots => members.finish slots := rfl

namespace Response

variable {r : Response} {d : Nat}

/-- The body of the frame that carries a response. -/
def body (r : Response) : Bytes := (Payload.toValue r).render

/-- The members of the value that stands for a response. -/
def members (r : Response) : List (String × Value) :=
  [("jsonrpc", .text r.version), ("id", r.id.toValue)] ++ r.result.toList.map ("result", ·) ++
    r.error.toList.map fun e => ("error", Payload.toValue e)

theorem toValue_eq (r : Response) : Payload.toValue r = .object r.members := by
  obtain ⟨version, id, result, error⟩ := r
  cases result <;> cases error <;> rfl

theorem fits_toValue (hd : 1 ≤ d) (h : ∀ v ∈ r.result, v.Fits d) :
    (Payload.toValue r).Fits (d + 1) := by
  rw [toValue_eq]
  refine Value.fits_object ?_ ?_
  · obtain ⟨version, id, result, error⟩ := r
    cases result <;> cases error <;> simp [members]
  · intro m hm
    simp only [members, List.mem_append, List.mem_cons, List.not_mem_nil, or_false, List.mem_map,
      Option.mem_toList] at hm
    rcases hm with ((rfl | rfl) | ⟨v, hv, rfl⟩) | ⟨e, -, rfl⟩
    · exact (Value.fits_text _).mono (Nat.zero_le d)
    · exact r.id.fits_toValue.mono (Nat.zero_le d)
    · exact h v hv
    · exact (Payload.fits_toValue (by decide) e).mono hd

/-- The envelope of a response. A result that is null is no result. -/
theorem ofValue_toValue (r : Response) :
    Payload.ofValue Envelope (Payload.toValue r) =
      .ok ⟨some r.version, some r.id, none, none, r.result.filter (!·.isNull),
        r.error.map Payload.toValue⟩ := by
  have hversion : readUnlessNull (Schema.ofValue .text) (.text r.version) =
    .ok (some r.version) := rfl
  have hany (v : Value) : readUnlessNull (Schema.ofValue .any) v =
      .ok ((some v).filter (!·.isNull)) := by
    cases v <;> rfl
  have herror (e : ResponseError) : (Payload.toValue e).isNull = false := rfl
  have hread : (Payload.schema Envelope).ofValue (.object r.members) =
      .ok (some r.version, some r.id, none, none, r.result.filter (!·.isNull),
        r.error.map Payload.toValue, ()) := by
    cases hr : r.result <;> cases he : r.error <;>
      simp [Payload.schema, Schema.ofValue_object, members, meetAll, Members.meet, Members.empty,
        Members.finish, hversion, r.id.readUnlessNull_toValue, hr, he, hany, herror]
  rw [toValue_eq, Payload.ofValue, hread]
  rfl

/-- A result comes back with the id of the request, and so does an error. A result that is null
does not. -/
theorem decode_body (hversion : r.version = formatVersion) (h : ∀ v ∈ r.result, v.Fits 126) :
    Message.decode r.body = .ok (.response (some r.id) (r.result.filter (!·.isNull))
      (r.error.map Payload.toValue)) := by
  have hparse := Payload.parse_render (fits_toValue (by decide) h) r.ofValue_toValue
  rw [hversion] at hparse
  simp only [Message.decode, body, hparse]
  rfl

/-- What is read from the frame of a response that carries an error. -/
theorem decode_content_failure (id : RequestId) (e : ResponseError) :
    Message.decode (Frame.content (failure id e).encode) =
      .ok (.response (some id) none (some (Payload.toValue e))) := by
  rw [encode, Frame.content_encode]
  exact decode_body rfl (by simp [failure])

/-- The frame that carries a response is recognised as a whole. -/
theorem split_encode {r : Response} (h : r.body.length ≤ maxBodyLength) :
    Frame.split r.encode = .ok (some ⟨r.body, r.encode.length⟩) := by
  have hsplit := Frame.split_encode h []
  rwa [List.append_nil] at hsplit

end Response

end LanguageServer
