import LanguageServer.Message
import LanguageServer.Proofs.Schema.Object

namespace LanguageServer

open Json (Cause Value)

theorem readSlot_eq_some_iff {α : Type} {read : Value → Except Cause α} {write : α → Value}
    (h : ∀ {v a}, read v = .ok a ↔ v = write a) {o : Option Value} {x : Option α} :
    readSlot read o = some x ↔ o = x.map write := by
  cases o with
  | none => cases x <;> simp [readSlot]
  | some v =>
    rw [readSlot, Option.map_eq_some_iff]
    simp only [toOption_eq_some_iff, h]
    cases x with
    | none => simp
    | some a => simp

theorem readSlot_any (o : Option Value) : readSlot (Schema.ofValue .any) o = some o := by
  cases o <;> rfl

theorem Schema.ofValue_text_eq_ok_iff {v : Value} {t : String} :
    Schema.ofValue .text v = .ok t ↔ v = .text t := by
  cases v <;> simp [Schema.ofValue]

theorem RequestId.ofValue?_eq_some_iff {v : Value} {i : RequestId} :
    ofValue? v = some i ↔ v = i.toValue := by
  constructor
  · intro h
    unfold ofValue? at h
    split at h
    · obtain ⟨x, hx, rfl⟩ := Option.map_eq_some_iff.mp h
      rw [toValue, Word.ofInt?_eq_some_iff.mp hx]
    · cases h
      rfl
    · cases h
  · intro h
    rw [h, ofValue?_toValue]

theorem Schema.ofValue_id_eq_ok_iff {v : Value} {i : RequestId} :
    Schema.ofValue .id v = .ok i ↔ v = i.toValue := by
  rw [← RequestId.ofValue?_eq_some_iff, Schema.ofValue]
  cases RequestId.ofValue? v <;> simp

namespace Envelope

/-- The members of an envelope, under the names that they have in a message. -/
def members : Members :=
  .optional "jsonrpc" false .text <| .optional "id" false .id <|
  .optional "method" false .text <| .optional "params" false .any <|
  .optional "result" false .any <| .optional "error" false .any .nil

/-- What stands under each name is what the envelope has there. -/
structure Holds (member : String → Option Value) (e : Envelope) : Prop where
  version : member "jsonrpc" = e.version.map .text
  id : member "id" = e.id.map RequestId.toValue
  method : member "method" = e.method.map .text
  params : member "params" = e.params
  result : member "result" = e.result
  error : member "error" = e.error

theorem ofNamed_eq_some_iff {get : String → Option Value} {c : members.Carrier} :
    members.ofNamed get = some c ↔
      (Payload.ofCarrier c : Envelope).Holds fun name => (get name).filter fun v => !v.isNull := by
  obtain ⟨version, id, method, params, result, error, ⟨⟩⟩ := c
  simp only [members, Members.ofNamed]
  rw [Members.map₂_mk_eq_some_iff, Members.map₂_mk_eq_some_iff, Members.map₂_mk_eq_some_iff,
    Members.map₂_mk_eq_some_iff, Members.map₂_mk_eq_some_iff, Members.map₂_mk_eq_some_iff,
    readSlot_eq_some_iff Schema.ofValue_text_eq_ok_iff,
    readSlot_eq_some_iff Schema.ofValue_id_eq_ok_iff,
    readSlot_eq_some_iff Schema.ofValue_text_eq_ok_iff, readSlot_any, readSlot_any, readSlot_any]
  constructor
  · intro h
    obtain ⟨hversion, hid, hmethod, hparams, hresult, herror, -⟩ := h
    exact ⟨hversion, hid, hmethod, Option.some.inj hparams, Option.some.inj hresult,
      Option.some.inj herror⟩
  · intro h
    obtain ⟨hversion, hid, hmethod, hparams, hresult, herror⟩ := h
    exact ⟨hversion, hid, hmethod, congrArg some hparams, congrArg some hresult,
      congrArg some herror, rfl⟩

namespace Holds

variable {member member' : String → Option Value} {e e' : Envelope}

theorem congr (h : e.Holds member)
    (heq : ∀ name ∈ members.names, member' name = member name) : e.Holds member' where
  version := (heq _ (by simp [members, Members.names])).trans h.version
  id := (heq _ (by simp [members, Members.names])).trans h.id
  method := (heq _ (by simp [members, Members.names])).trans h.method
  params := (heq _ (by simp [members, Members.names])).trans h.params
  result := (heq _ (by simp [members, Members.names])).trans h.result
  error := (heq _ (by simp [members, Members.names])).trans h.error

theorem unique (h : e.Holds member) (h' : e'.Holds member) : e = e' := by
  have htext : Function.Injective Value.text := fun a b hab => by cases hab; rfl
  have hid : Function.Injective RequestId.toValue := fun a b hab => by
    have hback := RequestId.ofValue?_toValue a
    rw [hab, RequestId.ofValue?_toValue] at hback
    exact (Option.some.inj hback).symm
  obtain ⟨version, id, method, params, result, error⟩ := e
  obtain ⟨version', id', method', params', result', error'⟩ := e'
  rw [Envelope.mk.injEq]
  exact ⟨Option.map_injective htext (h.version.symm.trans h'.version),
    Option.map_injective hid (h.id.symm.trans h'.id),
    Option.map_injective htext (h.method.symm.trans h'.method),
    h.params.symm.trans h'.params, h.result.symm.trans h'.result, h.error.symm.trans h'.error⟩

end Holds

end Envelope

namespace Message

/-- The members of an object that do not stand as null. -/
def present (os : List (String × Value)) (name : String) : Option Value :=
  (os.lookup name).filter fun v => !v.isNull

/-- What the rules for messages make of an object with the given members. -/
inductive Classified (member : String → Option Value) : Except DecodeError Message → Prop where
  /-- The version and the method are texts. -/
  | notText {name : String} {v : Value} (hname : name = "jsonrpc" ∨ name = "method")
      (hv : member name = some v) (htext : ∀ t, v ≠ .text t) (e : Json.Error) :
    Classified member (.error (.json e))
  /-- An id is a text or an integer of 64 bits. -/
  | notId {v : Value} (hv : member "id" = some v) (htext : ∀ t, v ≠ .text t)
      (hinteger : ∀ n : Int, -2 ^ 63 ≤ n → n < 2 ^ 63 → v ≠ .number (.integer n))
      (e : Json.Error) : Classified member (.error (.json e))
  | otherVersion {e : Envelope} {version : String} (he : e.Holds member)
      (hversion : e.version = some version) (hother : version ≠ "2.0") :
    Classified member (.error (.unsupportedVersion version))
  | request {e : Envelope} {id : RequestId} {method : String} (he : e.Holds member)
      (hversion : e.version = none ∨ e.version = some "2.0") (hmethod : e.method = some method)
      (hid : e.id = some id) : Classified member (.ok (.request id method (e.params.getD .null)))
  | notification {e : Envelope} {method : String} (he : e.Holds member)
      (hversion : e.version = none ∨ e.version = some "2.0") (hmethod : e.method = some method)
      (hid : e.id = none) : Classified member (.ok (.notification method (e.params.getD .null)))
  | response {e : Envelope} (he : e.Holds member)
      (hversion : e.version = none ∨ e.version = some "2.0") (hmethod : e.method = none)
      (hany : e.id.isSome ∨ e.result.isSome ∨ e.error.isSome) :
    Classified member (.ok (.response e.id e.result e.error))
  | missingMethod {e : Envelope} (he : e.Holds member)
      (hversion : e.version = none ∨ e.version = some "2.0") (hmethod : e.method = none)
      (hid : e.id = none) (hresult : e.result = none) (herror : e.error = none) :
    Classified member (.error .missingMethod)

/-- The same message, or bodies that are not read at all. -/
def Alike (x y : Except DecodeError Message) : Prop :=
  x = y ∨ ∃ e f, x = .error (.json e) ∧ y = .error (.json f)

section Classified

variable {member member' : String → Option Value} {x y : Except DecodeError Message}

theorem exists_text_or (o : Option Value) :
    (∃ t : Option String, o = t.map .text) ∨ ∃ v, o = some v ∧ ∀ t, v ≠ .text t := by
  cases o with
  | none => exact .inl ⟨none, rfl⟩
  | some v =>
    cases v with
    | text t => exact .inl ⟨some t, rfl⟩
    | _ => exact .inr ⟨_, rfl, by simp⟩

theorem exists_id_or (o : Option Value) :
    (∃ i : Option RequestId, o = i.map RequestId.toValue) ∨ ∃ v, o = some v ∧
      (∀ t, v ≠ .text t) ∧
      ∀ n : Int, -2 ^ 63 ≤ n → n < 2 ^ 63 → v ≠ .number (.integer n) := by
  cases o with
  | none => exact .inl ⟨none, rfl⟩
  | some v =>
    cases hid : RequestId.ofValue? v with
    | some i => exact .inl ⟨some i, by rw [RequestId.ofValue?_eq_some_iff.mp hid]; rfl⟩
    | none =>
      refine .inr ⟨v, rfl, ?_, ?_⟩
      · intro t hv
        rw [hv] at hid
        cases hid
      · intro n hmin hmax hv
        have hword : Word.ofInt? .i64 n =
            some ⟨n, by simpa [Width.min] using hmin, by simp [Width.max]; omega⟩ :=
          Word.ofInt?_eq_some_iff.mpr rfl
        rw [hv, RequestId.ofValue?, hword] at hid
        cases hid

theorem ofEnvelope_of_version {e : Envelope} (h : e.version = none ∨ e.version = some "2.0") :
    ofEnvelope e = ofEnvelope.classify e := by
  rcases h with h | h
  · rw [ofEnvelope, h]
  · rw [ofEnvelope, h]
    rfl

theorem classified_of_holds {e : Envelope} (he : e.Holds member) :
    Classified member (ofEnvelope e) := by
  have hclassify (hversion : e.version = none ∨ e.version = some "2.0") :
      Classified member (ofEnvelope e) := by
    rw [ofEnvelope_of_version hversion, ofEnvelope.classify]
    cases hmethod : e.method with
    | some method =>
      cases hid : e.id with
      | some id => exact .request he hversion hmethod hid
      | none => exact .notification he hversion hmethod hid
    | none =>
      dsimp only
      split
      · rename_i hany
        exact .response he hversion hmethod (by simpa [or_assoc] using hany)
      · rename_i hnone
        simp only [Bool.or_eq_true, not_or, Bool.not_eq_true, Option.isSome_eq_false_iff,
          Option.isNone_iff_eq_none] at hnone
        exact .missingMethod he hversion hmethod hnone.1.1 hnone.1.2 hnone.2
  cases hversion : e.version with
  | none => exact hclassify (.inl hversion)
  | some version =>
    by_cases hother : version = formatVersion
    · exact hclassify (.inr (hversion.trans (congrArg some hother)))
    · rw [ofEnvelope, hversion]
      dsimp only
      rw [if_neg hother]
      exact .otherVersion he hversion hother

/-- Members that are those of no envelope have one that is not what it should be. -/
theorem classified_of_not_holds (h : ∀ e : Envelope, ¬ e.Holds member) (e : Json.Error) :
    Classified member (.error (.json e)) := by
  rcases exists_text_or (member "jsonrpc") with ⟨version, hversion⟩ | ⟨v, hv, htext⟩
  · rcases exists_text_or (member "method") with ⟨method, hmethod⟩ | ⟨v, hv, htext⟩
    · rcases exists_id_or (member "id") with ⟨id, hid⟩ | ⟨v, hv, htext, hinteger⟩
      · exact absurd ⟨hversion, hid, hmethod, rfl, rfl, rfl⟩
          (h ⟨version, id, method, member "params", member "result", member "error"⟩)
      · exact .notId hv htext hinteger e
    · exact .notText (.inr rfl) hv htext e
  · exact .notText (.inl rfl) hv htext e

/-- What is classified comes from an envelope, or there is none. -/
theorem Classified.exists_holds_or (h : Classified member x) :
    (∃ e : Envelope, e.Holds member ∧ x = ofEnvelope e) ∨
      (∀ e : Envelope, ¬ e.Holds member) ∧ ∃ e, x = .error (.json e) := by
  cases h with
  | @notText name v hname hv htext e =>
    refine .inr ⟨fun envelope he => ?_, e, rfl⟩
    have htexts : ∃ t : Option String, member name = t.map .text := by
      rcases hname with rfl | rfl
      · exact ⟨_, he.version⟩
      · exact ⟨_, he.method⟩
    obtain ⟨t, ht⟩ := htexts
    rw [hv] at ht
    cases t with
    | none => cases ht
    | some t => exact htext t (Option.some.inj ht)
  | notId hv htext hinteger e =>
    refine .inr ⟨fun envelope he => ?_, e, rfl⟩
    have hid := he.id
    rw [hv] at hid
    cases hi : envelope.id with
    | none =>
      rw [hi] at hid
      cases hid
    | some i =>
      rw [hi] at hid
      cases i with
      | text t => exact htext t (Option.some.inj hid)
      | number n =>
        have hmin : -2 ^ 63 ≤ n.val := n.min_le
        have hmax : n.val < 2 ^ 63 := by
          have := n.le_max
          simp only [Width.max] at this
          omega
        exact hinteger n.val hmin hmax (Option.some.inj hid)
  | otherVersion he hversion hother =>
    refine .inl ⟨_, he, ?_⟩
    rw [ofEnvelope, hversion]
    exact (if_neg hother).symm
  | request he hversion hmethod hid =>
    exact .inl ⟨_, he, by rw [ofEnvelope_of_version hversion, ofEnvelope.classify, hmethod, hid]⟩
  | notification he hversion hmethod hid =>
    exact .inl ⟨_, he, by rw [ofEnvelope_of_version hversion, ofEnvelope.classify, hmethod, hid]⟩
  | response he hversion hmethod hany =>
    refine .inl ⟨_, he, ?_⟩
    rw [ofEnvelope_of_version hversion, ofEnvelope.classify, hmethod]
    exact (if_pos (by simpa [or_assoc] using hany)).symm
  | missingMethod he hversion hmethod hid hresult herror =>
    refine .inl ⟨_, he, ?_⟩
    rw [ofEnvelope_of_version hversion, ofEnvelope.classify, hmethod, hid, hresult, herror]
    rfl

theorem Classified.congr (h : Classified member x)
    (heq : ∀ name ∈ Envelope.members.names, member' name = member name) :
    Classified member' x := by
  rcases h.exists_holds_or with ⟨e, he, rfl⟩ | ⟨hnone, e, rfl⟩
  · exact classified_of_holds (he.congr heq)
  · refine classified_of_not_holds (fun e' he' => hnone e' (he'.congr ?_)) e
    exact fun name hname => (heq name hname).symm

theorem Classified.alike (hx : Classified member x) (hy : Classified member y) : Alike x y := by
  rcases hx.exists_holds_or with ⟨e, he, rfl⟩ | ⟨hnone, f, rfl⟩
  · rcases hy.exists_holds_or with ⟨e', he', rfl⟩ | ⟨hnone, -⟩
    · rw [he.unique he']
      exact .inl rfl
    · exact absurd he (hnone e)
  · rcases hy.exists_holds_or with ⟨e, he, -⟩ | ⟨-, g, rfl⟩
    · exact absurd he (hnone e)
    · exact .inr ⟨f, g, rfl, rfl⟩

end Classified

variable {os : List (String × Value)}

/-- Where an envelope is read as the members by their names, the rules make of them what the
envelope is decoded to. -/
theorem classified_decode {body : Bytes}
    (h : ∀ c, (Schema.record "RawMessage" Envelope.members).parse body = .ok c ↔
      Envelope.members.ofNamed (os.lookup ·) = some c) :
    Classified (present os) (decode body) := by
  unfold decode Payload.parse
  cases hparse : (Payload.schema Envelope).parse body with
  | error e =>
    refine classified_of_not_holds (fun envelope he => ?_) e
    have hok : (Payload.schema Envelope).parse body = .ok (Payload.toCarrier envelope) :=
      (h _).mpr (Envelope.ofNamed_eq_some_iff.mpr he)
    rw [hparse] at hok
    cases hok
  | ok c => exact classified_of_holds (Envelope.ofNamed_eq_some_iff.mp ((h c).mp hparse))

theorem classified_decode_object (hfits : (Value.object os).Fits Json.maxDepth) :
    Classified (present os) (decode (Value.object os).render) := by
  obtain ⟨-, -, hkeys, -⟩ := hfits.exists_members
  have hnames : Envelope.members.names.Nodup := by decide
  refine classified_decode fun c => ?_
  rw [Schema.parse_render_object_eq_ok_iff rfl hfits,
    Schema.ofValue_object_eq_ok_iff hnames hkeys]

/-- The compact text of an object is decoded as the rules say, and all that counts for it are the
members that the rules name: not their order, not other members, and none that stands as null. -/
theorem decode_object (hfits : (Value.object os).Fits Json.maxDepth) :
    Classified (present os) (decode (Value.object os).render) ∧
      ∀ ps, (Value.object ps).Fits Json.maxDepth →
        (∀ name ∈ Envelope.members.names, present ps name = present os name) →
        Alike (decode (Value.object ps).render) (decode (Value.object os).render) := by
  have hclassified := classified_decode_object hfits
  refine ⟨hclassified, fun ps hps heq => ?_⟩
  exact (classified_decode_object hps).alike (hclassified.congr heq)

/-- An error that is null, a member of another name and another order leave a request what it is. -/
theorem decode_object_reordered :
    let params := Value.object [("depth", .list [.null])]
    let os := [("other", .bool true), ("method", .text "m"), ("params", params),
      ("id", .number (.integer 7)), ("error", .null)]
    let ps := [("id", .number (.integer 7)), ("jsonrpc", .null), ("method", .text "m"),
      ("params", params)]
    (Value.object os).Fits Json.maxDepth ∧ (Value.object ps).Fits Json.maxDepth ∧
      decode (Value.object os).render = .ok (.request (.number { val := 7 }) "m" params) ∧
      decode (Value.object ps).render = decode (Value.object os).render := by
  intro params os ps
  have hos : (Value.object os).Fits Json.maxDepth := ⟨by decide +kernel, by decide +kernel⟩
  have hps : (Value.object ps).Fits Json.maxDepth := ⟨by decide +kernel, by decide +kernel⟩
  let e : Envelope := ⟨none, some (.number { val := 7 }), some "m", some params, none, none⟩
  have he : e.Holds (present os) := ⟨rfl, rfl, rfl, rfl, rfl, rfl⟩
  have hrequest : Classified (present os) (.ok (.request (.number { val := 7 }) "m" params)) :=
    .request he (.inl rfl) rfl rfl
  have hsame : ∀ name ∈ Envelope.members.names, present ps name = present os name := by
    decide +kernel
  obtain ⟨hclassified, halike⟩ := decode_object hos
  have hdecode : decode (Value.object os).render =
      .ok (.request (.number { val := 7 }) "m" params) := by
    rcases hclassified.alike hrequest with heq | ⟨-, f, -, hf⟩
    · exact heq
    · cases hf
  refine ⟨hos, hps, hdecode, ?_⟩
  rcases halike ps hps hsame with heq | ⟨-, f, -, hf⟩
  · exact heq
  · rw [hdecode] at hf
    cases hf

end Message

end LanguageServer
