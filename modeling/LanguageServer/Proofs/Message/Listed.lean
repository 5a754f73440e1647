import LanguageServer.Server
import LanguageServer.Proofs.Dispatcher
import LanguageServer.Proofs.Message.Rules

namespace LanguageServer

open Json (Value)

/-- A text whose value, if it has one, is an object. -/
def Json.BeginsObject (input : Bytes) : Prop := ∃ rest, Scan.skipBlank input = 123 :: rest

theorem Json.beginsObject_iff_of_parse {input : Bytes} {v : Value} (h : parse input = .ok v) :
    BeginsObject input ↔ ∃ os, v = .object os := by
  obtain ⟨rest, hrun, -⟩ := Scanner.parse_eq_ok_iff.mp h
  obtain ⟨c, more, hc, hbegins⟩ := Scan.exists_begins hrun
  rw [BeginsObject, hc]
  constructor
  · intro hobject
    obtain ⟨rest, hrest⟩ := hobject
    cases hrest
    cases v with
    | object os => exact ⟨os, rfl⟩
    | bool b => cases b <;> cases hbegins
    | number n => rcases hbegins with h45 | hdigit <;> contradiction
    | _ => cases hbegins
  · intro hobject
    obtain ⟨os, rfl⟩ := hobject
    exact ⟨more, congrArg (· :: more) hbegins⟩

namespace Message

variable {body : Bytes} {vs : List Value}

theorem parse_envelope_eq_ok_iff (hobject : ¬ Json.BeginsObject body)
    {c : Envelope.members.Carrier} :
    (Schema.record "RawMessage" Envelope.members).parse body = .ok c ↔
      ∃ vs, Json.parse body = .ok (.list vs) ∧ vs.length ≤ Envelope.members.size ∧
        Envelope.members.ofNamed ((Envelope.members.names.zip vs).lookup ·) = some c := by
  have hhead : (Json.Scan.skipBlank body).head? ≠ some 123 :=
    fun h => hobject (List.head?_eq_some_iff.mp h)
  have hnames : Envelope.members.names.Nodup := by decide
  rw [Schema.parse_record_eq_ok_iff rfl hhead]
  constructor
  · intro h
    obtain ⟨v, hv, hread⟩ := h
    cases v with
    | list vs => exact ⟨vs, hv, ((Schema.ofValue_list_eq_ok_iff hnames).mp hread).2⟩
    | object os => exact absurd ((Json.beginsObject_iff_of_parse hv).mpr ⟨os, rfl⟩) hobject
    | _ => cases hread
  · intro h
    obtain ⟨vs, hvs, hlength, hnamed⟩ := h
    exact ⟨.list vs, hvs,
      (Schema.ofValue_list_eq_ok_iff hnames).mpr ⟨Nat.zero_le _, hlength, hnamed⟩⟩

theorem classified_decode_list (hvs : Json.parse body = .ok (.list vs))
    (hlength : vs.length ≤ Envelope.members.size) :
    Classified (present (Envelope.members.names.zip vs)) (decode body) := by
  have hobject : ¬ Json.BeginsObject body := by
    rw [Json.beginsObject_iff_of_parse hvs]
    simp
  refine classified_decode fun c => ?_
  rw [parse_envelope_eq_ok_iff hobject]
  constructor
  · intro h
    obtain ⟨ws, hws, -, hnamed⟩ := h
    rw [hvs] at hws
    cases hws
    exact hnamed
  · intro hnamed
    exact ⟨vs, hvs, hlength, hnamed⟩

theorem exists_decode_eq_error (hobject : ¬ Json.BeginsObject body)
    (hlong : ∀ vs, Json.parse body = .ok (.list vs) → Envelope.members.size < vs.length) :
    ∃ e, decode body = .error (.json e) := by
  unfold decode Payload.parse
  cases hparse : (Payload.schema Envelope).parse body with
  | error e => exact ⟨e, rfl⟩
  | ok c =>
    obtain ⟨vs, hvs, hlength, -⟩ := (parse_envelope_eq_ok_iff hobject).mp hparse
    exact absurd hlength (Nat.not_le.mpr (hlong vs hvs))

/-- A body that is no object is taken for a message only if it is a list of at most as many items
as an envelope has members. The items are then the members in their order. Any other body is passed
over, and the session goes on as it was. -/
theorem decode_of_not_object (hobject : ¬ Json.BeginsObject body) :
    (∃ vs, Json.parse body = .ok (.list vs) ∧ vs.length ≤ Envelope.members.size ∧
      Classified (present (Envelope.members.names.zip vs)) (decode body)) ∨
    (∀ vs, Json.parse body = .ok (.list vs) → Envelope.members.size < vs.length) ∧
      ∃ e : DecodeError, decode body = .error e ∧ ∀ d s, Server.step d s (.body body) =
        .skip [Server.note .error s!"Got an error: {e.message}"] := by
  by_cases hlong : ∀ vs, Json.parse body = .ok (.list vs) → Envelope.members.size < vs.length
  · obtain ⟨e, he⟩ := exists_decode_eq_error hobject hlong
    refine .inr ⟨hlong, .json e, he, fun d s => ?_⟩
    simp only [Server.step, he]
  · push Not at hlong
    obtain ⟨vs, hvs, hlength⟩ := hlong
    exact .inl ⟨vs, hvs, hlength, classified_decode_list hvs hlength⟩

/-- The list of a version, no id and a method is taken for a notification, and ends the session. -/
theorem decode_of_not_object_listedExit :
    let body := (Value.list [.text "2.0", .null, .text "exit"]).render
    ¬ Json.BeginsObject body ∧ decode body = .ok (.notification Method.exit .null) ∧
      ∀ a s, ∃ x, Server.step (.standard a) s (.body body) = .answer x ∧ x.session = s.exit := by
  intro body
  have hparse : Json.parse body = .ok (.list [.text "2.0", .null, .text "exit"]) :=
    Json.parse_render ⟨by decide +kernel, by decide +kernel⟩
  have hobject : ¬ Json.BeginsObject body := by
    rw [Json.beginsObject_iff_of_parse hparse]
    simp
  have hdecode : decode body = .ok (.notification Method.exit .null) := by
    rcases decode_of_not_object hobject with ⟨vs, hvs, -, hclassified⟩ | ⟨hlong, -⟩
    · rw [hparse] at hvs
      cases hvs
      let e : Envelope := ⟨some "2.0", none, some Method.exit, none, none, none⟩
      have he : e.Holds (present (Envelope.members.names.zip
          [.text "2.0", .null, .text "exit"])) := ⟨rfl, rfl, rfl, rfl, rfl, rfl⟩
      rcases hclassified.alike (.notification he (.inr rfl) rfl rfl) with heq | ⟨-, f, -, hf⟩
      · exact heq
      · cases hf
    · exact absurd (hlong _ hparse) (by decide)
  refine ⟨hobject, hdecode, fun a s => ?_⟩
  have hstep : Server.step (.standard a) s (.body body) =
      .answer ((Dispatcher.standard a).dispatch s (.notification Method.exit .null)) := by
    simp only [Server.step, hdecode]
  exact ⟨_, hstep, (Dispatcher.dispatch_exit rfl).1⟩

end Message

end LanguageServer
