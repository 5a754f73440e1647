import LanguageServer.Proofs.Server.Lifecycle
import LanguageServer.Proofs.Transport.Continued
import LanguageServer.Proofs.Transport.Written

namespace LanguageServer

namespace Reader

open Arrival (Unbroken)

variable {r : Reader} {cs : List Arrival}

/-- What a failing read behind other reads changes for the next call: nothing, or it takes the place
of the end of the stream. -/
inductive Interrupted (r : Reader) (cs : List Arrival) (reason : String) : Prop where
  | later (hended : (r.next cs).reader.ended = false) (hdone : (r.next cs).signal ≠ .done)
      (hfatal : (r.next cs).signal.fatal? = none)
      (hnext : ∀ ds, r.next (cs ++ .failure reason :: ds) = ⟨(r.next cs).signal,
        (r.next cs).reader, (r.next cs).input ++ .failure reason :: ds, (r.next cs).log⟩)
  | now (last : Reader) (hclose : r.next cs = last.close [])
      (hnext : ∀ ds, r.next (cs ++ .failure reason :: ds) = ⟨.error (.io reason), last, ds, []⟩)

theorem interrupted (hended : r.ended = false) (hcs : Unbroken cs)
    (hreads : ∀ reason, .failure reason ∉ cs) (reason : String) : r.Interrupted cs reason := by
  cases continues hended hcs with
  | before hstill hdone _ hnext =>
    refine .later hstill hdone ?_ fun ds => hnext _
    by_contra hfatal
    obtain ⟨e, he⟩ := Option.ne_none_iff_exists'.mp hfatal
    obtain ⟨reason', -, hmem⟩ := (next_of_fatal r cs).2 e he
    exact hreads reason' hmem
  | behind last hlast hwait _ hnext =>
    have hread := signal?_of_wait hwait hlast
    have hclose := hnext []
    rw [List.append_nil, next_of_nil hread] at hclose
    refine .now last hclose fun ds => ?_
    rw [hnext, next_of_failure hread]

theorem messages_of_close {last : Reader} (h : r.next cs = last.close []) :
    r.messages cs = [] ∧ r.failure? cs = none := by
  obtain ⟨hbody, hbuffer, hstill⟩ := finish_spec { last with ended := true }
  by_cases hdone : (r.next cs).signal = .done
  · exact messages_of_done hdone
  · -- What is left of the stream is given up as truncated, and only then comes its end.
    have hfatal : (r.next cs).signal.fatal? = none := by
      rw [h]
      exact fatal?_finish _
    have hmessage : (r.next cs).signal.message? = none := by
      rw [h]
      exact Option.bind_eq_none_iff.mpr fun body hsome => by simp [close, hbody] at hsome
    obtain ⟨hmessages, hfailure⟩ := messages_of_usable hfatal hdone
    rw [hmessages, hfailure, hmessage, h]
    exact messages_of_done (congrArg Reading.signal (next_of_ended hstill hbuffer []))

/-- A failing read behind other reads takes none of their messages away. -/
theorem messages_append_failure {r : Reader} {cs : List Arrival} (hended : r.ended = false)
    (hcs : Unbroken cs) (hreads : ∀ reason, .failure reason ∉ cs) (reason : String)
    (ds : List Arrival) :
    r.messages (cs ++ .failure reason :: ds) = r.messages cs ∧
      r.failure? (cs ++ .failure reason :: ds) = some (.io reason) := by
  cases interrupted hended hcs hreads reason with
  | later hstill hdone hfatal hnext =>
    obtain ⟨hrest, hlater⟩ := rest_next (settled_of_not_ended hended) hcs hreads
    have ih := messages_append_failure hstill hrest hlater reason ds
    have hsignal : (r.next (cs ++ .failure reason :: ds)).signal = (r.next cs).signal := by
      rw [hnext]
    obtain ⟨hmessages, hfailure⟩ := messages_of_usable (by rwa [hsignal]) (by rwa [hsignal])
    rw [hmessages, hfailure, hsignal, (messages_of_usable hfatal hdone).1, hnext, ih.1]
    exact ⟨rfl, ih.2⟩
  | now last hclose hnext =>
    have hsignal : (r.next (cs ++ .failure reason :: ds)).signal = .error (.io reason) := by
      rw [hnext]
    rw [(messages_of_close hclose).1]
    exact messages_of_fatal hsignal rfl
termination_by r.size cs
decreasing_by exact size_next_lt hdone

end Reader

namespace Server

open Arrival (Unbroken)
open Dispatcher (standard)

variable {d : Dispatcher} {r r' : Reader} {s : Session} {sink : Sink}

/-- Runs whose next calls say the same and that agree on everything that comes later are the
same. -/
theorem serve_congr {input input' : List Arrival}
    (hsignal : (r.next input).signal = (r'.next input').signal)
    (hlog : (r.next input).log = (r'.next input').log)
    (hlater : (r.next input).signal ≠ .done → (r.next input).signal.fatal? = none →
      ∀ s sink, serve d (r.next input).input (r.next input).reader s sink =
        serve d (r'.next input').input (r'.next input').reader s sink) :
    serve d input r s sink = serve d input' r' s sink := by
  rcases step_cases d s (r.next input).signal with
    ⟨-, hstep⟩ | ⟨e, -, -, hstep⟩ | ⟨hne, hfatal, -, log, hstep⟩ | ⟨hne, hfatal, message, -, hstep⟩
  all_goals
    have hstep' := hstep
    rw [hsignal] at hstep'
  · rw [serve_of_stop hstep, serve_of_stop hstep', hlog]
  · rw [serve_of_stop hstep, serve_of_stop hstep', hlog]
  · rw [serve_of_skip hstep, serve_of_skip hstep', hlater hne hfatal, hlog]
  · rw [serve_of_dispatched hstep, serve_of_dispatched hstep', hlog]
    simp only [hlater hne hfatal]

/-- Nothing is read behind a failing read. -/
theorem serve_append_failure {r : Reader} {s : Session} {sink : Sink} {cs : List Arrival}
    (hended : r.ended = false) (hcs : Unbroken cs) (hreads : ∀ reason, .failure reason ∉ cs)
    (reason : String) (ds ds' : List Arrival) :
    serve d (cs ++ .failure reason :: ds) r s sink =
      serve d (cs ++ .failure reason :: ds') r s sink := by
  cases Reader.interrupted hended hcs hreads reason with
  | later hstill hdone _ hnext =>
    obtain ⟨hrest, hlater⟩ := Reader.rest_next (Reader.settled_of_not_ended hended) hcs hreads
    apply serve_congr
    · rw [hnext, hnext]
    · rw [hnext, hnext]
    · intro _ _ s sink
      rw [hnext, hnext]
      exact serve_append_failure hstill hrest hlater reason ds ds'
  | now last _ hnext =>
    apply serve_congr
    · rw [hnext, hnext]
    · rw [hnext, hnext]
    · intro _ hfatal
      rw [hnext] at hfatal
      cases hfatal
termination_by r.size cs
decreasing_by exact Reader.size_next_lt hdone

/-- A failing read in place of the end of the stream changes nothing but how the run ends, and that
only if no message has asked to exit before. Whatever would come behind it is not looked at. -/
theorem serve_interrupted (d : Dispatcher) {chunks : List Bytes} (hchunks : ∀ b ∈ chunks, b ≠ [])
    (s : Session) {sink : Sink} (hsink : sink.room = none) (reason : String) (ds : List Arrival) :
    let whole := serve d (chunks.map .bytes) {} s sink
    let cut := serve d (chunks.map .bytes ++ .failure reason :: ds) {} s sink
    cut.sink = whole.sink ∧ cut.session = whole.session ∧
      ((∃ clean, whole.result = .ok (.exit clean) ∧ cut.result = .ok (.exit clean)) ∨
        (whole.result = .ok .endOfStream ∧ cut.result = .error (.io reason))) ∧
      (TransportError.io reason).isFatal = true ∧
      ∀ ds', serve d (chunks.map .bytes ++ .failure reason :: ds') {} s sink = cut := by
  intro whole cut
  have hcs : Unbroken (chunks.map .bytes) := by
    intro hmem
    obtain ⟨b, hb, hnil⟩ := List.mem_map.mp hmem
    cases hnil
    exact hchunks [] hb rfl
  have hreads : ∀ reason, .failure reason ∉ chunks.map Arrival.bytes := by simp
  obtain ⟨hmessages, hfailure⟩ :=
    Reader.messages_append_failure (r := {}) rfl hcs hreads reason ds
  obtain ⟨hsession, hsent, hresult⟩ := serve_leaves d (chunks.map .bytes) {} s sink hsink
  obtain ⟨hsession', hsent', hresult'⟩ :=
    serve_leaves d (chunks.map .bytes ++ .failure reason :: ds) {} s sink hsink
  rw [hmessages] at hsession' hsent' hresult'
  rw [hfailure] at hresult'
  rw [Reader.failure?_eq_none hreads] at hresult
  refine ⟨hsent'.trans hsent.symm, hsession'.trans hsession.symm, ?_, rfl, ?_⟩
  · cases hexit : (d.replay s (Reader.messages {} (chunks.map .bytes))).exit with
    | some clean =>
      exact .inl ⟨clean, hresult.trans (Replay.result_of_exit hexit none),
        hresult'.trans (Replay.result_of_exit hexit (some (.io reason)))⟩
    | none =>
      refine .inr ⟨hresult.trans (Replay.result_of_no_exit hexit), hresult'.trans ?_⟩
      simp only [Replay.result, hexit]
  · intro ds'
    exact serve_append_failure rfl hcs hreads reason ds' ds

/-- A request to shut down. -/
def onlyShutdown : Bytes := Bytes.ofText "\x7b\"id\":1,\"method\":\"shutdown\"\x7d"

set_option maxRecDepth 10000 in
theorem decode_onlyShutdown : (Message.decode onlyShutdown).toOption =
    some (.request (.number { val := 1 }) Method.shutdown .null) := by
  decide +kernel

/-- A whole frame is answered although the next one breaks off. -/
theorem serve_interrupted_brokenOff :
    let chunk := Frame.encode onlyShutdown ++ Bytes.ofText "Content-Le"
    let more := [Arrival.bytes (Bytes.ofText "ngth: 2\r\n\r\n\x7b\x7d")]
    let cut := serve (standard (.sample 0)) (.bytes chunk :: .failure "reset" :: more) {} {} {}
    (∀ b ∈ [chunk], b ≠ []) ∧ cut.session.lifecycle = .shuttingDown ∧
      cut.sink.writes = [Response.encode (.success (.number { val := 1 }) .null)] ∧
      cut.result = .error (.io "reset") := by
  intro chunk more cut
  have hchunks : ∀ b ∈ [chunk], b ≠ [] := by decide +kernel
  have hbodies : Reader.bodies {} [.bytes chunk] = [onlyShutdown] := by
    rw [Reader.bodies_new (by decide +kernel)]
    simp only [Arrival.content, chunk, List.append_nil]
    rw [Stream.bodies_encode_append (by decide +kernel), Stream.bodies_of_wait (by decide +kernel)]
  have hmessages : Reader.messages {} [.bytes chunk] =
      [.request (.number { val := 1 }) Method.shutdown .null] := by
    rw [Reader.messages_eq_bodies (by simp), hbodies, List.filterMap_cons, decode_onlyShutdown]
    rfl
  obtain ⟨hwholeSession, hwholeSink, hwholeResult⟩ :=
    serve_leaves (standard (.sample 0)) [.bytes chunk] {} {} {} rfl
  rw [hmessages] at hwholeSession hwholeSink hwholeResult
  rw [Reader.failure?_eq_none (by simp), Replay.result_of_no_exit (by decide +kernel)]
    at hwholeResult
  have hroom : Sink.room {} = none := rfl
  obtain ⟨hsink, hsession, hresult, -⟩ :=
    serve_interrupted (standard (.sample 0)) hchunks {} hroom "reset" more
  refine ⟨hchunks, ?_, ?_, ?_⟩
  · rw [show cut.session = _ from hsession.trans hwholeSession]
    decide +kernel
  · rw [show cut.sink = _ from hsink.trans hwholeSink]
    decide +kernel
  · rcases hresult with ⟨clean, hexit, -⟩ | ⟨-, hcut⟩
    · have hend := hwholeResult.symm.trans hexit
      cases hend
    · exact hcut

end Server

end LanguageServer
