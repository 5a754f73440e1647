import LanguageServer.Proofs.Dispatcher.Replay
import LanguageServer.Proofs.Server.Sending

namespace LanguageServer

namespace Sink

/-- A sink that has taken frames, each in a write of its own with a flush after it. -/
def taking (sink : Sink) (frames : List Bytes) : Sink :=
  { sink with writes := sink.writes ++ frames, flushes := sink.flushes + frames.length }

theorem taking_nil (sink : Sink) : sink.taking [] = sink := by
  simp [taking]

theorem taking_taking (sink : Sink) (frames more : List Bytes) :
    (sink.taking frames).taking more = sink.taking (frames ++ more) := by
  simp [taking, Nat.add_assoc]

theorem send_eq_taking {sink : Sink} (h : sink.room = none) (frame : Bytes) :
    sink.send frame = (.ok (), sink.taking [frame]) := by
  simp [send, taking, h]

/-- Room for so many more bytes, if there is a limit at all. -/
def HasRoom (sink : Sink) (count : Nat) : Prop := ∀ n, sink.room = some n → count ≤ n

/-- A sink that has taken frames for which it had room. -/
def filled (sink : Sink) (frames : List Bytes) : Sink :=
  { sink.taking frames with room := sink.room.map (· - frames.flatten.length) }

variable {sink : Sink} {frames more : List Bytes}

theorem hasRoom_of_unlimited (h : sink.room = none) (count : Nat) : sink.HasRoom count := by
  intro n hn
  rw [h] at hn
  cases hn

theorem filled_nil (sink : Sink) : sink.filled [] = sink := by
  simp [filled, taking]

theorem filled_of_unlimited (h : sink.room = none) : sink.filled frames = sink.taking frames := by
  simp [filled, taking, h]

theorem filled_filled (sink : Sink) (frames more : List Bytes) :
    (sink.filled frames).filled more = sink.filled (frames ++ more) := by
  simp only [filled, taking, Option.map_map, List.append_assoc, List.length_append,
    List.flatten_append, Nat.add_assoc, Function.comp_def, Nat.sub_sub]

theorem HasRoom.left (h : sink.HasRoom (frames ++ more).flatten.length) :
    sink.HasRoom frames.flatten.length := by
  intro n hn
  have := h n hn
  rw [List.flatten_append, List.length_append] at this
  omega

theorem HasRoom.right (h : sink.HasRoom (frames ++ more).flatten.length) :
    (sink.filled frames).HasRoom more.flatten.length := by
  intro n hn
  obtain ⟨m, hm, rfl⟩ := Option.map_eq_some_iff.mp hn
  have := h m hm
  rw [List.flatten_append, List.length_append] at this
  omega

theorem send_of_room {frame : Bytes} (h : sink.HasRoom [frame].flatten.length) :
    sink.send frame = (.ok (), sink.filled [frame]) := by
  rw [List.flatten_singleton] at h
  cases hroom : sink.room with
  | none => rw [send_eq_taking hroom, filled_of_unlimited hroom]
  | some n =>
    have hle := h n hroom
    simp [send, filled, taking, hroom, hle]

end Sink

namespace Session

theorem exitOf_of_exited {s : Session} {clean : Bool} (h : s.lifecycle = .exited clean) :
    Server.exitOf s = some (.exit clean) := by
  simp only [Server.exitOf, h]

theorem exitOf_of_not_exited {s : Session} (h : s.hasExited = false) :
    Server.exitOf s = none := by
  rw [← Option.not_isSome_iff_eq_none, Server.exitOf_isSome, h]
  decide

end Session

namespace Replay

/-- What a replay leaves when the output has room for all of its frames. -/
def sending (r : Replay) (sink : Sink) : Sending :=
  ⟨r.session, sink.filled r.frames, r.exit.map fun clean => .ok (.exit clean)⟩

theorem result_sending (r : Replay) (sink : Sink) (failure : Option TransportError) :
    (r.sending sink).result failure = r.result failure := by
  unfold sending Sending.result result
  cases r.exit <;> cases failure <;> rfl

theorem frames_after (r : Replay) (a : Dispatched) :
    (r.after a.response.toList).frames = a.frames ++ r.frames := List.map_append

end Replay

namespace Server

variable {d : Dispatcher} {input : List Arrival} {reader : Reader} {s : Session} {sink : Sink}

theorem reply_of_room {a : Dispatched} (h : sink.HasRoom a.frames.flatten.length) :
    reply sink a.response = (.ok (), sink.filled a.frames) := by
  unfold Dispatched.frames at h ⊢
  cases hresponse : a.response with
  | none => exact congrArg (Prod.mk _) sink.filled_nil.symm
  | some r =>
    rw [hresponse] at h
    exact Sink.send_of_room h

/-- An output with room for all frames takes them, and nothing is cut short. -/
theorem sendAll_of_room {ms : List Message}
    (h : sink.HasRoom (d.replay s ms).frames.flatten.length) :
    sendAll d s sink ms = (d.replay s ms).sending sink := by
  induction ms generalizing s sink with
  | nil => exact congrArg (Sending.mk s · none) sink.filled_nil.symm
  | cons m ms ih =>
    cases hexited : (d.dispatch s m).session.hasExited with
    | true =>
      obtain ⟨clean, hclean⟩ := Session.exists_exited hexited
      rw [Dispatcher.replay_cons_of_exited hclean] at h ⊢
      exact sendAll_of_exit (reply_of_room h) (Session.exitOf_of_exited hclean) ms
    | false =>
      rw [Dispatcher.replay_cons_of_not_exited hexited] at h ⊢
      rw [Replay.frames_after] at h
      rw [sendAll_of_answer (reply_of_room h.left) (Session.exitOf_of_not_exited hexited),
        ih h.right]
      unfold Replay.sending
      rw [Sink.filled_filled, Replay.frames_after]
      rfl

/-- Reading and following the messages in turn is the same as reading them all and then following
them. -/
theorem serve_leaves (d : Dispatcher) (input : List Arrival) (reader : Reader) (s : Session)
    (sink : Sink) (hsink : sink.room = none) :
    let run := serve d input reader s sink
    let r := d.replay s (reader.messages input)
    run.session = r.session ∧ run.sink = sink.taking r.frames ∧
      run.result = r.result (reader.failure? input) := by
  intro run r
  have hsent : sendAll d s sink (reader.messages input) = r.sending sink :=
    sendAll_of_room (Sink.hasRoom_of_unlimited hsink _)
  have hleaves := serve_sends d input reader s sink
  rw [hsent] at hleaves
  refine ⟨hleaves.session, ?_, hleaves.result.trans (r.result_sending sink _)⟩
  exact hleaves.sink.trans (Sink.filled_of_unlimited hsink)

/-- A server that starts afresh does what reading first and then following the messages does. It
fails only when a read has failed, and it stops early only when a message has asked to exit. -/
theorem serve_eq_staged (a : Analyzer) (input : List Arrival) :
    let run := serve (.standard a) input {} {} {}
    let staged := (Dispatcher.standard a).replay {} (Reader.messages {} input)
    run.session = staged.session ∧ run.sink.writes = staged.frames ∧
      run.sink.flushes = staged.frames.length ∧
      run.result = staged.result (Reader.failure? {} input) ∧
      (∀ e, run.result = .error e → ∃ reason, e = .io reason ∧ .failure reason ∈ input) ∧
      (∀ clean, run.result = .ok (.exit clean) →
        ∃ m ∈ Reader.messages {} input, m.asks Method.exit = true) := by
  intro run staged
  obtain ⟨hsession, hsink, hresult⟩ := serve_leaves (.standard a) input {} {} {} rfl
  refine ⟨hsession, ?_, ?_, hresult, ?_, ?_⟩
  · rw [show run.sink = _ from hsink]
    exact List.nil_append _
  · rw [show run.sink = _ from hsink]
    exact Nat.zero_add _
  · intro e he
    exact Reader.exists_failure_of_failure? (Replay.failure_of_result (hresult.symm.trans he))
  · intro clean hclean
    by_contra hnone
    have hno : ∀ m ∈ Reader.messages {} input, m.asks Method.exit = false := by
      intro m hm
      by_contra hasks
      exact hnone ⟨m, hm, by simpa using hasks⟩
    obtain ⟨hexit, -⟩ := Dispatcher.replay_of_no_exit (a := a) (s := {}) rfl hno
    have hexited : staged.exit = some clean := Replay.exit_of_result (hresult.symm.trans hclean)
    rw [hexit] at hexited
    cases hexited

end Server

end LanguageServer
