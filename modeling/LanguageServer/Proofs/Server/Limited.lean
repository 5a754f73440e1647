import LanguageServer.Proofs.Transport.Written

namespace LanguageServer

namespace Sink

variable {sink : Sink} {n : Nat}

theorem send_of_overflow (h : sink.room = some n) {frame : Bytes} (hn : n < frame.length) :
    ∃ next, sink.send frame = (.error refusal, next) ∧
      next.taken = sink.taken ++ frame.take n := by
  have hnot : ¬frame.length ≤ n := by omega
  have hrefused : (sink.send frame).1 = .error refusal := by
    simp only [send, h, if_neg hnot]
    split <;> rfl
  obtain ⟨htaken, -⟩ := taken_send_limited h frame
  exact ⟨(sink.send frame).2, Prod.ext hrefused rfl, htaken⟩

theorem taken_filled (frames : List Bytes) :
    (sink.filled frames).taken = sink.taken ++ frames.flatten := List.flatten_append

theorem room_filled (h : sink.room = some n) (frames : List Bytes) :
    (sink.filled frames).room = some (n - frames.flatten.length) := by
  simp only [filled, h, Option.map_some]

theorem hasRoom_of_le (h : sink.room = some n) {count : Nat} (hcount : count ≤ n) :
    sink.HasRoom count := by
  intro m hm
  rw [h] at hm
  cases hm
  exact hcount

end Sink

namespace Dispatcher

/-- None of the messages before `m` ends the session, their answers take up no more than `limit`
bytes, and with the answer to `m` it is more. -/
structure Overflows (d : Dispatcher) (s : Session) (limit : Nat) (before : List Message)
    (m : Message) : Prop where
  goesOn : (d.replay s before).exit = none
  fits : (d.replay s before).frames.flatten.length ≤ limit
  overflows : limit < (d.replay s (before ++ [m])).frames.flatten.length

variable {d : Dispatcher} {s : Session} {m : Message} {before ms : List Message} {limit : Nat}

theorem replay_append_of_exit {clean : Bool} (h : (d.replay s before).exit = some clean)
    (ms : List Message) : d.replay s (before ++ ms) = d.replay s before := by
  induction before generalizing s with
  | nil => cases h
  | cons m before ih =>
    cases hexited : (d.dispatch s m).session.hasExited with
    | true =>
      obtain ⟨clean', hclean⟩ := Session.exists_exited hexited
      rw [List.cons_append, replay_cons_of_exited hclean, replay_cons_of_exited hclean]
    | false =>
      rw [replay_cons_of_not_exited hexited] at h
      rw [List.cons_append, replay_cons_of_not_exited hexited, replay_cons_of_not_exited hexited,
        ih h]

theorem frames_append (h : (d.replay s before).exit = none) (ms : List Message) :
    (d.replay s (before ++ ms)).frames =
      (d.replay s before).frames ++ (d.replay (d.replay s before).session ms).frames := by
  rw [replay_append h]
  exact List.map_append

/-- An exit is the last message that has an answer. -/
theorem frames_cons (d : Dispatcher) (s : Session) (m : Message) (ms : List Message) :
    (d.replay s (m :: ms)).frames = (d.dispatch s m).frames ++
      if (d.dispatch s m).session.hasExited then []
      else (d.replay (d.dispatch s m).session ms).frames := by
  cases hexited : (d.dispatch s m).session.hasExited with
  | true =>
    obtain ⟨clean, hclean⟩ := Session.exists_exited hexited
    rw [replay_cons_of_exited hclean]
    exact (List.append_nil _).symm
  | false =>
    rw [replay_cons_of_not_exited hexited]
    exact Replay.frames_after _ _

theorem frames_concat (h : (d.replay s before).exit = none) (m : Message) :
    (d.replay s (before ++ [m])).frames =
      (d.replay s before).frames ++ (d.dispatch (d.replay s before).session m).frames := by
  have hnothing : ∀ t, (d.replay t []).frames = [] := fun t => rfl
  rw [frames_append h, frames_cons, hnothing, ite_self, List.append_nil]

theorem frames_concat_prefix (h : (d.replay s before).exit = none) (m : Message)
    (after : List Message) :
    (d.replay s (before ++ [m])).frames <+: (d.replay s (before ++ m :: after)).frames := by
  rw [frames_concat h, frames_append h, frames_cons, ← List.append_assoc]
  exact List.prefix_append _ _

/-- Answers that are too long together are too long from some message on. -/
theorem exists_overflows (h : limit < (d.replay s ms).frames.flatten.length) :
    ∃ before m after, ms = before ++ m :: after ∧ d.Overflows s limit before m := by
  -- From the right, since what the messages before have filled decides whether the last one counts.
  induction ms using List.reverseRecOn with
  | nil => exact absurd h (Nat.not_lt_zero _)
  | append_singleton ms m ih =>
    by_cases hms : limit < (d.replay s ms).frames.flatten.length
    · obtain ⟨before, first, after, rfl, hoverflows⟩ := ih hms
      exact ⟨before, first, after ++ [m], by simp, hoverflows⟩
    · cases hexit : (d.replay s ms).exit with
      | some clean =>
        rw [replay_append_of_exit hexit] at h
        exact absurd h hms
      | none => exact ⟨ms, m, [], rfl, hexit, Nat.le_of_not_lt hms, h⟩

end Dispatcher

namespace Server

variable {d : Dispatcher} {s : Session} {sink : Sink} {m : Message} {before : List Message}
  {limit : Nat}

theorem reply_of_overflow {a : Dispatched} (h : sink.room = some limit)
    (ha : limit < a.frames.flatten.length) :
    ∃ next, reply sink a.response = (.error Sink.refusal, next) ∧
      next.taken = sink.taken ++ a.frames.flatten.take limit := by
  unfold Dispatched.frames at ha ⊢
  cases hresponse : a.response with
  | none =>
    rw [hresponse] at ha
    exact absurd ha (Nat.not_lt_zero _)
  | some r =>
    have hflatten : ((some r).toList.map Response.encode).flatten = r.encode :=
      List.flatten_singleton
    rw [hresponse, hflatten] at ha
    rw [hflatten]
    exact Sink.send_of_overflow h ha

theorem sendAll_append (hexit : (d.replay s before).exit = none)
    (h : sink.HasRoom (d.replay s before).frames.flatten.length) (ms : List Message) :
    sendAll d s sink (before ++ ms) =
      sendAll d (d.replay s before).session (sink.filled (d.replay s before).frames) ms := by
  induction before generalizing s sink with
  | nil => exact congrArg (sendAll d s · ms) sink.filled_nil.symm
  | cons m before ih =>
    cases hexited : (d.dispatch s m).session.hasExited with
    | true =>
      obtain ⟨clean, hclean⟩ := Session.exists_exited hexited
      rw [Dispatcher.replay_cons_of_exited hclean] at hexit
      cases hexit
    | false =>
      rw [Dispatcher.replay_cons_of_not_exited hexited] at hexit h ⊢
      rw [Replay.frames_after] at h ⊢
      rw [List.cons_append,
        sendAll_of_answer (reply_of_room h.left) (Session.exitOf_of_not_exited hexited),
        ih hexit h.right, Sink.filled_filled]
      rfl

/-- An output without room for all answers takes what it has room for, and the first message whose
answer it does not take in whole is the last one that is followed. -/
theorem sendAll_of_overflows (hroom : sink.room = some limit) (h : d.Overflows s limit before m)
    (after : List Message) :
    ∃ next, sendAll d s sink (before ++ m :: after) =
        ⟨(d.dispatch (d.replay s before).session m).session, next, some (.error Sink.refusal)⟩ ∧
      next.taken =
        sink.taken ++ (d.replay s (before ++ m :: after)).frames.flatten.take limit := by
  have hoverflows := h.overflows
  rw [Dispatcher.frames_concat h.goesOn, List.flatten_append, List.length_append] at hoverflows
  have hleft : limit - (d.replay s before).frames.flatten.length <
      (d.dispatch (d.replay s before).session m).frames.flatten.length := by
    have := h.fits
    omega
  obtain ⟨next, hreply, htaken⟩ :=
    reply_of_overflow (Sink.room_filled hroom (d.replay s before).frames) hleft
  refine ⟨next, ?_, ?_⟩
  · rw [sendAll_append h.goesOn (Sink.hasRoom_of_le hroom h.fits)]
    exact sendAll_of_refused hreply after
  · rw [htaken, Sink.taken_filled, Dispatcher.frames_append h.goesOn, Dispatcher.frames_cons,
      List.append_assoc, List.flatten_append, List.flatten_append, List.take_append,
      List.take_of_length_le h.fits, List.take_append_of_le_length hleft.le]

/-- A run on an output with room for `limit` bytes next to the same run on one that takes
everything. With room for all bytes there is no difference. Without it the run ends with the refusal
of the output, which has taken the first `limit` bytes, right after the first message whose answer
did not fit. -/
theorem serve_limited (d : Dispatcher) (input : List Arrival) (s : Session) (limit : Nat) :
    let free := serve d input {} s {}
    let tight := serve d input {} s { room := some limit }
    (free.sink.taken.length ≤ limit →
      tight.sink.writes = free.sink.writes ∧ tight.sink.flushes = free.sink.flushes ∧
        tight.session = free.session ∧ tight.result = free.result) ∧
    (limit < free.sink.taken.length →
      tight.result = .error Sink.refusal ∧ Sink.refusal.isFatal = true ∧
        tight.sink.taken = free.sink.taken.take limit ∧
        ∃ before m after, Reader.messages {} input = before ++ m :: after ∧
          d.Overflows s limit before m ∧
          (d.replay s (before ++ [m])).frames <+: free.sink.writes ∧
          tight.session = (d.dispatch (d.replay s before).session m).session) := by
  intro free tight
  obtain ⟨hsession, hsink, hresult⟩ := serve_leaves d input {} s {} rfl
  have htight := serve_sends d input {} s { room := some limit }
  have hwrites : free.sink.writes = (d.replay s (Reader.messages {} input)).frames := by
    rw [show free.sink = _ from hsink]
    exact List.nil_append _
  have htaken : free.sink.taken = (d.replay s (Reader.messages {} input)).frames.flatten := by
    rw [Sink.taken, hwrites]
  refine ⟨?_, ?_⟩
  · intro hfits
    rw [htaken] at hfits
    have hroom : Sink.HasRoom { room := some limit }
        (d.replay s (Reader.messages {} input)).frames.flatten.length :=
      Sink.hasRoom_of_le rfl hfits
    rw [sendAll_of_room hroom] at htight
    refine ⟨?_, ?_, ?_, ?_⟩
    · rw [show tight.sink = _ from htight.sink, hwrites]
      exact List.nil_append _
    · rw [show tight.sink = _ from htight.sink, show free.sink = _ from hsink]
      rfl
    · exact htight.session.trans hsession.symm
    · rw [show tight.result = _ from htight.result, Replay.result_sending]
      exact hresult.symm
  · intro hoverflows
    rw [htaken] at hoverflows
    obtain ⟨before, m, after, hms, hfirst⟩ := Dispatcher.exists_overflows hoverflows
    rw [hms] at htight
    have hroom : Sink.room { room := some limit } = some limit := rfl
    obtain ⟨next, hsent, hnext⟩ := sendAll_of_overflows hroom hfirst after
    rw [hsent] at htight
    refine ⟨htight.result, rfl, ?_, before, m, after, hms, hfirst, ?_, htight.session⟩
    · rw [show tight.sink = next from htight.sink, hnext, htaken, hms]
      rfl
    · rw [hwrites, hms]
      exact Dispatcher.frames_concat_prefix hfirst.goesOn m after

/-- Two requests: to shut down and to exit. -/
def farewell : List Bytes := [Bytes.ofText "\x7b\"id\":1,\"method\":\"shutdown\"\x7d",
  Bytes.ofText "\x7b\"id\":2,\"method\":\"exit\"\x7d"]

set_option maxRecDepth 10000 in
theorem decode_farewell : (farewell.filterMap fun body => (Message.decode body).toOption) =
    [.request (.number { val := 1 }) Method.shutdown .null,
      .request (.number { val := 2 }) Method.exit .null] := by
  decide +kernel

/-- The answer to shutting down has 60 bytes, as has the answer to exit. With room for 65 bytes the
exit is followed and its answer is cut. -/
theorem serve_limited_farewell :
    let input := [Arrival.bytes (farewell.flatMap Frame.encode)]
    let free := serve (.standard (.sample 0)) input {} {} {}
    let whole := serve (.standard (.sample 0)) input {} {} { room := some 120 }
    let cut := serve (.standard (.sample 0)) input {} {} { room := some 65 }
    free.sink.taken.length = 120 ∧ whole.result = free.result ∧ cut.result = .error Sink.refusal ∧
      cut.sink.taken = free.sink.taken.take 65 ∧ cut.session.lifecycle = .exited true := by
  intro input free whole cut
  have hmessages : Reader.messages {} input =
      [.request (.number { val := 1 }) Method.shutdown .null,
        .request (.number { val := 2 }) Method.exit .null] := by
    have hreads : ∀ reason, .failure reason ∉ input := by simp [input]
    have hcontent : Arrival.content input = farewell.flatMap Frame.encode := List.append_nil _
    rw [Reader.messages_of_encode (by decide +kernel) (by decide +kernel) hreads hcontent,
      decode_farewell]
  have hlength : free.sink.taken.length = 120 := by
    obtain ⟨-, hsink, -⟩ := serve_leaves (.standard (.sample 0)) input {} {} {} rfl
    rw [show free.sink = _ from hsink, hmessages]
    decide +kernel
  obtain ⟨hwhole, -⟩ := serve_limited (.standard (.sample 0)) input {} 120
  obtain ⟨-, hcut⟩ := serve_limited (.standard (.sample 0)) input {} 65
  obtain ⟨-, -, -, hresult⟩ := hwhole hlength.le
  obtain ⟨hrefused, -, htaken, before, m, after, hms, hfirst, -, hsession⟩ :=
    hcut (by rw [hlength]; decide)
  refine ⟨hlength, hresult, hrefused, htaken, ?_⟩
  rw [hmessages] at hms
  match before, hms with
  | [], hms =>
    cases hms
    exact absurd hfirst.overflows (by decide +kernel)
  | [_], hms =>
    cases hms
    rw [show cut.session = _ from hsession]
    decide +kernel
  | _ :: _ :: _, hms => simp at hms

end Server

end LanguageServer
