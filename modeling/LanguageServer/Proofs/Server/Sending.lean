import LanguageServer.Proofs.Transport.Messages
import LanguageServer.Server

namespace LanguageServer

/-- The frames that a message leads to: one or none. -/
def Dispatched.frames (a : Dispatched) : List Bytes := a.response.toList.map Response.encode

/-- What is left when messages have been followed and their responses sent. -/
structure Sending where
  session : Session
  sink : Sink
  /-- How a server ends here, if a message or the output makes it end. -/
  stop : Option (Except TransportError Outcome) := none

namespace Sending

/-- How a server ends whose reader has failed with `failure`, if it has. -/
def result (x : Sending) (failure : Option TransportError) : Except TransportError Outcome :=
  match x.stop, failure with
  | some result, _ => result
  | none, some e => .error e
  | none, none => .ok .endOfStream

end Sending

namespace Server

variable {d : Dispatcher} {input : List Arrival} {reader : Reader} {s : Session}
  {sink next : Sink} {a : Dispatched}

/-- Follows messages and sends the responses, one after the other, up to an exit or a refusal of the
output. -/
def sendAll (d : Dispatcher) (s : Session) (sink : Sink) : List Message → Sending
  | [] => { session := s, sink := sink }
  | message :: rest =>
    let a := d.dispatch s message
    match reply sink a.response with
    | (.error e, next) => ⟨a.session, next, some (.error e)⟩
    | (.ok (), next) =>
      match exitOf a.session with
      | some outcome => ⟨a.session, next, some (.ok outcome)⟩
      | none => sendAll d a.session next rest

theorem sendAll_of_refused {m : Message} {e : TransportError}
    (h : reply sink (d.dispatch s m).response = (.error e, next)) (ms : List Message) :
    sendAll d s sink (m :: ms) = ⟨(d.dispatch s m).session, next, some (.error e)⟩ := by
  simp only [sendAll, h]

theorem sendAll_of_exit {m : Message} {outcome : Outcome}
    (h : reply sink (d.dispatch s m).response = (.ok (), next))
    (hexit : exitOf (d.dispatch s m).session = some outcome) (ms : List Message) :
    sendAll d s sink (m :: ms) = ⟨(d.dispatch s m).session, next, some (.ok outcome)⟩ := by
  simp only [sendAll, h, hexit]

theorem sendAll_of_answer {m : Message}
    (h : reply sink (d.dispatch s m).response = (.ok (), next))
    (hexit : exitOf (d.dispatch s m).session = none) (ms : List Message) :
    sendAll d s sink (m :: ms) = sendAll d (d.dispatch s m).session next ms := by
  simp only [sendAll, h, hexit]

theorem serve_of_stop {result : Except TransportError Outcome}
    (h : step d s (reader.next input).signal = .stop result) :
    serve d input reader s sink = ⟨result, s, sink, (reader.next input).log⟩ := by
  rw [serve]
  split <;> simp_all

theorem serve_of_skip {log : List Log.Event}
    (h : step d s (reader.next input).signal = .skip log) :
    serve d input reader s sink =
      (serve d (reader.next input).input (reader.next input).reader s sink).after
        ((reader.next input).log ++ log) := by
  rw [serve]
  split <;> simp_all

theorem serve_of_dispatched (h : step d s (reader.next input).signal = .answer a) :
    serve d input reader s sink =
      match reply sink a.response with
      | (.error e, next) => ⟨.error e, a.session, next, (reader.next input).log ++ a.log⟩
      | (.ok (), next) =>
        match exitOf a.session with
        | some outcome => ⟨.ok outcome, a.session, next, (reader.next input).log ++ a.log⟩
        | none =>
          (serve d (reader.next input).input (reader.next input).reader a.session next).after
            ((reader.next input).log ++ a.log) := by
  rw [serve]
  split
  · simp_all
  · simp_all
  · rename_i a' h'
    rw [h] at h'
    cases h'
    rfl

theorem serve_of_refused {e : TransportError}
    (h : step d s (reader.next input).signal = .answer a)
    (hreply : reply sink a.response = (.error e, next)) :
    serve d input reader s sink =
      ⟨.error e, a.session, next, (reader.next input).log ++ a.log⟩ := by
  rw [serve_of_dispatched h, hreply]

theorem serve_of_answer (h : step d s (reader.next input).signal = .answer a)
    (hreply : reply sink a.response = (.ok (), next)) (hexit : exitOf a.session = none) :
    serve d input reader s sink =
      (serve d (reader.next input).input (reader.next input).reader a.session next).after
        ((reader.next input).log ++ a.log) := by
  rw [serve_of_dispatched h, hreply]
  simp only [hexit]

theorem serve_of_exit {outcome : Outcome} (h : step d s (reader.next input).signal = .answer a)
    (hreply : reply sink a.response = (.ok (), next)) (hexit : exitOf a.session = some outcome) :
    serve d input reader s sink =
      ⟨.ok outcome, a.session, next, (reader.next input).log ++ a.log⟩ := by
  rw [serve_of_dispatched h, hreply]
  simp only [hexit]

theorem step_cases (d : Dispatcher) (s : Session) (signal : Signal) :
    (signal = .done ∧ step d s signal = .stop (.ok .endOfStream)) ∨
    (∃ e, signal = .error e ∧ e.isFatal = true ∧ step d s signal = .stop (.error e)) ∨
    (signal ≠ .done ∧ signal.fatal? = none ∧ signal.message? = none ∧
      ∃ log, step d s signal = .skip log) ∨
    (signal ≠ .done ∧ signal.fatal? = none ∧ ∃ message, signal.message? = some message ∧
      step d s signal = .answer (d.dispatch s message)) := by
  cases signal with
  | done => exact .inl ⟨rfl, rfl⟩
  | error e =>
    cases e with
    | io reason => exact .inr (.inl ⟨_, rfl, rfl, rfl⟩)
    | framing error => exact .inr (.inr (.inl ⟨by simp, rfl, rfl, _, rfl⟩))
  | body body =>
    have hmessage : (Signal.body body).message? = (Message.decode body).toOption := rfl
    cases hdecode : Message.decode body with
    | error e =>
      refine .inr (.inr (.inl ⟨by simp, rfl, ?_, [note .error s!"Got an error: {e.message}"], ?_⟩))
      · rw [hmessage, hdecode]
        rfl
      · simp only [step, hdecode]
    | ok message =>
      refine .inr (.inr (.inr ⟨by simp, rfl, message, ?_, by simp only [step, hdecode]⟩))
      rw [hmessage, hdecode]
      rfl

/-- What a run leaves behind but for its log. -/
structure Leaves (run : Run) (x : Sending) (failure : Option TransportError) : Prop where
  session : run.session = x.session
  sink : run.sink = x.sink
  result : run.result = x.result failure

theorem Leaves.after {run : Run} {x : Sending} {failure : Option TransportError}
    (h : Leaves run x failure) (log : List Log.Event) : Leaves (run.after log) x failure :=
  ⟨h.session, h.sink, h.result⟩

/-- Reading, following and sending in turn is the same as reading all messages first, whatever the
output takes. -/
theorem serve_sends (d : Dispatcher) (input : List Arrival) (reader : Reader) (s : Session)
    (sink : Sink) :
    Leaves (serve d input reader s sink) (sendAll d s sink (reader.messages input))
      (reader.failure? input) := by
  rcases step_cases d s (reader.next input).signal with
    ⟨hsignal, hstep⟩ | ⟨e, hsignal, he, hstep⟩ | ⟨hne, hfatal, hmessage, log, hstep⟩ |
      ⟨hne, hfatal, message, hmessage, hstep⟩
  · obtain ⟨hmessages, hfailure⟩ := Reader.messages_of_done hsignal
    rw [serve_of_stop hstep, hmessages, hfailure]
    exact ⟨rfl, rfl, rfl⟩
  · obtain ⟨hmessages, hfailure⟩ := Reader.messages_of_fatal hsignal he
    rw [serve_of_stop hstep, hmessages, hfailure]
    exact ⟨rfl, rfl, rfl⟩
  · have ih := serve_sends d (reader.next input).input (reader.next input).reader s sink
    obtain ⟨hmessages, hfailure⟩ := Reader.messages_of_usable hfatal hne
    rw [serve_of_skip hstep, hmessages, hfailure, hmessage]
    exact ih.after _
  · obtain ⟨hmessages, hfailure⟩ := Reader.messages_of_usable hfatal hne
    rw [hmessages, hfailure, hmessage, Option.toList_some, List.singleton_append]
    cases hreply : reply sink (d.dispatch s message).response with
    | mk answer next =>
      cases answer with
      | error e =>
        rw [serve_of_refused hstep hreply, sendAll_of_refused hreply]
        exact ⟨rfl, rfl, rfl⟩
      | ok _ =>
        cases hexit : exitOf (d.dispatch s message).session with
        | some outcome =>
          rw [serve_of_exit hstep hreply hexit, sendAll_of_exit hreply hexit]
          exact ⟨rfl, rfl, rfl⟩
        | none =>
          have ih := serve_sends d (reader.next input).input (reader.next input).reader
            (d.dispatch s message).session next
          rw [serve_of_answer hstep hreply hexit, sendAll_of_answer hreply hexit]
          exact ih.after _
termination_by reader.size input
decreasing_by all_goals exact Reader.size_next_lt hne

end Server

end LanguageServer
