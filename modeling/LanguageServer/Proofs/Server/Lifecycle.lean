import LanguageServer.Program
import LanguageServer.Proofs.Server.Staged
import LanguageServer.Proofs.Stream.Noise

namespace LanguageServer

namespace Reader

variable {r : Reader} {input : List Arrival}

theorem failure?_eq_none (h : ∀ reason, .failure reason ∉ input) : r.failure? input = none := by
  cases hfailure : r.failure? input with
  | none => rfl
  | some e =>
    obtain ⟨reason, -, hmem⟩ := exists_failure_of_failure? hfailure
    exact absurd hmem (h reason)

theorem messages_eq_bodies (h : ∀ reason, .failure reason ∉ input) :
    r.messages input =
      (r.bodies input).filterMap fun body => (Message.decode body).toOption := by
  have hnone : ∀ signal ∈ r.signals input, signal.fatal?.isNone = true := by
    intro signal hsignal
    cases hfatal : signal.fatal? with
    | none => rfl
    | some e =>
      obtain ⟨reason, -, hmem⟩ := exists_failure_of_fatal hsignal hfatal
      exact absurd hmem (h reason)
  rw [messages, usableBodies, List.takeWhile_eq_self_iff.mpr hnone]
  rfl

end Reader

namespace Dispatcher

variable {a : Analyzer} {s : Session} {before : List Message} {m : Message}

/-- After a message to shut down, up to the exit, requests are refused and the session stays. -/
theorem replay_of_shutdown (hs : s.hasExited = false)
    (hbefore : ∀ x ∈ before, x.asks Method.exit = false)
    (hm : m.asks Method.shutdown = true) {waiting : List Message}
    (hwaiting : ∀ x ∈ waiting, x.asks Method.exit = false) :
    (standard a).replay s (before ++ m :: waiting) =
      let shut := (standard a).replay s (before ++ [m])
      ⟨shut.session, shut.responses ++ waiting.filterMap Message.refusal?, none⟩ := by
  have hall : ∀ x ∈ before ++ [m], x.asks Method.exit = false := by
    intro x hx
    rcases List.mem_append.mp hx with hx | hx
    · exact hbefore x hx
    · rw [List.mem_singleton.mp hx]
      exact Message.asks_eq_false hm (by decide)
  obtain ⟨hnone, hlifecycle⟩ := replay_of_no_exit (a := a) hs hall
  have hshut : ((standard a).replay s (before ++ [m])).session.isShuttingDown = true := by
    rw [Session.isShuttingDown, hlifecycle]
    simp [hm]
  rw [List.append_cons, replay_append hnone, replay_of_shuttingDown hshut hwaiting]
  rfl

/-- Everything that comes after a message to shut down. -/
theorem replay_from_shutdown (hs : s.hasExited = false)
    (hbefore : ∀ x ∈ before, x.asks Method.exit = false)
    (hm : m.asks Method.shutdown = true) (after : List Message) :
    let all := (standard a).replay s (before ++ m :: after)
    let shut := (standard a).replay s (before ++ [m])
    let waiting := after.takeWhile fun x => !x.asks Method.exit
    let farewell := (after.find? (Message.asks Method.exit)).bind Message.consent?
    all.responses = shut.responses ++ (waiting.filterMap Message.refusal? ++ farewell.toList) ∧
      all.session.documents = shut.session.documents ∧
      all.session.changeCount = shut.session.changeCount := by
  intro all shut waiting farewell
  cases hfind : after.find? (Message.asks Method.exit) with
  | none =>
    have hwaiting : ∀ x ∈ after, x.asks Method.exit = false := by
      simpa using hfind
    have hall : after.takeWhile (fun x => !x.asks Method.exit) = after := by
      rw [List.takeWhile_eq_self_iff]
      intro x hx
      rw [hwaiting x hx]
      rfl
    have hfarewell : farewell = none := by
      simp only [farewell, hfind, Option.bind_none]
    rw [show all = _ from replay_of_shutdown hs hbefore hm hwaiting, hfarewell,
      show waiting = after from hall, Option.toList_none, List.append_nil]
    exact ⟨rfl, rfl, rfl⟩
  | some x =>
    obtain ⟨hx, first, rest, hafter, hnot⟩ := List.find?_eq_some_iff_append.mp hfind
    have hfirst : ∀ y ∈ first, y.asks Method.exit = false := by
      intro y hy
      simpa using hnot y hy
    have hcut : waiting = first := by
      simp only [waiting, hafter]
      rw [List.takeWhile_append_of_pos hnot, List.takeWhile_cons_of_neg (by simp [hx]),
        List.append_nil]
    have hfarewell : farewell = x.consent? := by
      simp only [farewell, hfind, Option.bind_some]
    have hall : ∀ y ∈ before ++ m :: first, y.asks Method.exit = false := by
      intro y hy
      rcases List.mem_append.mp hy with hy | hy
      · exact hbefore y hy
      · rcases List.mem_cons.mp hy with rfl | hy
        · exact Message.asks_eq_false hm (by decide)
        · exact hfirst y hy
    have hexit := replay_of_exit (a := a) hs hall hx rest
    rw [List.append_assoc, List.cons_append, ← hafter,
      replay_of_shutdown hs hbefore hm hfirst] at hexit
    rw [show all = _ from hexit, hcut, hfarewell, ← List.append_assoc]
    exact ⟨rfl, rfl, rfl⟩

end Dispatcher

namespace Server

open Dispatcher (standard)

theorem resultCode_exit (clean : Bool) :
    Program.resultCode (.ok (.exit clean)) = if clean then 0 else 1 := by
  cases clean <;> rfl

/-- Without failing reads a run follows the messages in all bodies. -/
theorem serve_eq_replay (a : Analyzer) {input : List Arrival}
    (hinput : ∀ reason, .failure reason ∉ input) :
    let ms := (Reader.bodies {} input).filterMap fun body => (Message.decode body).toOption
    let run := serve (standard a) input {} {} {}
    run.session = ((standard a).replay {} ms).session ∧
      run.sink.writes = ((standard a).replay {} ms).frames ∧
      run.result = ((standard a).replay {} ms).result none := by
  intro ms run
  obtain ⟨hsession, hsink, hresult⟩ := serve_leaves (standard a) input {} {} {} rfl
  have hms : Reader.messages {} input = ms := Reader.messages_eq_bodies hinput
  rw [hms] at hsession hsink hresult
  rw [Reader.failure?_eq_none hinput] at hresult
  refine ⟨hsession, ?_, hresult⟩
  rw [show run.sink = _ from hsink]
  exact List.nil_append _

/-- Shutting down and exit over a whole run without failing reads. Without a message to exit the
run ends with the stream. The first such message is the last one that is followed, and the exit is
clean if shutting down came before it. From a message to shut down on, up to the exit, every request
is refused by a frame of its own, and the session stays as it is. -/
theorem serve_lifecycle (a : Analyzer) (input : List Arrival)
    (hinput : ∀ reason, .failure reason ∉ input) :
    let ms := (Reader.bodies {} input).filterMap fun body => (Message.decode body).toOption
    let run := serve (standard a) input {} {} {}
    ((∀ m ∈ ms, m.asks Method.exit = false) →
      run.result = .ok .endOfStream ∧ Program.resultCode run.result = 0) ∧
    (∀ before m after, ms = before ++ m :: after →
      (∀ x ∈ before, x.asks Method.exit = false) → m.asks Method.exit = true →
      let last := (standard a).replay {} (before ++ [m])
      run.result = .ok (.exit (before.any (Message.asks Method.shutdown))) ∧
        Program.resultCode run.result =
          (if before.any (Message.asks Method.shutdown) then 0 else 1) ∧
        run.session = last.session ∧ run.sink.writes = last.frames) ∧
    (∀ before m after, ms = before ++ m :: after →
      (∀ x ∈ before, x.asks Method.exit = false) → m.asks Method.shutdown = true →
      let shut := (standard a).replay {} (before ++ [m])
      let waiting := after.takeWhile fun x => !x.asks Method.exit
      let refusals := (waiting.filterMap Message.refusal?).map Response.encode
      let farewell := (after.find? (Message.asks Method.exit)).bind Message.consent?
      run.sink.writes = shut.frames ++ (refusals ++ farewell.toList.map Response.encode) ∧
        List.Forall₂ Frame.Refuses refusals (waiting.filterMap Message.awaitedId?) ∧
        run.session.documents = shut.session.documents ∧
        run.session.changeCount = shut.session.changeCount ∧
        ∀ part, part <+: waiting →
          ((standard a).replay {} (before ++ m :: part)).session = shut.session) := by
  intro ms run
  obtain ⟨hsession, hwrites, hresult⟩ := serve_eq_replay a hinput
  refine ⟨?_, ?_, ?_⟩
  · intro hall
    obtain ⟨hexit, -⟩ := Dispatcher.replay_of_no_exit (a := a) (s := {}) rfl hall
    have hend : run.result = .ok .endOfStream := hresult.trans (Replay.result_of_no_exit hexit)
    rw [hend]
    exact ⟨rfl, rfl⟩
  · intro before m after hsplit hbefore hm last
    obtain ⟨hsame, hexit⟩ :=
      Dispatcher.replay_up_to_exit (a := a) (s := {}) rfl hbefore hm after
    have hlast : (standard a).replay {} ms = last := by
      rw [hsplit]
      exact hsame
    rw [show (standard a).replay {} _ = last from hlast] at hsession hwrites hresult
    have hend : run.result = .ok (.exit (before.any (Message.asks Method.shutdown))) :=
      hresult.trans (Replay.result_of_exit hexit none)
    refine ⟨hend, ?_, hsession, hwrites⟩
    rw [hend]
    exact resultCode_exit _
  · intro before m after hsplit hbefore hm shut waiting refusals farewell
    obtain ⟨hresponses, hdocuments, hcount⟩ :=
      Dispatcher.replay_from_shutdown (a := a) (s := {}) rfl hbefore hm after
    rw [← hsplit] at hresponses hdocuments hcount
    refine ⟨?_, Frame.forall₂_refuses waiting, ?_, ?_, ?_⟩
    · rw [hwrites, Replay.frames, hresponses, List.map_append, List.map_append]
      rfl
    · rw [show run.session = _ from hsession]
      exact hdocuments
    · rw [show run.session = _ from hsession]
      exact hcount
    · intro part hpart
      have hnot : ∀ x ∈ part, x.asks Method.exit = false := by
        intro x hx
        simpa using List.mem_takeWhile_imp (hpart.subset hx)
      rw [Dispatcher.replay_of_shutdown rfl hbefore hm hnot]

/-- Three messages: to shut down, a request that is too late, and to exit. -/
def lateRequest : List Bytes := [Bytes.ofText "\x7b\"method\":\"shutdown\"\x7d",
  Bytes.ofText "\x7b\"id\":7,\"method\":\"shutdown\"\x7d",
  Bytes.ofText "\x7b\"method\":\"exit\"\x7d"]

set_option maxRecDepth 10000 in
theorem decode_lateRequest : (lateRequest.filterMap fun body => (Message.decode body).toOption) =
    [.notification Method.shutdown .null, .request (.number { val := 7 }) Method.shutdown .null,
      .notification Method.exit .null] := by
  decide +kernel

def lateRefusal : Bytes := Bytes.ofText ("Content-Length: 84\r\n\r\n" ++
  "\x7b\"jsonrpc\":\"2.0\",\"id\":7," ++
  "\"error\":\x7b\"code\":-32600,\"message\":\"server is shutting down\"\x7d\x7d")

set_option maxRecDepth 10000 in
theorem encode_lateRefusal : Response.encode (.failure (.number { val := 7 })
    (.of .invalidRequest "server is shutting down")) = lateRefusal := by
  decide +kernel

/-- A request that comes between shutting down and the exit is refused, and the exit is clean. -/
theorem serve_lateRequest :
    let run := serve (standard (.sample 0)) [.bytes (lateRequest.flatMap Frame.encode)] {} {} {}
    run.result = .ok (.exit true) ∧ Program.resultCode run.result = 0 ∧
      run.sink.writes = [lateRefusal] ∧ Frame.Refuses lateRefusal (.number { val := 7 }) := by
  have hinput : ∀ reason, .failure reason ∉ [Arrival.bytes (lateRequest.flatMap Frame.encode)] := by
    simp
  have hunbroken : Arrival.Unbroken [.bytes (lateRequest.flatMap Frame.encode)] := by
    decide +kernel
  have hbodies : Reader.bodies {} [.bytes (lateRequest.flatMap Frame.encode)] = lateRequest := by
    rw [Reader.bodies_new hunbroken]
    simp only [Arrival.content, lateRequest, List.flatMap_cons, List.flatMap_nil, List.append_assoc]
    rw [Stream.bodies_encode_append (by decide +kernel),
      Stream.bodies_encode_append (by decide +kernel),
      Stream.bodies_encode_append (by decide +kernel), Stream.bodies_of_wait (by rfl)]
  obtain ⟨-, hexit, hshut⟩ := serve_lifecycle (.sample 0) _ hinput
  rw [hbodies, decode_lateRequest] at hexit hshut
  obtain ⟨hresult, hcode, -⟩ := hexit [.notification Method.shutdown .null,
    .request (.number { val := 7 }) Method.shutdown .null] (.notification Method.exit .null) [] rfl
    (by decide +kernel) (by decide +kernel)
  obtain ⟨hwrites, hrefuses, -⟩ := hshut [] (.notification Method.shutdown .null)
    [.request (.number { val := 7 }) Method.shutdown .null, .notification Method.exit .null] rfl
    (by decide +kernel) (by decide +kernel)
  rw [← encode_lateRefusal]
  exact ⟨hresult, hcode, hwrites, (List.forall₂_cons.mp hrefuses).1⟩

end Server

end LanguageServer
