import LanguageServer.Proofs.Frame.Encode
import LanguageServer.Proofs.Json.Value
import LanguageServer.Proofs.Server.Staged
import LanguageServer.Proofs.Transport.Account

namespace LanguageServer

namespace Frame

/-- The start of a frame that is not refused asks for more until the whole frame is there. -/
theorem split_of_append_eq {b rest s : Bytes} {f : Frame} {start : Option Frame}
    (hs : split s = .ok (some f)) (hb : b ++ rest = s) (hstart : split b = .ok start) :
    (split b = .ok none ∧ b.length < s.length) ∨
      (split b = .ok (some f) ∧ b.drop f.consumed ++ rest = s.drop f.consumed) := by
  subst hb
  cases start with
  | none =>
    refine .inl ⟨hstart, ?_⟩
    by_contra hle
    have hrest : rest = [] := by
      rw [List.length_append] at hle
      exact List.eq_nil_of_length_eq_zero (by omega)
    rw [hrest, List.append_nil, hstart] at hs
    cases hs
  | some f' =>
    rw [split_append_of_some hstart rest] at hs
    cases hs
    exact .inr ⟨hstart, (List.drop_append_of_le_length (consumed_of_split hstart).2).symm⟩

/-- No start of a frame is refused, if its header is so short that no read can end inside its
terminator and behind the longest header. -/
theorem exists_split_of_append_eq {b rest s : Bytes} {f : Frame} {e : Nat}
    (hs : split s = .ok (some f)) (hfind : Bytes.find terminator s = some e)
    (he : e + terminator.length ≤ maxHeaderLength) (hb : b ++ rest = s) :
    ∃ start, split b = .ok start := by
  subst hb
  cases hsplit : split b with
  | ok start => exact ⟨start, rfl⟩
  | error error =>
    cases hfind' : Bytes.find terminator b with
    | some e' =>
      rw [split_append_of_error hsplit hfind' rest] at hs
      cases hs
    | none =>
      have hlt := lt_of_find_terminator_append hfind' hfind
      rw [split_of_find_none hfind', if_neg (by omega)] at hsplit
      cases hsplit

end Frame

namespace Reader

open Arrival (content Unbroken)

theorem eq_nil_of_content {input : List Arrival} (hinput : Unbroken input)
    (hreads : ∀ reason, .failure reason ∉ input) (h : content input = []) : input = [] := by
  cases input with
  | nil => rfl
  | cons a rest =>
    obtain ⟨⟨b, bs, rfl⟩, -, -⟩ := Arrival.exists_bytes_of_cons hinput hreads
    cases h

theorem signal?_of_frame {r : Reader} {f : Frame} (h : Frame.split r.buffer = .ok (some f)) :
    r.signal? = some (.body f.body, { r with buffer := r.buffer.drop f.consumed }, []) := by
  simp only [signal?, h]

theorem signal?_of_wait {r : Reader} (h : Frame.split r.buffer = .ok none)
    (hended : r.ended = false) : r.signal? = none := by
  simp [signal?, h, hended]

/-- The next body is that of the frame that comes next, however reads cut it, if the buffer is not
refused on the way. -/
theorem next_of_starts {s : Bytes} {f : Frame} (hs : Frame.split s = .ok (some f))
    {input : List Arrival} {r : Reader} (hended : r.ended = false) (hinput : Unbroken input)
    (hreads : ∀ reason, .failure reason ∉ input) (h : r.buffer ++ content input = s)
    (hstarts : ∀ b rest, r.buffer <+: b → b ++ rest = s → ∃ start, Frame.split b = .ok start) :
    (r.next input).signal = .body f.body ∧ (r.next input).reader.ended = false ∧
      (r.next input).reader.buffer ++ content (r.next input).input = s.drop f.consumed := by
  induction input generalizing r with
  | nil =>
    obtain ⟨start, hstart⟩ := hstarts r.buffer [] (List.prefix_refl _) h
    rcases Frame.split_of_append_eq hs h hstart with ⟨-, hlt⟩ | ⟨hsplit, hmore⟩
    · rw [← h, content, List.append_nil] at hlt
      exact absurd hlt (Nat.lt_irrefl _)
    · rw [next_of_signal? (signal?_of_frame hsplit)]
      exact ⟨rfl, hended, hmore⟩
  | cons a rest ih =>
    obtain ⟨start, hstart⟩ := hstarts r.buffer _ (List.prefix_refl _) h
    rcases Frame.split_of_append_eq hs h hstart with ⟨hwait, -⟩ | ⟨hsplit, hmore⟩
    · obtain ⟨⟨b, bs, rfl⟩, hrest, hlater⟩ := Arrival.exists_bytes_of_cons hinput hreads
      rw [next_of_bytes (signal?_of_wait hwait hended)]
      refine ih hended hrest hlater ?_ fun c more hc => ?_
      · rw [← h, content, List.append_assoc]
      · exact hstarts c more ((List.prefix_append _ _).trans hc)
    · rw [next_of_signal? (signal?_of_frame hsplit)]
      exact ⟨rfl, hended, hmore⟩

theorem next_of_frame {s : Bytes} {f : Frame} {e : Nat} (hs : Frame.split s = .ok (some f))
    (hfind : Bytes.find Frame.terminator s = some e)
    (he : e + Frame.terminator.length ≤ maxHeaderLength) {input : List Arrival} {r : Reader}
    (hended : r.ended = false) (hinput : Unbroken input)
    (hreads : ∀ reason, .failure reason ∉ input) (h : r.buffer ++ content input = s) :
    (r.next input).signal = .body f.body ∧ (r.next input).reader.ended = false ∧
      (r.next input).reader.buffer ++ content (r.next input).input = s.drop f.consumed :=
  next_of_starts hs hended hinput hreads h fun _ _ _ hb =>
    Frame.exists_split_of_append_eq hs hfind he hb

theorem next_of_encode {body more : Bytes} (hbody : body.length ≤ maxBodyLength)
    {input : List Arrival} {r : Reader} (hended : r.ended = false) (hinput : Unbroken input)
    (hreads : ∀ reason, .failure reason ∉ input)
    (h : r.buffer ++ content input = Frame.encode body ++ more) :
    (r.next input).signal = .body body ∧ (r.next input).reader.ended = false ∧
      (r.next input).reader.buffer ++ content (r.next input).input = more := by
  have hfind := (Frame.declares_encode hbody more).find
  have hshort : (Bytes.ofChars (Header.ofLength 1 body.length)).length +
      Frame.terminator.length ≤ maxHeaderLength := by
    have hheader := Header.length_ofLength_le 1 hbody
    have hmax : maxHeaderLength = 8192 := rfl
    have hend : Frame.terminator.length = 4 := rfl
    omega
  have hnext := next_of_frame (Frame.split_encode hbody more) hfind hshort hended hinput hreads h
  rwa [List.drop_left] at hnext

/-- Frames that were written one after the other give their bodies and nothing else. -/
theorem signals_of_encode {bodies : List Bytes} (hbodies : ∀ b ∈ bodies, b.length ≤ maxBodyLength)
    {r : Reader} {input : List Arrival} (hended : r.ended = false) (hinput : Unbroken input)
    (hreads : ∀ reason, .failure reason ∉ input)
    (h : r.buffer ++ content input = bodies.flatMap Frame.encode) :
    r.signals input = bodies.map .body := by
  induction bodies generalizing r input with
  | nil =>
    obtain ⟨hbuffer, hcontent⟩ := List.append_eq_nil_iff.mp h
    rw [eq_nil_of_content hinput hreads hcontent]
    apply signals_of_done
    rw [next, signal?_of_wait (by rw [hbuffer]; rfl) hended]
    simp [close, finish, hbuffer]
  | cons body bodies ih =>
    rw [List.flatMap_cons] at h
    obtain ⟨hsignal, hended', hmore⟩ :=
      next_of_encode (hbodies body List.mem_cons_self) hended hinput hreads h
    obtain ⟨hinput', hreads'⟩ := rest_next (settled_of_not_ended hended) hinput hreads
    rw [signals_of_signal hsignal (by simp),
      ih (fun b hb => hbodies b (List.mem_cons_of_mem _ hb)) hended' hinput' hreads' hmore]
    rfl

theorem messages_of_encode {bodies : List Bytes} (hbodies : ∀ b ∈ bodies, b.length ≤ maxBodyLength)
    {input : List Arrival} (hinput : Unbroken input) (hreads : ∀ reason, .failure reason ∉ input)
    (h : content input = bodies.flatMap Frame.encode) :
    messages {} input = bodies.filterMap fun body => (Message.decode body).toOption := by
  have hsignals : signals {} input = bodies.map .body :=
    signals_of_encode hbodies rfl hinput hreads h
  have husable : ∀ signal ∈ bodies.map Signal.body, signal.fatal?.isNone = true := by
    intro signal hsignal
    obtain ⟨body, -, rfl⟩ := List.mem_map.mp hsignal
    rfl
  rw [messages_eq, hsignals, List.takeWhile_eq_self_iff.mpr husable, List.filterMap_map]
  rfl

end Reader

namespace Sink

open Json (Value)

/-- Writes values one after the other, each in a frame of its own. -/
def writeAll (s : Sink) : List Value → Except TransportError Unit × Sink
  | [] => (.ok (), s)
  | v :: vs =>
    match s.send (Frame.encode v.render) with
    | (.error e, after) => (.error e, after)
    | (.ok (), after) => after.writeAll vs

theorem writeAll_eq_taking {s : Sink} (h : s.room = none) (vs : List Value) :
    s.writeAll vs = (.ok (), s.taking (vs.map fun v => Frame.encode v.render)) := by
  induction vs generalizing s with
  | nil => rw [List.map_nil, taking_nil]; rfl
  | cons v vs ih =>
    have hrest := ih (s := s.taking [Frame.encode v.render]) h
    rw [writeAll, send_eq_taking h]
    dsimp only
    rw [hrest, taking_taking]
    rfl

end Sink

namespace Reader

open Arrival (content Unbroken)
open Json (Value)

/-- Values that are written come back as they were, in their order, however reads cut what the
output took. -/
theorem parse_written {vs : List Value} (hexact : ∀ v ∈ vs, v.isExact = true)
    (hdepth : ∀ v ∈ vs, v.depth ≤ Json.maxDepth)
    (hsize : ∀ v ∈ vs, v.render.length ≤ maxBodyLength) :
    ∃ sink, Sink.writeAll {} vs = (.ok (), sink) ∧
      ∀ input : List Arrival, Unbroken input → (∀ reason, .failure reason ∉ input) →
        content input = sink.taken →
          ∃ bodies : List Bytes, signals {} input = bodies.map .body ∧
            bodies.map Json.parse = vs.map .ok := by
  refine ⟨_, Sink.writeAll_eq_taking rfl vs, ?_⟩
  intro input hinput hreads hcontent
  refine ⟨vs.map Value.render, ?_, ?_⟩
  · have hbodies : ∀ b ∈ vs.map Value.render, b.length ≤ maxBodyLength := by
      intro b hb
      obtain ⟨v, hv, rfl⟩ := List.mem_map.mp hb
      exact hsize v hv
    refine signals_of_encode hbodies rfl hinput hreads ?_
    rw [hcontent]
    simp [Sink.taken, Sink.taking, List.flatMap_def, Function.comp_def]
  · rw [List.map_map]
    refine List.map_congr_left ?_
    intro v hv
    exact Json.parse_render ⟨hexact v hv, hdepth v hv⟩

/-- A text may hold what looks like a header, and numbers may be as far from zero as they can. -/
theorem parse_written_headerText :
    let vs : List Value := [
      .object [
        ("k\r\n\r\n", .text "Content-Length: 3\r\n\r\n"),
        ("\u0001ä\"", .list [.null, .bool true])],
      .list [.number (.integer (-9223372036854775808)), .number (.integer 18446744073709551615)]]
    (∀ v ∈ vs, v.isExact = true) ∧ (∀ v ∈ vs, v.depth ≤ Json.maxDepth) ∧
      (∀ v ∈ vs, v.render.length ≤ maxBodyLength) ∧
        ∃ sink, Sink.writeAll {} vs = (.ok (), sink) ∧
          ∀ input : List Arrival, Unbroken input → (∀ reason, .failure reason ∉ input) →
            content input = sink.taken →
              ∃ bodies : List Bytes, signals {} input = bodies.map .body ∧
                bodies.map Json.parse = vs.map .ok := by
  intro vs
  have hexact : ∀ v ∈ vs, v.isExact = true := by decide +kernel
  have hdepth : ∀ v ∈ vs, v.depth ≤ Json.maxDepth := by decide +kernel
  have hsize : ∀ v ∈ vs, v.render.length ≤ maxBodyLength := by decide +kernel
  exact ⟨hexact, hdepth, hsize, parse_written hexact hdepth hsize⟩

end Reader

end LanguageServer
