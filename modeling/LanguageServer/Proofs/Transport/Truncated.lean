import LanguageServer.Proofs.Frame.Grammar
import LanguageServer.Proofs.Transport.Progress
import LanguageServer.Proofs.Transport.Written

namespace LanguageServer

namespace Frame

variable {b : Bytes} {e n : Nat}

/-- The bytes that are there of a frame whose end is missing. -/
theorem Declares.eq_append_of_lt (h : Declares b e n) (hlt : b.length < e + terminator.length + n) :
    b = b.take e ++ terminator ++ b.drop (e + terminator.length) := by
  have hbody : (cutAt b e n).body = b.drop (e + terminator.length) := by
    rw [cutAt, List.take_of_length_le]
    rw [List.length_drop]
    omega
  have hall := h.eq_append
  rwa [hbody, List.drop_eq_nil_of_le hlt.le, List.append_nil] at hall

end Frame

namespace Reader

open Arrival (content Unbroken)

variable {r : Reader} {cs : List Arrival} {earlier later : List Signal} {signal : Signal}
  {expected received : Nat}

/-- How many bytes the first `k` calls have taken. -/
def takenBy : Nat → Reader → List Arrival → Nat
  | 0, _, _ => 0
  | k + 1, r, input => r.taken input + takenBy k (r.next input).reader (r.next input).input

theorem signals_congr {r' : Reader} {cs' : List Arrival} (h : r.next cs = r'.next cs') :
    r.signals cs = r'.signals cs' := by
  by_cases hdone : (r.next cs).signal = .done
  · rw [signals_of_done hdone, signals_of_done (h ▸ hdone)]
  · rw [signals_of_ne_done hdone, h, ← signals_of_ne_done (h ▸ hdone)]

theorem signals_close (r : Reader) (rest : List Arrival) :
    (r.close rest).reader.signals (r.close rest).input = [] := by
  obtain ⟨-, hbuffer, hended⟩ := finish_spec { r with ended := true }
  exact signals_of_done (congrArg Reading.signal (next_of_ended hended hbuffer rest))

/-- Behind some of the signals of an unbroken stream the others come from a reader that has not
found the end, and that is there too when more reads follow. -/
theorem exists_run (hended : r.ended = false) (hcs : Unbroken cs)
    (h : r.signals cs = earlier ++ signal :: later) :
    ∃ (r' : Reader) (cs' : List Arrival), r'.ended = false ∧ Unbroken cs' ∧
      r'.signals cs' = signal :: later ∧
      r'.remaining cs' = (r.remaining cs).drop (takenBy earlier.length r cs) ∧
      ∀ more, r.signals (cs ++ more) = earlier ++ r'.signals (cs' ++ more) := by
  induction earlier generalizing r cs with
  | nil => exact ⟨r, cs, hended, hcs, h, rfl, fun _ => rfl⟩
  | cons first earlier ih =>
    have hdone : (r.next cs).signal ≠ .done := by
      intro hdone
      rw [signals_of_done hdone] at h
      cases h
    rw [signals_of_ne_done hdone, List.cons_append, List.cons.injEq] at h
    obtain ⟨hfirst, hlater⟩ := h
    cases continues hended hcs with
    | before hstill _ _ hnext =>
      have hrest : Unbroken (r.next cs).input :=
        (pending_next (settled_of_not_ended hended) hcs).2.2.1
      obtain ⟨r', cs', hended', hcs', hsignals, hremaining, hmore⟩ := ih hstill hrest hlater
      refine ⟨r', cs', hended', hcs', hsignals, ?_, fun more => ?_⟩
      · rw [hremaining, (spends_next r cs).remaining, List.drop_drop]
        rfl
      · rw [signals_of_ne_done (by rwa [hnext]), hnext, hfirst, hmore]
        rfl
    | behind last hlast hwait _ hnext =>
      -- The first signal would be the last.
      have hclose := hnext []
      rw [List.append_nil, next_of_nil (signal?_of_wait hwait hlast)] at hclose
      rw [hclose, signals_close] at hlater
      exact absurd hlater.symm (by simp)

theorem finish_eq_truncated
    (h : r.finish.1 = .error (.framing (.truncated expected received))) :
    r.buffer.all Bytes.isBlank = false ∧ received = r.buffer.length ∧
      expected = (Frame.declaredLength? r.buffer).getD r.buffer.length := by
  unfold finish at h
  split at h
  · cases h
  · rename_i hblank
    cases h
    exact ⟨by simpa using hblank, rfl, rfl⟩

/-- When the rest of a frame comes, its body is the signal, and then there is nothing left. -/
theorem signals_of_declares {e n : Nat} {more : List Arrival}
    (hd : Frame.Declares r.buffer e n) (hended : r.ended = false) (hmore : Unbroken more)
    (hreads : ∀ reason, .failure reason ∉ more)
    (hlength : r.buffer.length + (content more).length = e + Frame.terminator.length + n) :
    r.signals more = [.body (r.buffer.drop (e + Frame.terminator.length) ++ content more)] := by
  have hdall := hd.append (content more)
  have hlen : (r.buffer ++ content more).length = e + Frame.terminator.length + n := by
    rw [List.length_append, hlength]
  have hsplit : Frame.split (r.buffer ++ content more) =
      .ok (some (Frame.cutAt (r.buffer ++ content more) e n)) := by
    rw [hdall.split, if_neg (by omega)]
  have hstarts : ∀ b rest, r.buffer <+: b → b ++ rest = r.buffer ++ content more →
      ∃ start, Frame.split b = .ok start := by
    intro b rest hprefix _
    obtain ⟨c, rfl⟩ := hprefix
    rw [(hd.append c).split]
    split <;> exact ⟨_, rfl⟩
  have hbody : (Frame.cutAt (r.buffer ++ content more) e n).body =
      r.buffer.drop (e + Frame.terminator.length) ++ content more := by
    rw [Frame.cutAt, List.take_of_length_le (by rw [List.length_drop]; omega),
      List.drop_append_of_le_length (Frame.find_terminator_le hd.find)]
  obtain ⟨hsignal, hended', hrest⟩ := next_of_starts hsplit hended hmore hreads rfl hstarts
  obtain ⟨hmore', hreads'⟩ := rest_next (settled_of_not_ended hended) hmore hreads
  have hnothing : (r.next more).reader.buffer ++ content (r.next more).input =
      ([] : List Bytes).flatMap Frame.encode := by
    rw [hrest]
    exact List.drop_eq_nil_of_le hlen.le
  rw [signals_of_signal hsignal (by simp), hbody,
    signals_of_encode (List.forall_mem_nil _) hended' hmore' hreads' hnothing]
  rfl

/-- A stream is given up as truncated only once, at its end. What has been received is what frames
and earlier errors have left, and it is not blank. No more is expected only if there is no end of a
header in it, and otherwise what is missing makes it a frame, whatever it is and however it
arrives. -/
theorem signals_of_truncated {input : List Arrival} (hinput : Unbroken input)
    {earlier later : List Signal} {expected received : Nat}
    (h : signals {} input =
      earlier ++ .error (.framing (.truncated expected received)) :: later) :
    let rest := (content input).drop (takenBy earlier.length {} input)
    later = [] ∧ received = rest.length ∧ rest.all Bytes.isBlank = false ∧ received ≤ expected ∧
      (expected = received → ¬ Frame.terminator <:+: rest) ∧
      (received < expected → ∀ more, Unbroken more → (∀ reason, .failure reason ∉ more) →
        (content more).length = expected - received →
          ∃ header start, rest = header ++ Frame.terminator ++ start ∧
            signals {} (input ++ more) = earlier ++ [.body (start ++ content more)]) := by
  intro rest
  obtain ⟨r, cs, hended, hcs, hsignals, hremaining, hmore⟩ := exists_run rfl hinput h
  have hdone : (r.next cs).signal ≠ .done := by
    intro hdone
    rw [signals_of_done hdone] at hsignals
    cases hsignals
  rw [signals_of_ne_done hdone, List.cons.injEq] at hsignals
  obtain ⟨hsignal, hlater⟩ := hsignals
  cases continues hended hcs with
  | before _ _ hwhole _ => exact absurd hsignal (hwhole expected received)
  | behind last hlast hwait hbuffer hnext =>
    have hclose := hnext []
    rw [List.append_nil, next_of_nil (signal?_of_wait hwait hlast)] at hclose
    have hrest : last.buffer = rest := hbuffer.trans hremaining
    rw [hclose] at hsignal hlater
    rw [signals_close] at hlater
    obtain ⟨hblank, hreceived, hexpected⟩ := finish_eq_truncated hsignal
    rw [hrest] at hwait hblank hreceived hexpected
    refine ⟨hlater.symm, hreceived, hblank, ?_⟩
    rcases Frame.wait_cases hwait with ⟨hfind, -⟩ | ⟨e, n, hd, hlt⟩
    · have hnone : Frame.declaredLength? rest = none := by
        simp only [Frame.declaredLength?, hfind]
      rw [hnone, Option.getD_none] at hexpected
      refine ⟨by omega, fun _ => Frame.find_terminator_eq_none_iff.mp hfind, fun hlt => ?_⟩
      omega
    · rw [hd.declaredLength?, Option.getD_some] at hexpected
      refine ⟨by omega, fun heq => by omega, fun _ more hunbroken hreads hlength => ?_⟩
      refine ⟨rest.take e, rest.drop (e + Frame.terminator.length), hd.eq_append_of_lt hlt, ?_⟩
      rw [← hrest] at hd
      have hframe := signals_of_declares hd hlast hunbroken hreads (by rw [hrest]; omega)
      rw [hmore, signals_congr (hnext more), hframe, hrest]

/-- A frame whose end is missing behind a refused header, and the end of it in two reads. -/
theorem signals_of_truncated_afterRefused :
    let input : List Arrival :=
      [.bytes (Bytes.ofText "a: 1\r\n\r\nContent-Length: 4\r\n"), .bytes (Bytes.ofText "\r\nab")]
    let first : Signal := .error (.framing .missingContentLength)
    signals {} input = [first, .error (.framing (.truncated 25 23))] ∧
      ∃ start, signals {} (input ++ [.bytes [99], .bytes [100]]) =
        [first, .body (start ++ [99, 100])] := by
  intro input first
  have hsignals : signals {} input = [first] ++ [.error (.framing (.truncated 25 23))] := by
    rw [signals_of_ne_done (by decide +kernel), signals_of_ne_done (by decide +kernel),
      signals_of_done (by decide +kernel)]
    decide +kernel
  have hinput : Unbroken input := by decide +kernel
  obtain ⟨-, -, -, -, -, hmissing⟩ := signals_of_truncated hinput hsignals
  obtain ⟨-, start, -, hmore⟩ :=
    hmissing (by decide) [.bytes [99], .bytes [100]] (by decide) (by simp) (by decide)
  exact ⟨hsignals, start, hmore⟩

end Reader

end LanguageServer
