import LanguageServer.Proofs.Frame.Grammar
import LanguageServer.Proofs.Transport.Bodies

namespace LanguageServer

/-- A frame in a stream, with the bytes before it that belong to no frame and the errors that came
for them. -/
structure Extract where
  skipped : Bytes
  errors : List FramingError
  header : Bytes
  body : Bytes

namespace Extract

def frame (x : Extract) : Bytes := x.header ++ Frame.terminator ++ x.body

def bytes (x : Extract) : Bytes := x.skipped ++ x.frame

def signals (x : Extract) : List Signal :=
  x.errors.map (fun e => .error (.framing e)) ++ [.body x.body]

/-- The header is not too long, and it is well formed and says how long the body is. Nothing is
skipped without an error. -/
structure Sound (x : Extract) : Prop where
  header_le : x.header.length ≤ maxHeaderLength
  wellFormed : Header.WellFormed x.header x.body.length
  reported : x.errors = [] → x.skipped = []

end Extract

/-- What the signals of a reader say about all the bytes it has read. -/
structure Account (signals : List Signal) (s : Bytes) where
  extracts : List Extract
  /-- What is left behind the last frame. -/
  last : Bytes
  errors : List FramingError
  bytes_eq : s = extracts.flatMap Extract.bytes ++ last
  signals_eq : signals =
    extracts.flatMap Extract.signals ++ errors.map fun e => .error (.framing e)
  sound : ∀ x ∈ extracts, x.Sound
  reported : errors = [] → last.all Bytes.isBlank = true

namespace Account

theorem filterMap_body?_errors (errors : List FramingError) :
    (errors.map fun e => Signal.error (.framing e)).filterMap Signal.body? = [] := by
  simp [Signal.body?, Function.comp_def, List.filterMap_map]

/-- Blanks may be left without an error. -/
def blank {s : Bytes} (h : s.all Bytes.isBlank = true) : Account [] s where
  extracts := []
  last := s
  errors := []
  bytes_eq := rfl
  signals_eq := rfl
  sound := by simp
  reported _ := h

def body {signals : List Signal} {rest header b : Bytes} (a : Account signals rest)
    (hheader : header.length ≤ maxHeaderLength) (hwell : Header.WellFormed header b.length) :
    Account (.body b :: signals) (header ++ Frame.terminator ++ b ++ rest) where
  extracts := ⟨[], [], header, b⟩ :: a.extracts
  last := a.last
  errors := a.errors
  bytes_eq := by
    rw [List.flatMap_cons, List.append_assoc (Extract.bytes _), ← a.bytes_eq]
    rfl
  signals_eq := by
    rw [List.flatMap_cons, List.append_assoc, ← a.signals_eq]
    rfl
  sound := by
    intro x hx
    rcases List.mem_cons.mp hx with rfl | hx
    · exact { header_le := hheader, wellFormed := hwell, reported := fun _ => rfl }
    · exact a.sound x hx
  reported := a.reported

/-- An error accounts for whatever is dropped with it. -/
def error {signals : List Signal} {rest : Bytes} (a : Account signals rest) (e : FramingError)
    (dropped : Bytes) : Account (.error (.framing e) :: signals) (dropped ++ rest) :=
  match a with
  | ⟨[], last, errors, hbytes, hsignals, hsound, _⟩ =>
    ⟨[], dropped ++ last, e :: errors, by rw [hbytes]; rfl, by rw [hsignals]; rfl, hsound,
      by simp⟩
  | ⟨x :: xs, last, errors, hbytes, hsignals, hsound, hreported⟩ =>
    ⟨{ x with skipped := dropped ++ x.skipped, errors := e :: x.errors } :: xs, last, errors,
      by simp [hbytes, Extract.bytes, Extract.frame], by simp [hsignals, Extract.signals],
      by
        intro y hy
        rcases List.mem_cons.mp hy with rfl | hy
        · have hx := hsound x List.mem_cons_self
          exact { header_le := hx.header_le, wellFormed := hx.wellFormed, reported := by simp }
        · exact hsound y (List.mem_cons_of_mem x hy),
      hreported⟩

end Account

/-- What a signal says about the bytes before those that are left when it comes. -/
inductive Passes : Signal → Bytes → Bytes → Prop where
  | body {header b rest : Bytes} (hheader : header.length ≤ maxHeaderLength)
    (hwell : Header.WellFormed header b.length) :
    Passes (.body b) (header ++ Frame.terminator ++ b ++ rest) rest
  | error (e : FramingError) (dropped rest : Bytes) :
    Passes (.error (.framing e)) (dropped ++ rest) rest
  | done {s : Bytes} (h : s.all Bytes.isBlank = true) (rest : Bytes) : Passes .done s rest

namespace Account

theorem bodies_eq {signals : List Signal} {s : Bytes} (a : Account signals s) :
    signals.filterMap Signal.body? = a.extracts.map Extract.body := by
  conv => lhs; rw [a.signals_eq, List.filterMap_append, filterMap_body?_errors, List.append_nil]
  induction a.extracts with
  | nil => rfl
  | cons x xs ih =>
    rw [List.flatMap_cons, List.filterMap_append, ih, Extract.signals, List.filterMap_append,
      filterMap_body?_errors]
    rfl

/-- Without errors there is nothing but frames, and blanks at the end. -/
theorem plain {signals : List Signal} {s : Bytes} (a : Account signals s)
    (h : ∀ e, .error e ∉ signals) :
    s = a.extracts.flatMap Extract.frame ++ a.last ∧ a.last.all Bytes.isBlank = true := by
  have silent (e : FramingError) : ¬ ((∃ x ∈ a.extracts, e ∈ x.errors) ∨ e ∈ a.errors) := by
    intro he
    refine h (.framing e) ?_
    rw [a.signals_eq, List.mem_append]
    rcases he with ⟨x, hx, he⟩ | he
    · left
      exact List.mem_flatMap.mpr ⟨x, hx, List.mem_append_left _ (List.mem_map_of_mem he)⟩
    · exact .inr (List.mem_map_of_mem he)
  have hframes : a.extracts.flatMap Extract.bytes = a.extracts.flatMap Extract.frame := by
    refine List.flatMap_congr fun x hx => ?_
    have hskipped := (a.sound x hx).reported
      (List.eq_nil_iff_forall_not_mem.mpr fun e he => silent e (.inl ⟨x, hx, he⟩))
    rw [Extract.bytes, hskipped, List.nil_append]
  refine ⟨?_, a.reported (List.eq_nil_iff_forall_not_mem.mpr fun e he => silent e (.inr he))⟩
  rw [← hframes]
  exact a.bytes_eq

theorem nonempty_of_passes {signal : Signal} {signals : List Signal} {s rest : Bytes}
    (h : Passes signal s rest) (hsignal : signal ≠ .done) (account : Account signals rest) :
    Nonempty (Account (signal :: signals) s) := by
  cases h with
  | body hheader hwell => exact ⟨account.body hheader hwell⟩
  | error e dropped => exact ⟨account.error e dropped⟩
  | done h => exact absurd rfl hsignal

end Account

namespace Reader

open Arrival (content Unbroken)

/-- The bytes that a reader has not passed yet. -/
def left (r : Reader) (input : List Arrival) : Bytes :=
  if r.ended then [] else r.buffer ++ content input

theorem left_of_ended {r : Reader} (h : r.ended = true) (input : List Arrival) :
    r.left input = [] := if_pos h

theorem left_of_buffer {r : Reader} (h : r.ended = false) (b : Bytes) (input : List Arrival) :
    left { r with buffer := b } input = b ++ content input := by
  simp [left, h]

theorem left_of_not_ended {r : Reader} (h : r.ended = false) (input : List Arrival) :
    r.left input = r.buffer ++ content input := left_of_buffer h r.buffer input

theorem passes_of_split {b : Bytes} {f : Frame} (h : Frame.split b = .ok (some f)) (more : Bytes) :
    Passes (.body f.body) (b ++ more) (b.drop f.consumed ++ more) := by
  obtain ⟨e, n, hd, hle, rfl⟩ := Frame.declares_of_split_some h
  have hlength : (Frame.cutAt b e n).body.length = n := by
    rw [Frame.cutAt, List.length_take, List.length_drop]
    omega
  have hwell : Header.WellFormed (b.take e) (Frame.cutAt b e n).body.length := by
    rw [hlength]
    exact Header.contentLength_eq_ok_iff.mp hd.length
  have hheader : (b.take e).length ≤ maxHeaderLength := by
    have := hd.end_le
    rw [List.length_take]
    omega
  rw [show b.drop (Frame.cutAt b e n).consumed = b.drop (e + Frame.terminator.length + n) from rfl]
  conv => arg 2; rw [hd.eq_append, List.append_assoc]
  exact .body hheader hwell

theorem passes_finish (r : Reader) : Passes r.finish.1 r.buffer [] := by
  unfold finish
  split
  · rename_i hblank
    exact .done hblank []
  · conv => arg 2; rw [← List.append_nil r.buffer]
    exact .error _ r.buffer []

/-- A signal that the buffer gives by itself. -/
theorem passes_of_signal? {r after : Reader} {signal : Signal} {log : List Log.Event}
    (h : r.signal? = some (signal, after, log)) (hr : r.Settled) (input : List Arrival) :
    Passes signal (r.left input) (after.left input) := by
  cases hended : r.ended with
  | true =>
    obtain ⟨-, -, hstill⟩ := finish_spec r
    unfold signal? at h
    rw [hr hended, Frame.split_nil] at h
    simp only [hended, if_true, Option.some.injEq, Prod.mk.injEq] at h
    have hfinish := passes_finish r
    rw [hr hended, h.1] at hfinish
    rw [left_of_ended hended, left_of_ended (by rw [← h.2.1, hstill, hended])]
    exact hfinish
  | false =>
    rw [left_of_not_ended hended]
    rcases signal?_cases h with ⟨f, hf, rfl, rfl⟩ | ⟨e, he, rfl, rfl⟩ | ⟨-, hopen, -, -⟩
    · rw [left_of_buffer hended]
      exact passes_of_split hf _
    · rw [left_of_buffer hended]
      conv =>
        arg 2
        rw [← List.take_append_drop (Frame.resync r.buffer) r.buffer, List.append_assoc]
      exact .error e _ _
    · rw [hended] at hopen
      cases hopen

/-- One call passes what its signal says. -/
theorem passes_next {input : List Arrival} {r : Reader} (hr : r.Settled) (hinput : Unbroken input)
    (hreads : ∀ reason, .failure reason ∉ input) :
    Passes (r.next input).signal (r.left input) ((r.next input).reader.left (r.next input).input) ∧
      ∀ reason, .failure reason ∉ (r.next input).input := by
  induction input generalizing r with
  | nil =>
    rw [next]
    split
    · rename_i signal after log h
      exact ⟨passes_of_signal? h hr [], hreads⟩
    · rename_i h
      obtain ⟨hended, -⟩ := split_of_signal?_eq_none h
      obtain ⟨-, -, hstill⟩ := finish_spec { r with ended := true }
      simp only [close]
      rw [left_of_not_ended hended, left_of_ended hstill, content, List.append_nil]
      exact ⟨passes_finish { r with ended := true }, hreads⟩
  | cons a rest ih =>
    obtain ⟨⟨b, bs, rfl⟩, hrest, hlater⟩ := Arrival.exists_bytes_of_cons hinput hreads
    unfold next
    split
    · rename_i signal after log h
      exact ⟨passes_of_signal? h hr (.bytes (b :: bs) :: rest), hreads⟩
    · rename_i h
      obtain ⟨hended, -⟩ := split_of_signal?_eq_none h
      have hgrown : r.left (.bytes (b :: bs) :: rest) =
          left { r with buffer := r.buffer ++ b :: bs } rest := by
        rw [left_of_not_ended hended, left_of_buffer hended, content, List.append_assoc]
      rw [hgrown]
      exact ih (fun he => by rw [hended] at he; cases he) hrest hlater

/-- What one call leaves of the stream has no break and no failure that was not there before. -/
theorem rest_next {input : List Arrival} {r : Reader} (hr : r.Settled) (hinput : Unbroken input)
    (hreads : ∀ reason, .failure reason ∉ input) :
    Unbroken (r.next input).input ∧ ∀ reason, .failure reason ∉ (r.next input).input :=
  ⟨(pending_next hr hinput).2.2.1, (passes_next hr hinput hreads).2⟩

theorem nonempty_account {r : Reader} {input : List Arrival} (hr : r.Settled)
    (hinput : Unbroken input) (hreads : ∀ reason, .failure reason ∉ input) :
    Nonempty (Account (r.signals input) (r.left input)) := by
  obtain ⟨hpasses, hlater⟩ := passes_next hr hinput hreads
  obtain ⟨-, hr', hinput', -⟩ := pending_next hr hinput
  rw [signals]
  split
  · rename_i hdone
    rw [hdone] at hpasses
    cases hpasses with
    | done h => exact ⟨.blank h⟩
  · rename_i hdone
    obtain ⟨account⟩ := nonempty_account hr' hinput' hlater
    exact Account.nonempty_of_passes hpasses hdone account
termination_by r.size input
decreasing_by exact size_next_lt ‹_›

/-- The bytes of a stream are its frames, with their headers, and parts that no frame has. Every
such part has an error between the bodies that it stands between, blanks at the end aside. -/
theorem exists_account {input : List Arrival} (hinput : Unbroken input)
    (hreads : ∀ reason, .failure reason ∉ input) :
    ∃ account : Account (signals {} input) (content input),
      bodies {} input = account.extracts.map Extract.body ∧
        ((∀ e, .error e ∉ signals {} input) →
          content input = account.extracts.flatMap Extract.frame ++ account.last ∧
            account.last.all Bytes.isBlank = true) := by
  have hr : Settled {} := fun h => by cases h
  obtain ⟨account⟩ := nonempty_account hr hinput hreads
  exact ⟨account, account.bodies_eq, account.plain⟩

/-- A header about something else is skipped, and so are blanks. -/
theorem exists_account_of_otherHeader :
    let input : List Arrival :=
      [.bytes (Bytes.ofText "Length: 2\r\n\r\nContent-"),
        .bytes (Bytes.ofText "Length: 2\r\n\r\n\x7b\x7d\r\n")]
    Unbroken input ∧ (∀ reason, .failure reason ∉ input) ∧
      ∃ account : Account (signals {} input) (content input),
        bodies {} input = account.extracts.map Extract.body ∧
          ((∀ e, .error e ∉ signals {} input) →
            content input = account.extracts.flatMap Extract.frame ++ account.last ∧
              account.last.all Bytes.isBlank = true) := by
  intro input
  have hinput : Unbroken input := by decide +kernel
  have hreads : ∀ reason, .failure reason ∉ input := by simp [input]
  exact ⟨hinput, hreads, exists_account hinput hreads⟩

end Reader

end LanguageServer
