import LanguageServer.Proofs.Frame.Refused
import LanguageServer.Proofs.Stream.Noise
import LanguageServer.Proofs.Transport.Written

namespace LanguageServer

namespace Frame

/-- A read that ends at `c` ends inside the terminator of the block, but further on than the
longest header goes. -/
def Outgrows (h : Bytes) (c : Nat) : Prop :=
  maxHeaderLength < c ∧ c < h.length + terminator.length

/-- A read that ends at `c` ends behind the block, but so close behind it that a part of the block
is kept for the start of a name. -/
def Retains (h : Bytes) (c : Nat) : Prop :=
  h ≠ [] ∧ h.length + terminator.length ≤ c ∧ c < h.length + headerName.length

instance (h : Bytes) (c : Nat) : Decidable (Outgrows h c) := inferInstanceAs (Decidable (_ ∧ _))

instance (h : Bytes) (c : Nat) : Decidable (Retains h c) := inferInstanceAs (Decidable (_ ∧ _))

end Frame

namespace Reader

open Arrival (content readEnds Unbroken)
open LanguageServer.Frame (InnerName NoneLater Outgrows Refused Retains encode headerName resync
  terminator)

variable {r : Reader} {input : List Arrival} {h s w : Bytes} {e : FramingError} {c d : Nat}

theorem le_length_of_mem_readEnds {n : Nat} (hc : c ∈ readEnds n input) :
    c ≤ n + (content input).length := by
  induction input generalizing n with
  | nil => exact (List.mem_singleton.mp hc).le
  | cons a rest ih =>
    cases a with
    | bytes b =>
      rw [content, List.length_append]
      rcases List.mem_cons.mp hc with rfl | hc
      · omega
      · have := ih hc
        omega
    | failure reason => exact ih hc

theorem next_of_split_error {error : FramingError} (hsplit : Frame.split r.buffer = .error error)
    (input : List Arrival) :
    (r.next input).signal = .error (.framing error) ∧
      (r.next input).reader = { r with buffer := r.buffer.drop (resync r.buffer) } ∧
        (r.next input).input = input := by
  unfold next signal?
  rw [hsplit]
  exact ⟨rfl, rfl, rfl⟩

/-- Blanks at the end are given up without an error. -/
theorem next_of_blank (hblank : s.all Bytes.isBlank = true)
    (hfind : Bytes.find terminator s = none) (hlen : s.length ≤ maxHeaderLength)
    (hended : r.ended = false) (hinput : Unbroken input)
    (hreads : ∀ reason, .failure reason ∉ input) (hs : r.buffer ++ content input = s) :
    (r.next input).signal = .done := by
  induction input generalizing r with
  | nil =>
    rw [content, List.append_nil] at hs
    rw [next, signal?_of_wait (by rw [Frame.split_of_find_none (hs ▸ hfind), hs, if_neg (by omega)])
      hended]
    simp [close, finish, hs, hblank]
  | cons a rest ih =>
    have hfind' := Frame.find_terminator_of_append (hs ▸ hfind)
    have hwait : r.signal? = none := by
      apply signal?_of_wait ?_ hended
      rw [Frame.split_of_find_none hfind', if_neg]
      rw [← hs, List.length_append] at hlen
      omega
    obtain ⟨⟨b, bs, rfl⟩, hrest, hlater⟩ := Arrival.exists_bytes_of_cons hinput hreads
    rw [next_of_bytes hwait]
    refine ih hended hrest hlater ?_
    rw [← hs, content, List.append_assoc]

/-- The end of a terminator does not change what frames behind it give. -/
theorem signals_of_drop_terminator {bodies : List Bytes} (hd : 1 ≤ d)
    (hbodies : ∀ b ∈ bodies, b.length ≤ maxBodyLength) (hended : r.ended = false)
    (hinput : Unbroken input) (hreads : ∀ reason, .failure reason ∉ input)
    (hs : r.buffer ++ content input = terminator.drop d ++ bodies.flatMap encode) :
    r.signals input = bodies.map .body := by
  have hmax : maxHeaderLength = 8192 := rfl
  have hterm := Frame.length_terminator
  have hdrop : (terminator.drop d).length ≤ 3 := by
    rw [List.length_drop]
    omega
  cases bodies with
  | nil =>
    rw [List.flatMap_nil, List.append_nil] at hs
    apply signals_of_done
    refine next_of_blank ?_ (Frame.find_terminator_drop_terminator hd) (by omega) hended hinput
      hreads hs
    exact List.all_eq_true.mpr fun x hx =>
      List.all_eq_true.mp (show terminator.all Bytes.isBlank = true by decide) x
        (List.mem_of_mem_drop hx)
  | cons body bodies =>
    have hbody := hbodies body List.mem_cons_self
    have hshort := Header.length_ofLength_le 1 hbody
    obtain ⟨hinput', hreads'⟩ := rest_next (settled_of_not_ended hended) hinput hreads
    rw [List.flatMap_cons] at hs
    obtain ⟨hsignal, hended', hmore⟩ := next_of_frame
      (Frame.split_drop_terminator hd hbody (bodies.flatMap encode))
      (Frame.declares_drop_terminator hd hbody (bodies.flatMap encode)).find (by omega)
      hended hinput hreads hs
    rw [← List.drop_drop, List.drop_left, List.drop_left] at hmore
    rw [signals_of_signal hsignal (by simp),
      signals_of_encode (fun b hb => hbodies b (List.mem_cons_of_mem _ hb)) hended' hinput'
        hreads' hmore]
    rfl

/-- One call refuses the block when a read that ends at `c` has brought it, and keeps what
`Frame.resync` says of what has been read by then. -/
structure RefusesAt (s : Bytes) (e : FramingError) (c : Nat) (reading : Reading) : Prop where
  signal : reading.signal = .error (.framing e)
  ended : reading.reader.ended = false
  buffer : reading.reader.buffer = (s.take c).drop (resync (s.take c))
  rest : content reading.input = s.drop c

theorem RefusesAt.kept {reading : Reading} (hat : RefusesAt s e c reading) :
    reading.reader.buffer ++ content reading.input = s.drop (resync (s.take c)) := by
  have hle := Frame.resync_le (s.take c)
  rw [hat.buffer, hat.rest, ← List.drop_append_of_le_length hle, List.take_append_drop]

/-- What the first call makes of a block: a read ends where the block outgrows a header, or the
first read that brings the block to its end has it refused. -/
inductive Refusal (h w : Bytes) (e : FramingError) (ends : List Nat) (reading : Reading) : Prop where
  | outgrown {c : Nat} (hc : c ∈ ends) (hout : Outgrows h c)
      (signal : reading.signal = .error (.framing .headerTooLarge))
  | refused {c : Nat} (hnone : ∀ c' ∈ ends, ¬ Outgrows h c') (hc : c ∈ ends)
      (hge : h.length + terminator.length ≤ c)
      (hfirst : ∀ c' ∈ ends, h.length + terminator.length ≤ c' → c ≤ c')
      (hat : RefusesAt (h ++ terminator ++ w) e c reading)

/-- A read that ends inside the block, before it outgrows a header, does not matter. -/
theorem Refusal.cons {ends : List Nat} {reading : Reading} (hr : Refusal h w e ends reading)
    (hlt : c < h.length + terminator.length) (hle : c ≤ maxHeaderLength) :
    Refusal h w e (c :: ends) reading := by
  cases hr with
  | outgrown hc hout signal => exact .outgrown (List.mem_cons_of_mem _ hc) hout signal
  | refused hnone hc hge hfirst hat =>
    refine .refused ?_ (List.mem_cons_of_mem _ hc) hge ?_ hat
    · intro c' hc' hout
      rcases List.mem_cons.mp hc' with rfl | hc'
      · have := hout.1
        omega
      · exact hnone c' hc' hout
    · intro c' hc' hge'
      rcases List.mem_cons.mp hc' with rfl | hc'
      · omega
      · exact hfirst c' hc' hge'

theorem take_block (hc : h.length + terminator.length ≤ c) : (h ++ terminator ++ w).take c =
    h ++ terminator ++ w.take (c - (h.length + terminator.length)) := by
  rw [List.take_append, List.take_of_length_le (by rw [List.length_append]; omega),
    List.length_append]

/-- A block that is all there is refused at once. -/
theorem refusal_of_le (hh : Refused h e) (hended : r.ended = false)
    (hs : r.buffer ++ content input = h ++ terminator ++ w)
    (hge : h.length + terminator.length ≤ r.buffer.length) :
    Refusal h w e (readEnds r.buffer.length input) (r.next input) := by
  have htake : (h ++ terminator ++ w).take r.buffer.length = r.buffer := by
    rw [← hs, List.take_left]
  have hsplit : Frame.split r.buffer = .error e := by
    rw [← htake, take_block hge]
    exact hh.split_append _
  obtain ⟨hsignal, hreader, hrest⟩ := next_of_split_error hsplit input
  refine .refused ?_ (Arrival.self_mem_readEnds _ input) hge
    (fun c' hc' _ => Arrival.le_of_mem_readEnds hc') ?_
  · intro c hc hout
    have := Arrival.le_of_mem_readEnds hc
    have := hout.2
    omega
  · constructor
    · exact hsignal
    · rw [hreader]
      exact hended
    · rw [hreader, htake]
    · rw [hrest, ← hs, List.drop_left]

theorem refusal_next (hh : Refused h e) (hended : r.ended = false) (hinput : Unbroken input)
    (hreads : ∀ reason, .failure reason ∉ input)
    (hs : r.buffer ++ content input = h ++ terminator ++ w) :
    Refusal h w e (readEnds r.buffer.length input) (r.next input) := by
  induction input generalizing r with
  | nil =>
    apply refusal_of_le hh hended hs
    rw [content, List.append_nil] at hs
    rw [hs, List.length_append, List.length_append]
    omega
  | cons a rest ih =>
    rcases Nat.lt_or_ge r.buffer.length (h.length + terminator.length) with hlt | hge
    · have hsplit := Frame.split_of_find_none (hh.find_prefix hs hlt)
      rcases Nat.lt_or_ge maxHeaderLength r.buffer.length with hlong | hshort
      · rw [if_pos hlong] at hsplit
        exact .outgrown (Arrival.self_mem_readEnds _ _) ⟨hlong, hlt⟩
          (next_of_split_error hsplit _).1
      · rw [if_neg (by omega)] at hsplit
        obtain ⟨⟨b, bs, rfl⟩, hrest, hlater⟩ := Arrival.exists_bytes_of_cons hinput hreads
        rw [next_of_bytes (signal?_of_wait hsplit hended), readEnds, ← List.length_append]
        refine Refusal.cons ?_ hlt hshort
        apply ih (r := { r with buffer := r.buffer ++ b :: bs }) hended hrest hlater
        rw [← hs, content, List.append_assoc]
    · exact refusal_of_le hh hended hs hge

theorem signals_ne_of_split_error {error : FramingError}
    (hsplit : Frame.split r.buffer = .error error) (input : List Arrival) (bodies : List Bytes) :
    r.signals input ≠ bodies.map .body := by
  rw [signals_of_signal (next_of_split_error hsplit input).1 (by simp)]
  cases bodies <;> simp

/-- A header block before the frame of an empty body does not give that body and nothing else. If it
is not refused, it takes the frame, or bytes of it, for a body of its own. -/
theorem signals_ne_of_find {g : Bytes} (hended : r.ended = false) (hinput : Unbroken input)
    (hfind : Bytes.find terminator r.buffer = some g.length)
    (hs : r.buffer ++ content input = g ++ terminator ++ encode []) :
    r.signals input ≠ [.body []] := by
  intro heq
  cases hsplit : Frame.split r.buffer with
  | error error => exact signals_ne_of_split_error hsplit input [[]] heq
  | ok f =>
    rcases Frame.declares_of_split_ok hsplit with ⟨hnone, -⟩ | ⟨i, n, hd⟩
    · rw [hnone] at hfind
      cases hfind
    · have hi := hd.find
      rw [hfind] at hi
      cases hi
      have hends : ∀ c ∈ readEnds r.buffer.length input, r.buffer.length ≤ c :=
        fun c hc => Arrival.le_of_mem_readEnds hc
      have hbodies : r.bodies input = [[]] := by
        rw [Reader.bodies, heq]
        rfl
      have hframe : (r.buffer ++ content input).drop (g.length + terminator.length) =
          encode [] ++ [] := by
        rw [hs, List.drop_left' List.length_append, List.append_nil]
      rw [bodies_eq_pending (settled_of_not_ended hended) hinput, pending,
        if_neg (by rw [hended]; simp),
        Stream.bodies_of_declares (hd.append _) (not_overruns hd.find hends), hframe] at hbodies
      split at hbodies
      · cases hbodies
      · obtain ⟨hbody, hlater⟩ := List.cons.inj hbodies
        rcases List.take_eq_nil_iff.mp hbody with rfl | hnil
        · rw [Nat.add_zero, hframe, Stream.bodies_encode_append (Nat.zero_le _)] at hlater
          cases hlater
        · exact Frame.ne_nil_of_startsName (Frame.startsName_encode [] []) hnil

/-- Reads that bring a block and then frames as they are written. -/
structure Brings (input : List Arrival) (h : Bytes) (bodies : List Bytes) : Prop where
  unbroken : Unbroken input
  reads : ∀ reason, .failure reason ∉ input
  content : content input = h ++ terminator ++ bodies.flatMap encode
  bodies : ∀ b ∈ bodies, b.length ≤ maxBodyLength

namespace Brings

variable {bodies : List Bytes}

theorem refusal (hin : Brings input h bodies) (hh : Refused h e) :
    Refusal h (bodies.flatMap encode) e (readEnds 0 input) (next {} input) :=
  refusal_next (r := {}) hh rfl hin.unbroken hin.reads hin.content

theorem rest_next (hin : Brings input h bodies) :
    Unbroken (next {} input).input ∧ ∀ reason, .failure reason ∉ (next {} input).input :=
  Reader.rest_next (settled_of_not_ended rfl) hin.unbroken hin.reads

theorem atName (hin : Brings input h bodies) : Frame.AtName (bodies.flatMap encode) := by
  cases bodies with
  | nil => exact .inl rfl
  | cons body bodies =>
    rw [List.flatMap_cons]
    exact .inr (Frame.startsName_encode body _)

theorem le_length (hin : Brings input h bodies) (hc : c ∈ readEnds 0 input) :
    c ≤ (h ++ terminator ++ bodies.flatMap encode).length := by
  have hle := le_length_of_mem_readEnds hc
  rwa [Nat.zero_add, hin.content] at hle

/-- When a part of the block is kept, it still has the end of the block, and is refused for a second
time. -/
theorem signals_next_ne (hin : Brings input h bodies) (hh : Refused h e) (hnone : NoneLater h)
    (hc : c ∈ readEnds 0 input) (hretains : Retains h c)
    (hat : RefusesAt (h ++ terminator ++ bodies.flatMap encode) e c (next {} input)) :
    (next {} input).reader.signals (next {} input).input ≠ bodies.map .body := by
  obtain ⟨hnonempty, hge, hlt⟩ := hretains
  have hname := Frame.length_headerName
  have hresync := Frame.resync_take_block hnone hin.atName hge (hin.le_length hc)
  have hlength := List.length_pos_iff.mpr hnonempty
  obtain ⟨error, herror⟩ := Frame.exists_split_drop_block hh hnone
    (i := resync ((h ++ terminator ++ bodies.flatMap encode).take c)) (by omega) (by omega)
    ((bodies.flatMap encode).take (c - (h.length + terminator.length)))
  rw [← take_block hge, ← hat.buffer] at herror
  exact signals_ne_of_split_error herror _ _

/-- When no part of the block is kept, nothing is but an end of its terminator. -/
theorem signals_next_eq (hin : Brings input h bodies) (hnone : NoneLater h)
    (hc : c ∈ readEnds 0 input) (hge : h.length + terminator.length ≤ c)
    (hretains : ¬ Retains h c)
    (hat : RefusesAt (h ++ terminator ++ bodies.flatMap encode) e c (next {} input)) :
    (next {} input).reader.signals (next {} input).input = bodies.map .body := by
  have hname := Frame.length_headerName
  have hterm := Frame.length_terminator
  have hresync := Frame.resync_take_block hnone hin.atName hge (hin.le_length hc)
  have hroom : h.length < max (c - (headerName.length - 1)) 1 := by
    by_cases hnil : h = []
    · rw [hnil, List.length_nil]
      omega
    · have : h.length + headerName.length ≤ c := by
        by_contra hlt
        exact hretains ⟨hnil, hge, by omega⟩
      omega
  obtain ⟨d, hd⟩ : ∃ d, resync ((h ++ terminator ++ bodies.flatMap encode).take c) =
      h.length + d := ⟨_, (Nat.add_sub_cancel' (by omega)).symm⟩
  have hleft := hat.kept
  rw [hd, List.append_assoc, ← List.drop_drop, List.drop_left,
    List.drop_append_of_le_length (by omega)] at hleft
  exact signals_of_drop_terminator (by omega) hin.bodies hat.ended hin.rest_next.1
    hin.rest_next.2 hleft

/-- A block without a further name is reported once, and the frames behind it come, as long as no
read ends where the block outgrows a header or where a part of it is kept. -/
theorem signals_iff (hin : Brings input h bodies) (hh : Refused h e) (hnone : NoneLater h) :
    signals {} input = .error (.framing e) :: bodies.map .body ↔
      ∀ c ∈ readEnds 0 input, ¬ Outgrows h c ∧ ¬ Retains h c := by
  cases hin.refusal hh with
  | outgrown hc hout hsignal =>
    rw [signals_of_signal hsignal (by simp)]
    constructor
    · intro heq
      cases (List.cons.inj heq).1
      exact absurd rfl hh.ne_headerTooLarge
    · intro hall
      exact absurd hout (hall _ hc).1
  | @refused c hnot hc hge hfirst hat =>
    rw [signals_of_signal hat.signal (by simp)]
    constructor
    · intro heq c' hc'
      refine ⟨hnot c' hc', fun hretains => ?_⟩
      obtain ⟨hnonempty, hge', hlt⟩ := hretains
      -- The read that has the block refused ends no later than this one.
      have hretains' : Retains h c := ⟨hnonempty, hge, (hfirst c' hc' hge').trans_lt hlt⟩
      exact hin.signals_next_ne hh hnone hc hretains' hat (List.cons.inj heq).2
    · intro hall
      rw [hin.signals_next_eq hnone hc hge (hall c hc).2 hat]

variable {k : Nat}

/-- After a block with a further name, reading goes on inside the block. -/
theorem exists_after (hin : Brings input h bodies) (hh : Refused h e) (hk : InnerName h k)
    (hnot : ∀ c ∈ readEnds 0 input, ¬ Outgrows h c) :
    ∃ (after : Reader) (rest : List Arrival),
      signals {} input = .error (.framing e) :: after.signals rest ∧
        after.left rest = h.drop k ++ terminator ++ bodies.flatMap encode := by
  cases hin.refusal hh with
  | outgrown hc hout hsignal => exact absurd hout (hnot _ hc)
  | refused hnot hc hge hfirst hat =>
    refine ⟨_, _, signals_of_signal hat.signal (by simp), ?_⟩
    have hroom := hk.room
    rw [left_of_not_ended hat.ended, hat.kept, take_block hge, List.append_assoc,
      hk.resync_append, List.append_assoc, List.drop_append_of_le_length (by omega),
      List.append_assoc]

/-- The frame of an empty body does not come as it should after a block with a further name. -/
theorem signals_ne (hin : Brings input h [[]]) (hh : Refused h e) (hk : InnerName h k) :
    signals {} input ≠ [.error (.framing e), .body []] := by
  intro heq
  cases hin.refusal hh with
  | outgrown hc hout hsignal =>
    rw [signals_of_signal hsignal (by simp)] at heq
    cases (List.cons.inj heq).1
    exact absurd rfl hh.ne_headerTooLarge
  | @refused c hnot hc hge hfirst hat =>
    rw [signals_of_signal hat.signal (by simp)] at heq
    have hroom := hk.room
    have hlength : (h.drop k).length = h.length - k := List.length_drop
    refine signals_ne_of_find (g := h.drop k) hat.ended hin.rest_next.1 ?_ ?_
      (List.cons.inj heq).2
    · rw [hat.buffer, take_block hge, List.append_assoc, hk.resync_append, ← List.append_assoc,
        hlength]
      exact Frame.find_terminator_drop (hh.find_append _) (by omega)
    · rw [hat.kept, take_block hge, List.append_assoc, hk.resync_append, List.append_assoc,
        List.drop_append_of_le_length (by omega), List.append_assoc]
      rfl

end Brings

/-- What comes of a header block that is refused, with frames behind it. A block without a further
name is reported once, and every frame behind it comes, exactly when no read ends where the block
outgrows a header or where a part of it is kept. A block with a further name is read from there on
as if nothing had been refused, and the frame of an empty body never comes as it should. -/
theorem signals_of_refused {h : Bytes} {e : FramingError} (hh : Refused h e) :
    (NoneLater h → ∀ bodies input, Brings input h bodies →
      (signals {} input = .error (.framing e) :: bodies.map .body ↔
        ∀ c ∈ readEnds 0 input, ¬ Outgrows h c ∧ ¬ Retains h c)) ∧
    (¬ NoneLater h → ∃ k, InnerName h k ∧
      (∀ bodies input, Brings input h bodies → (∀ c ∈ readEnds 0 input, ¬ Outgrows h c) →
        ∃ (after : Reader) (rest : List Arrival),
          signals {} input = .error (.framing e) :: after.signals rest ∧
            after.left rest = h.drop k ++ terminator ++ bodies.flatMap encode) ∧
      ∀ input, Brings input h [[]] → signals {} input ≠ [.error (.framing e), .body []]) := by
  constructor
  · intro hnone bodies input hin
    exact hin.signals_iff hh hnone
  · intro hlater
    obtain ⟨k, hk⟩ := Frame.exists_innerName hlater
    refine ⟨k, hk, ?_, ?_⟩
    · intro bodies input hin hnot
      exact hin.exists_after hh hk hnot
    · intro input hin
      exact hin.signals_ne hh hk

/-- A length that is no number is refused once when the next header has come with it, and not
otherwise. A second length in the same block makes the rest of the block a header of its own. -/
theorem signals_of_refused_notNumber :
    let h := Bytes.ofText "Content-Length: nope"
    let e := FramingError.invalidContentLength "nope"
    let body := Bytes.ofText "\x7b\x7d"
    Refused h e ∧
      signals {} [.bytes (h ++ terminator ++ encode body)] = [.error (.framing e), .body body] ∧
      signals {} [.bytes (h ++ terminator), .bytes (encode body)] ≠
        [.error (.framing e), .body body] ∧
      Refused (h ++ Bytes.ofText "\r\nContent-Length: 2") e ∧
      signals {} [.bytes (h ++ Bytes.ofText "\r\nContent-Length: 2" ++ terminator ++ encode [])] ≠
        [.error (.framing e), .body []] := by
  intro h e body
  have hh : Refused h e := by
    constructor <;> decide +kernel
  have hh' : Refused (h ++ Bytes.ofText "\r\nContent-Length: 2") e := by
    constructor <;> decide +kernel
  have hnone : NoneLater h := by decide +kernel
  have hlater : ¬ NoneLater (h ++ Bytes.ofText "\r\nContent-Length: 2") := by decide +kernel
  have brings {input : List Arrival} {g : Bytes} {b : Bytes} (hunbroken : Unbroken input)
      (hreads : ∀ reason, .failure reason ∉ input)
      (hcontent : content input = g ++ terminator ++ encode b) (hb : b.length ≤ maxBodyLength) :
      Brings input g [b] :=
    ⟨hunbroken, hreads, by simpa using hcontent, by simpa using hb⟩
  refine ⟨hh, ?_, ?_, hh', ?_⟩
  · refine ((signals_of_refused hh).1 hnone [body] _ ?_).mpr (by decide +kernel)
    exact brings (by decide +kernel) (by simp) (by decide +kernel) (by decide +kernel)
  · intro heq
    refine absurd (((signals_of_refused hh).1 hnone [body] _ ?_).mp heq) (by decide +kernel)
    exact brings (by decide +kernel) (by simp) (by decide +kernel) (by decide +kernel)
  · obtain ⟨k, -, -, hne⟩ := (signals_of_refused hh').2 hlater
    apply hne
    exact brings (by decide +kernel) (by simp) (by decide +kernel) (by decide +kernel)

end Reader

end LanguageServer
