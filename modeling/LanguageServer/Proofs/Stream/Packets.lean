import LanguageServer.Proofs.Stream.Noise

namespace LanguageServer

open LanguageServer.Frame (AtName NoneLater startsName terminator)

/-- A body behind a header of any kind. -/
structure Packet where
  header : Bytes
  body : Bytes

namespace Packet

def bytes (p : Packet) : Bytes := p.header ++ terminator ++ p.body

/-- The header begins with the name, is not too long and declares the body, and no other name
occurs. -/
structure Sound (p : Packet) : Prop where
  find : Bytes.find terminator (p.header ++ terminator) = some p.header.length
  header_le : p.header.length ≤ maxHeaderLength
  length : Header.contentLength p.header = .ok p.body.length
  body_le : p.body.length ≤ maxBodyLength
  first : startsName p.header = true
  later : NoneLater p.bytes

/-- Whether one of the reads, which end at `ends`, ends inside the terminator of a packet at the
start, but further on than the longest header goes. -/
def isDivided (p : Packet) (ends : List Nat) : Bool :=
  ends.any fun c => maxHeaderLength < c && c < p.header.length + terminator.length

def survivors (ends : List Nat) : List Packet → List Bytes
  | [] => []
  | p :: rest =>
    (if p.isDivided ends then [] else [p.body]) ++
      survivors (Stream.shift p.bytes.length ends) rest

variable {p : Packet} {packets : List Packet} {ends : List Nat}

theorem length_bytes (p : Packet) :
    p.bytes.length = p.header.length + terminator.length + p.body.length := by
  rw [bytes, List.length_append, List.length_append]

theorem Sound.startsName_append (h : p.Sound) (more : Bytes) :
    startsName (p.bytes ++ more) = true := by
  rw [bytes, List.append_assoc, List.append_assoc]
  exact Frame.ofFirst_startsName.append h.first _

theorem Sound.declares (h : p.Sound) (more : Bytes) :
    Frame.Declares (p.bytes ++ more) p.header.length p.body.length := by
  refine ⟨?_, h.header_le, ?_, h.body_le⟩
  · rw [bytes, List.append_assoc]
    exact Frame.find_terminator_append h.find _
  · rw [bytes, List.append_assoc, List.append_assoc, List.take_left]
    exact h.length

theorem overruns_eq_isDivided (h : p.Sound) (more : Bytes) :
    Stream.overruns ends (p.bytes ++ more) = p.isDivided ends := by
  rw [Stream.overruns_of_find (h.declares more).find]
  rfl

theorem atName_flatMap (h : ∀ p ∈ packets, p.Sound) : AtName (packets.flatMap bytes) := by
  cases packets with
  | nil => exact .inl rfl
  | cons p rest =>
    have hp : p.Sound := h p List.mem_cons_self
    exact .inr (hp.startsName_append _)

/-- A packet that is divided is lost, and any other is read. -/
theorem bodies_append (h : p.Sound) {more : Bytes} (hmore : AtName more) :
    Stream.bodies ends (p.bytes ++ more) = (if p.isDivided ends then [] else [p.body]) ++
      Stream.bodies (Stream.shift p.bytes.length ends) more := by
  have hover : Stream.overruns ends (p.bytes ++ more) = p.isDivided ends :=
    overruns_eq_isDivided h more
  cases hdivided : p.isDivided ends with
  | true =>
    have hne : p.bytes ≠ [] := by simp [bytes, terminator]
    have hverdict : Stream.verdict ends (p.bytes ++ more) = .error .headerTooLarge :=
      Stream.verdict_of_overruns (hover.trans hdivided)
    rw [Stream.bodies_append_of_error hverdict hne h.later hmore]
    rfl
  | false =>
    have hbody : ((p.bytes ++ more).drop (p.header.length + terminator.length)).take
        p.body.length = p.body := by
      rw [bytes, List.append_assoc, List.drop_left' (by rw [List.length_append]),
        List.take_left]
    rw [Stream.bodies_of_declares (h.declares more) (hover.trans hdivided), if_neg, hbody,
      ← length_bytes, List.drop_left]
    · rfl
    · rw [← length_bytes, List.length_append]
      omega

theorem bodies_flatMap (h : ∀ p ∈ packets, p.Sound) (ends : List Nat) :
    Stream.bodies ends (packets.flatMap bytes) = survivors ends packets := by
  induction packets generalizing ends with
  | nil => exact Stream.bodies_of_wait rfl
  | cons p rest ih =>
    have hp : p.Sound := h p List.mem_cons_self
    have hrest : ∀ q ∈ rest, q.Sound := fun q hq => h q (List.mem_cons_of_mem p hq)
    rw [List.flatMap_cons, bodies_append hp (atName_flatMap hrest), ih hrest]
    rfl

/-- A packet with `k` spaces before the number in its header. -/
def spaced (k : Nat) (body : Bytes) : Packet :=
  ⟨Bytes.ofChars (Header.ofLength k body.length), body⟩

theorem noneLater_spaced {k : Nat} {body : Bytes} (h : ∀ y ∈ body, Bytes.lower y ≠ 99) :
    NoneLater (spaced k body).bytes := by
  have hbyte : ∀ m < 128, m ≠ 67 → m ≠ 99 → Bytes.lower (UInt8.ofNat m) ≠ 99 := by decide
  have hname : ∀ c ∈ Header.writtenName.tail, c.toNat < 128 ∧ c.toNat ≠ 67 ∧ c.toNat ≠ 99 := by
    simp [Header.writtenName_eq]
  have hchar : ∀ c ∈ Header.writtenName.tail ++ (List.replicate k ' ' ++
      Nat.toDigits 10 body.length), c.toNat < 128 ∧ c.toNat ≠ 67 ∧ c.toNat ≠ 99 := by
    intro c hc
    simp only [List.mem_append, List.mem_replicate] at hc
    rcases hc with hc | ⟨-, rfl⟩ | hc
    · exact hname c hc
    · decide
    · have := Header.toNat_of_mem_toDigits hc
      omega
  have hend : ∀ y ∈ terminator, Bytes.lower y ≠ 99 := by simp [terminator, Bytes.lower]
  have hbytes : (spaced k body).bytes = 67 :: (((Header.writtenName.tail ++ (List.replicate k ' ' ++
      Nat.toDigits 10 body.length)).map fun c => UInt8.ofNat c.toNat) ++ terminator ++ body) := by
    rw [bytes, spaced, Header.ofChars_ofLength, Header.ofLength, Header.writtenName_eq]
    rfl
  rw [hbytes]
  apply Frame.noneLater_cons
  intro y hy
  simp only [List.mem_append, List.mem_map] at hy
  rcases hy with (⟨c, hc, rfl⟩ | hy) | hy
  · obtain ⟨hlt, hne, hne'⟩ := hchar c (by simpa using hc)
    exact hbyte _ hlt hne hne'
  · exact hend y hy
  · exact h y hy

theorem sound_spaced {k : Nat} {body : Bytes}
    (hheader : (spaced k body).header.length ≤ maxHeaderLength)
    (hbody : body.length ≤ maxBodyLength) (h : ∀ y ∈ body, Bytes.lower y ≠ 99) :
    (spaced k body).Sound where
  find := by
    have := Frame.find_terminator_ofLength k body.length []
    rwa [List.append_nil] at this
  header_le := hheader
  length := Header.contentLength_ofLength k (hbody.trans_lt (by decide))
  body_le := hbody
  first := Frame.startsName_ofLength k body.length
  later := noneLater_spaced h

end Packet

end LanguageServer
