import LanguageServer.Frame.Header

namespace LanguageServer

/-- A frame that stands at the start of some bytes. -/
structure Frame where
  body : Bytes
  /-- Header and body together. -/
  consumed : Nat
  deriving DecidableEq

namespace Frame

/-- Two ends of line in a row close a header. -/
def terminator : Bytes := [13, 10, 13, 10]

def headerName : Bytes := Bytes.ofText "content-length"

/-- The frame at the start of the buffer, or nothing as long as more bytes can make it one. -/
def split (buffer : Bytes) : Except FramingError (Option Frame) :=
  match Bytes.find terminator buffer with
  | none => if maxHeaderLength < buffer.length then .error .headerTooLarge else .ok none
  | some headerEnd =>
    if maxHeaderLength < headerEnd then .error .headerTooLarge
    else
      match Header.contentLength (buffer.take headerEnd) with
      | .error e => .error e
      | .ok length =>
        if maxBodyLength < length then .error (.bodyTooLarge length)
        else
          -- Header and body are within their limits here, so a word holds the sum.
          let start := headerEnd + terminator.length
          if buffer.length < start + length then .ok none
          else .ok (some ⟨(buffer.drop start).take length, start + length⟩)

/-- How much to drop after an error, so that reading goes on at the next name of the length
header. Bytes at the end that could begin the name stay, and one byte at least goes. -/
def resync (buffer : Bytes) : Nat :=
  match buffer with
  | [] => 0
  | _ :: rest =>
    match Bytes.findAnyCase headerName rest with
    | some i => i + 1
    | none => max (buffer.length - (headerName.length - 1)) 1

/-- The length of header and declared body, when the header is complete and sound and a word of 64
bits can hold that length. -/
def declaredLength? (buffer : Bytes) : Option Nat :=
  match Bytes.find terminator buffer with
  | none => none
  | some headerEnd =>
    match Header.contentLength (buffer.take headerEnd) with
    | .error _ => none
    | .ok length =>
      let total := headerEnd + terminator.length + length
      if total < Header.lengthBound then some total else none

/-- A body behind its header, as it is written. -/
def encode (body : Bytes) : Bytes :=
  Bytes.ofText s!"Content-Length: {body.length}\r\n\r\n" ++ body

theorem split_nil : split [] = .ok none := rfl

theorem resync_pos {buffer : Bytes} (h : buffer ≠ []) : 1 ≤ resync buffer := by
  cases buffer with
  | nil => exact absurd rfl h
  | cons b rest =>
    unfold resync
    dsimp only
    split <;> omega

theorem resync_le (buffer : Bytes) : resync buffer ≤ buffer.length := by
  cases buffer with
  | nil => exact Nat.le_refl 0
  | cons b rest =>
    unfold resync
    dsimp only
    split
    · rename_i i hi
      have := Bytes.findAnyCase_lt hi
      simp only [List.length_cons]
      omega
    · simp only [List.length_cons]
      omega

/-- A frame takes its header and terminator at least, and never more than is there. -/
theorem consumed_of_split {buffer : Bytes} {f : Frame} (h : split buffer = .ok (some f)) :
    terminator.length + f.body.length ≤ f.consumed ∧ f.consumed ≤ buffer.length := by
  unfold split at h
  split at h
  · split at h <;> cases h
  · split at h
    · cases h
    · split at h
      · cases h
      · split at h
        · cases h
        · dsimp only at h
          split at h
          · cases h
          · cases h
            simp only [List.length_take, List.length_drop]
            omega

theorem consumed_pos {buffer : Bytes} {f : Frame} (h : split buffer = .ok (some f)) :
    0 < f.consumed := by
  have hle := (consumed_of_split h).1
  simp only [terminator, List.length_cons] at hle
  omega

theorem ne_nil_of_split_error {buffer : Bytes} {e : FramingError} (h : split buffer = .error e) :
    buffer ≠ [] := by
  rintro rfl
  cases h

end Frame

end LanguageServer
