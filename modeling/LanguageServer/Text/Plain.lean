import LanguageServer.Bytes

namespace LanguageServer.Text

/-- Where a terminal is while it reads its input. -/
inductive Terminal where
  /-- What comes is shown. -/
  | ground
  /-- After an escape. -/
  | escape
  /-- In an escape sequence with a middle part. -/
  | designation
  /-- In a control sequence. -/
  | control
  /-- In a command for the operating system, which a bell can end. -/
  | command
  /-- Before the parameters of a string for a device. -/
  | device
  /-- In the parameters of a string for a device. -/
  | parameters
  /-- In the middle part of a string for a device. -/
  | intermediate
  /-- In a string, which the byte of a terminator can end. -/
  | string
  deriving DecidableEq

namespace Terminal

/-- A control that no sequence can hold and that leaves a trace on the screen. -/
def isSpacing (c : Char) : Bool := c = '\t' || c = '\n' || c = '\x0c' || c = '\r'

/-- What a byte after an escape begins. -/
def afterEscape (b : UInt8) : Terminal :=
  if 0x20 ≤ b && b < 0x30 then .designation
  else if b = 0x5B then .control
  else if b = 0x5D then .command
  else if b = 0x50 then .device
  else if b = 0x58 || b = 0x5E || b = 0x5F then .string
  else if 0x30 ≤ b && b < 0x7F then .ground
  else .escape

/-- The terminal after a byte before the text of a string for a device, where it has come to `t`.
What is out of place is taken for the text. -/
def afterDevice (t : Terminal) (b : UInt8) : Terminal :=
  if 0x20 ≤ b && b < 0x30 then .intermediate
  else if 0x30 ≤ b && b < 0x40 then
    if t = .device || (t = .parameters && b < 0x3C) then .parameters else .string
  else if 0x40 ≤ b && b < 0x7F then .string
  else t

/-- The terminal after a byte that it does not show. An escape always begins a sequence, and a
cancel or a substitute always ends one. -/
def next (t : Terminal) (b : UInt8) : Terminal :=
  if b = 0x1B then .escape
  else if b = 0x18 || b = 0x1A then .ground
  else
    match t with
    | .ground => .ground
    | .escape => afterEscape b
    | .designation => if 0x30 ≤ b && b < 0x7F then .ground else .designation
    | .control => if 0x40 ≤ b && b < 0x7F then .ground else .control
    | .command => if b = 7 then .ground else .command
    | .device => afterDevice .device b
    | .parameters => afterDevice .parameters b
    | .intermediate => afterDevice .intermediate b
    | .string => if b = 0x9C then .ground else .string

/-- The terminal after a character that it does not show. It knows bytes only, so that a character
may end a string in its midst. -/
def pass (t : Terminal) (c : Char) : Terminal := (String.utf8EncodeChar c).foldl next t

/-- Whether a character is shown. -/
def shows : Terminal → Char → Bool
  | .ground, c => isSpacing c || (' ' ≤ c && c ≠ '\x7f')
  | .escape, c => isSpacing c
  | .designation, c => isSpacing c
  | .control, c => isSpacing c
  | _, _ => false

/-- The characters that are shown. Showing anything ends a sequence. -/
def shown : Terminal → List Char → List Char
  | _, [] => []
  | t, c :: cs => if t.shows c then c :: shown .ground cs else shown (t.pass c) cs

theorem shows_ground {t : Terminal} {c : Char} (h : t.shows c = true) :
    ground.shows c = true := by
  cases t <;> simp_all [shows]

/-- Everything that is shown is seen without a sequence before it. -/
theorem shows_of_mem_shown {t : Terminal} {c : Char} {cs : List Char} (h : c ∈ shown t cs) :
    ground.shows c = true := by
  induction cs generalizing t with
  | nil => cases h
  | cons d cs ih =>
    unfold shown at h
    split at h
    · rename_i hd
      rcases List.mem_cons.mp h with rfl | h
      · exact shows_ground hd
      · exact ih h
    · exact ih h

/-- A text without anything that a terminal hides stays as it is. -/
theorem shown_ground_of_forall {cs : List Char} (h : ∀ c ∈ cs, ground.shows c = true) :
    shown .ground cs = cs := by
  induction cs with
  | nil => rfl
  | cons c cs ih =>
    rw [shown, if_pos (h c (by simp)), ih fun d hd => h d (by simp [hd])]

end Terminal

/-- What a terminal shows of a text. -/
def plain (s : String) : String := String.ofList (Terminal.shown .ground s.toList)

/-- Nothing is hidden of what a terminal shows. -/
theorem plain_plain (s : String) : plain (plain s) = plain s := by
  unfold plain
  rw [String.toList_ofList,
    Terminal.shown_ground_of_forall fun _ h => Terminal.shows_of_mem_shown h]

end LanguageServer.Text
