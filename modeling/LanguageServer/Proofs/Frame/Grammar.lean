import LanguageServer.Proofs.Frame.Split
import LanguageServer.Proofs.Numeral

namespace LanguageServer

namespace Text

/-- The text without the blanks around it. -/
structure Trimmed (text core : List Char) : Prop where
  blanks : ∃ before after, text = before ++ core ++ after ∧
    (∀ c ∈ before, isBlank c = true) ∧ ∀ c ∈ after, isBlank c = true
  head : ∀ c ∈ core.head?, isBlank c = false
  last : ∀ c ∈ core.getLast?, isBlank c = false

theorem not_isBlank_head_dropWhile (cs : List Char) :
    ∀ c ∈ (cs.dropWhile isBlank).head?, isBlank c = false := by
  intro c hc
  have hhead := List.head?_dropWhile_not isBlank cs
  rwa [hc] at hhead

theorem Trimmed.eq_trim {text core : List Char} (h : Trimmed text core) : trim text = core := by
  obtain ⟨⟨before, after, rfl, hbefore, hafter⟩, hhead, hlast⟩ := h
  have hcore := trim_eq_self hhead hlast
  unfold trim at hcore ⊢
  rw [List.append_assoc, List.dropWhile_append_of_pos hbefore]
  cases core with
  | nil =>
    rw [List.nil_append, List.dropWhile_eq_nil_iff.mpr hafter]
    rfl
  | cons c core =>
    have hc : isBlank c = false := hhead c rfl
    rw [List.dropWhile_cons_of_neg (by simp [hc])] at hcore
    rw [List.cons_append, List.dropWhile_cons_of_neg (by simp [hc]), ← List.cons_append,
      List.reverse_append,
      List.dropWhile_append_of_pos fun d hd => hafter d (List.mem_reverse.mp hd), hcore]

theorem trimmed_trim (text : List Char) : Trimmed text (trim text) := by
  let after := ((text.dropWhile isBlank).reverse.takeWhile isBlank).reverse
  have hsplit : text.dropWhile isBlank = trim text ++ after := by
    rw [trim, ← List.reverse_append, List.takeWhile_append_dropWhile, List.reverse_reverse]
  refine ⟨⟨text.takeWhile isBlank, after, ?_, fun c hc => List.mem_takeWhile_imp hc,
    fun c hc => List.mem_takeWhile_imp (List.mem_reverse.mp hc)⟩, ?_, ?_⟩
  · rw [List.append_assoc, ← hsplit, List.takeWhile_append_dropWhile]
  · intro c hc
    refine not_isBlank_head_dropWhile text c ?_
    rw [hsplit, List.head?_append, hc]
    rfl
  · rw [trim, List.getLast?_reverse]
    exact not_isBlank_head_dropWhile _

end Text

namespace Header

/-- Lines that, with an end of line between any two, are the text. -/
structure IsLines (text : List Char) (ls : List (List Char)) : Prop where
  intercalate : lineEnd.intercalate ls = text
  ne_nil : ls ≠ []
  whole : ∀ line ∈ ls, ¬ lineEnd <:+: line

/-- A line about the length: its name is that of the length header, in any case and with blanks
around it, and the value is what stands behind the first colon. -/
def States (line value : List Char) : Prop :=
  ∃ name rest core, line = name ++ ':' :: rest ∧ ':' ∉ name ∧ Text.Trimmed name core ∧
    core.map Char.toLower = lengthName ∧ Text.Trimmed rest value

/-- One digit or more, after at most one plus sign, whose value a word of 64 bits can hold. -/
def IsLength (text : List Char) (n : Nat) : Prop :=
  ∃ digits, (text = digits ∨ text = '+' :: digits) ∧ digits ≠ [] ∧
    (∀ d ∈ digits, d.isDigit = true) ∧ Nat.ofDigitChars 10 digits 0 = n ∧ n < 2 ^ 64

/-- A header is a text. Every line about the length states one, and `n` is the last of them. -/
def WellFormed (header : Bytes) (n : Nat) : Prop :=
  ∃ (text : String) (ls : List (List Char)), header = Bytes.ofText text ∧
    IsLines text.toList ls ∧
    (∀ line ∈ ls, ∀ value, States line value → ∃ m, IsLength value m) ∧
    ∃ before line after value, ls = before ++ line :: after ∧ States line value ∧
      IsLength value n ∧ ∀ later ∈ after, ∀ v, ¬ States later v

theorem IsLines.cons {text line : List Char} {ls : List (List Char)} (h : IsLines text ls)
    (hline : ¬ lineEnd <:+: line) : IsLines (line ++ lineEnd ++ text) (line :: ls) := by
  obtain ⟨rfl, hne, hwhole⟩ := h
  obtain ⟨l, ls, rfl⟩ := List.exists_cons_of_ne_nil hne
  refine ⟨List.intercalate_cons_cons, List.cons_ne_nil _ _, ?_⟩
  intro m hm
  rcases List.mem_cons.mp hm with rfl | hm
  · exact hline
  · exact hwhole m hm

theorem isLines_lines (text : List Char) : IsLines text (lines text) := by
  rcases exists_firstLine text with hline | ⟨line, rest, rfl, hline⟩
  · rw [lines_eq_singleton hline]
    exact ⟨List.intercalate_singleton, List.cons_ne_nil _ _, by simpa using hline⟩
  · rw [lines_append_lineEnd, lines_eq_singleton hline]
    exact (isLines_lines rest).cons hline
termination_by text.length
decreasing_by
  subst_vars
  simp only [List.length_append, lineEnd, List.length_cons]
  omega

theorem lines_intercalate {ls : List (List Char)} (hne : ls ≠ [])
    (hwhole : ∀ line ∈ ls, ¬ lineEnd <:+: line) : lines (lineEnd.intercalate ls) = ls := by
  match ls with
  | [] => exact absurd rfl hne
  | [line] =>
    rw [List.intercalate_singleton]
    exact lines_eq_singleton (hwhole line (by simp))
  | line :: next :: more =>
    rw [List.intercalate_cons_cons, lines_append_lineEnd,
      lines_eq_singleton (hwhole line (by simp)),
      lines_intercalate (List.cons_ne_nil _ _) fun l hl => hwhole l (List.mem_cons_of_mem line hl)]
    rfl

theorem isLines_iff {text : List Char} {ls : List (List Char)} :
    IsLines text ls ↔ lines text = ls := by
  constructor
  · intro h
    obtain ⟨rfl, hne, hwhole⟩ := h
    exact lines_intercalate hne hwhole
  · intro h
    subst h
    exact isLines_lines text

theorem field?_eq_some_iff {line name rest : List Char} :
    field? line = some (name, rest) ↔ line = name ++ ':' :: rest ∧ ':' ∉ name := by
  induction line generalizing name with
  | nil => simp [field?]
  | cons c line ih =>
    by_cases hc : c = ':'
    · subst hc
      have hfield : field? (':' :: line) = some ([], line) := rfl
      rw [hfield]
      cases name with
      | nil => simp
      | cons d name =>
        simp only [List.cons_append, List.cons.injEq, List.mem_cons]
        grind
    · rw [field?_cons hc]
      cases name with
      | nil =>
        simp [hc]
      | cons d name =>
        simp only [Option.map_eq_some_iff, Prod.exists, List.cons_append, List.cons.injEq,
          List.mem_cons, Prod.mk.injEq]
        grind

theorem states_iff {line value : List Char} :
    States line value ↔ lengthText? line = some value := by
  unfold States lengthText?
  constructor
  · intro h
    obtain ⟨name, rest, core, hline, hcolon, hname, hcore, hvalue⟩ := h
    rw [field?_eq_some_iff.mpr ⟨hline, hcolon⟩]
    dsimp only
    rw [if_pos (by rw [hname.eq_trim, hcore]), hvalue.eq_trim]
  · intro h
    split at h
    · cases h
    · rename_i name rest hfield
      obtain ⟨hline, hcolon⟩ := field?_eq_some_iff.mp hfield
      split at h
      · rename_i hname
        cases h
        exact ⟨name, rest, _, hline, hcolon, Text.trimmed_trim name, hname,
          Text.trimmed_trim rest⟩
      · cases h

theorem readLength_eq_ok_iff {text : List Char} {n : Nat} :
    readLength text = .ok n ↔ IsLength text n := by
  rw [IsLength, ← Numeral.read_eq_ok_iff (by decide)]
  unfold readLength
  split
  · rename_i m hm
    rw [show Numeral.read (2 ^ 64) text = .ok m from hm, Except.ok.injEq, Except.ok.injEq]
  · rename_i e he
    rw [show Numeral.read (2 ^ 64) text = .error e from he]
    simp

theorem eq_nil_of_mapM {α β ε : Type} {f : α → Except ε β} {as : List α}
    (h : as.mapM f = .ok []) : as = [] := by
  cases as with
  | nil => rfl
  | cons a as =>
    rw [List.mapM_cons] at h
    cases ha : f a with
    | error e => simp [ha, bind, Except.bind] at h
    | ok b =>
      cases has : as.mapM f <;> simp [ha, has, bind, Except.bind, pure, Except.pure] at h

theorem declared_eq_ok_iff {cs : List Char} {n : Nat} : declared cs = .ok n ↔
    (∀ v ∈ lengthTexts cs, ∃ m, readLength v = .ok m) ∧
      ∃ v, (lengthTexts cs).getLast? = some v ∧ readLength v = .ok n := by
  constructor
  · exact fun h => ⟨exists_readLength_of_declared h, exists_getLast?_of_declared h⟩
  · intro h
    obtain ⟨hall, v, hv, hn⟩ := h
    obtain ⟨lengths, hread⟩ : ∃ lengths, (lengthTexts cs).mapM readLength = .ok lengths := by
      cases hread : (lengthTexts cs).mapM readLength with
      | ok lengths => exact ⟨lengths, rfl⟩
      | error e =>
        obtain ⟨w, hw, he⟩ := exists_error_of_mapM hread
        obtain ⟨m, hm⟩ := hall w hw
        rw [he] at hm
        cases hm
    have hlast : lengths.getLast? = some n := by
      cases hlast : lengths.getLast? with
      | none =>
        rw [List.getLast?_eq_none_iff.mp hlast] at hread
        rw [eq_nil_of_mapM hread] at hv
        cases hv
      | some m =>
        obtain ⟨w, hw, hm⟩ := getLast?_of_mapM hread hlast
        rw [hv] at hw
        cases hw
        rw [hn] at hm
        cases hm
        rfl
    rw [declared, show ((lines cs).filterMap lengthText?).mapM readLength = .ok lengths from hread]
    dsimp only
    rw [hlast]

theorem getLast?_lengthTexts_eq_some_iff {cs v : List Char} :
    (lengthTexts cs).getLast? = some v ↔ ∃ before line after,
      lines cs = before ++ line :: after ∧ lengthText? line = some v ∧
        ∀ later ∈ after, lengthText? later = none := by
  rw [lengthTexts, List.getLast?_filterMap, List.findSome?_eq_some_iff]
  constructor
  · intro h
    obtain ⟨after, line, before, hlines, hline, hafter⟩ := h
    refine ⟨before.reverse, line, after.reverse, ?_, hline, ?_⟩
    · rw [List.reverse_eq_iff.mp hlines]
      simp
    · exact fun later hlater => hafter later (List.mem_reverse.mp hlater)
  · intro h
    obtain ⟨before, line, after, hlines, hline, hafter⟩ := h
    refine ⟨after.reverse, line, before.reverse, ?_, hline, ?_⟩
    · rw [hlines]
      simp
    · exact fun later hlater => hafter later (List.mem_reverse.mp hlater)

theorem contentLength_eq_ok_iff {header : Bytes} {n : Nat} :
    contentLength header = .ok n ↔ WellFormed header n := by
  constructor
  · intro h
    unfold contentLength at h
    split at h
    · cases h
    · rename_i text htext
      obtain ⟨hall, v, hlast, hn⟩ := declared_eq_ok_iff.mp h
      obtain ⟨before, line, after, hlines, hline, hafter⟩ :=
        getLast?_lengthTexts_eq_some_iff.mp hlast
      refine ⟨text, lines text.toList, Bytes.eq_ofText_of_toText? htext, isLines_lines _, ?_,
        before, line, after, v, hlines, states_iff.mpr hline, readLength_eq_ok_iff.mp hn, ?_⟩
      · intro l hl value hvalue
        obtain ⟨m, hm⟩ := hall value (List.mem_filterMap.mpr ⟨l, hl, states_iff.mp hvalue⟩)
        exact ⟨m, readLength_eq_ok_iff.mp hm⟩
      · intro later hlater w hw
        rw [states_iff, hafter later hlater] at hw
        cases hw
  · intro h
    obtain ⟨text, ls, rfl, hlines, hall, before, line, after, v, rfl, hline, hn, hafter⟩ := h
    rw [isLines_iff] at hlines
    have hlast : (lengthTexts text.toList).getLast? = some v := by
      refine getLast?_lengthTexts_eq_some_iff.mpr
        ⟨before, line, after, hlines, states_iff.mp hline, fun later hlater => ?_⟩
      by_contra hsome
      obtain ⟨w, hw⟩ := Option.ne_none_iff_exists'.mp hsome
      exact hafter later hlater w (states_iff.mpr hw)
    rw [contentLength, Bytes.toText?_ofText]
    refine declared_eq_ok_iff.mpr ⟨?_, v, hlast, readLength_eq_ok_iff.mpr hn⟩
    intro w hw
    obtain ⟨l, hl, hlw⟩ := List.mem_filterMap.mp hw
    obtain ⟨m, hm⟩ := hall l (hlines ▸ hl) w (states_iff.mpr hlw)
    exact ⟨m, readLength_eq_ok_iff.mpr hm⟩

end Header

namespace Frame

variable {buffer header rest : Bytes} {frame : Frame} {e n : Nat}

/-- A sound header stands at the start. It goes on to the first terminator and declares a body of
`n` bytes, and `rest` is what is there behind it. -/
structure Opens (buffer header rest : Bytes) (n : Nat) : Prop where
  append : buffer = header ++ terminator ++ rest
  first : ∀ i < header.length, ¬ terminator <+: buffer.drop i
  header_le : header.length ≤ maxHeaderLength
  wellFormed : Header.WellFormed header n
  body_le : n ≤ maxBodyLength

/-- The frame stands at the start, in whole. -/
def StartsWith (buffer : Bytes) (frame : Frame) : Prop :=
  ∃ header rest, Opens buffer header (frame.body ++ rest) frame.body.length ∧
    frame.consumed = header.length + terminator.length + frame.body.length

/-- There is no frame yet, but more bytes may complete one: either the header has no end so far, or
the body is shorter than declared. -/
def Begins (buffer : Bytes) : Prop :=
  (¬ terminator <:+: buffer ∧ buffer.length ≤ maxHeaderLength) ∨
    ∃ header rest n, Opens buffer header rest n ∧ rest.length < n

theorem find_terminator_eq_some_iff : Bytes.find terminator buffer = some e ↔
    terminator <+: buffer.drop e ∧ ∀ i < e, ¬ terminator <+: buffer.drop i := by
  simp only [Bytes.find, Bytes.findFrom_zero_eq_some_iff, ← List.isPrefixOf_iff_prefix,
    Bool.not_eq_true]
  refine ⟨fun h => h.2, fun h => ⟨?_, h⟩⟩
  have hlength := ofFirst_terminator.length_le h.1
  rw [List.length_drop, terminator, List.length_cons] at hlength
  omega

theorem find_terminator_eq_none_iff :
    Bytes.find terminator buffer = none ↔ ¬ terminator <:+: buffer := by
  constructor
  · intro hnone h
    obtain ⟨before, after, rfl⟩ := h
    rw [Bytes.find, Bytes.findFrom_eq_none_iff] at hnone
    have hat := hnone before.length (by simp [terminator])
    rw [List.append_assoc, List.drop_left, ← Bool.not_eq_true,
      List.isPrefixOf_iff_prefix] at hat
    exact hat (List.prefix_append _ _)
  · intro hnone
    cases hfind : Bytes.find terminator buffer with
    | none => rfl
    | some e =>
      obtain ⟨hstart, -⟩ := find_terminator_eq_some_iff.mp hfind
      exact absurd (hstart.isInfix.trans (List.drop_suffix e buffer).isInfix) hnone

theorem opens_iff : Opens buffer header rest n ↔
    buffer = header ++ terminator ++ rest ∧ Declares buffer header.length n := by
  constructor
  · intro h
    obtain ⟨rfl, hfirst, hheader, hwell, hbody⟩ := h
    refine ⟨rfl, find_terminator_eq_some_iff.mpr ⟨?_, hfirst⟩, hheader, ?_, hbody⟩
    · rw [List.append_assoc, List.drop_left]
      exact List.prefix_append _ _
    · rw [List.append_assoc, List.take_left]
      exact Header.contentLength_eq_ok_iff.mpr hwell
  · intro h
    obtain ⟨rfl, hfind, hheader, hlength, hbody⟩ := h
    obtain ⟨-, hfirst⟩ := find_terminator_eq_some_iff.mp hfind
    rw [List.append_assoc, List.take_left] at hlength
    exact ⟨rfl, hfirst, hheader, Header.contentLength_eq_ok_iff.mp hlength, hbody⟩

theorem Declares.exists_opens (h : Declares buffer e n) :
    ∃ header rest, header.length = e ∧ Opens buffer header rest n := by
  have hle := find_terminator_le h.find
  have hlength : (buffer.take e).length = e := by
    rw [List.length_take]
    omega
  refine ⟨buffer.take e, (cutAt buffer e n).body ++ buffer.drop (e + terminator.length + n),
    hlength, opens_iff.mpr ⟨?_, by rwa [hlength]⟩⟩
  rw [← List.append_assoc]
  exact h.eq_append

theorem Opens.split (h : Opens buffer header rest n) :
    split buffer = if rest.length < n then .ok none
      else .ok (some ⟨rest.take n, header.length + terminator.length + n⟩) := by
  obtain ⟨rfl, hdeclares⟩ := opens_iff.mp h
  rw [hdeclares.split, cutAt, ← List.length_append, List.drop_left]
  simp only [List.length_append, Nat.add_lt_add_iff_left]

/-- Whatever the bytes, they are taken for a frame just when they start with one, and kept for later
just when they can begin one. All others are refused. -/
theorem split_grammar (buffer : Bytes) :
    (∀ frame, split buffer = .ok (some frame) ↔ StartsWith buffer frame) ∧
      (split buffer = .ok none ↔ Begins buffer) ∧
      ((∃ error, split buffer = .error error) ↔
        (∀ frame, ¬ StartsWith buffer frame) ∧ ¬ Begins buffer) := by
  have hframe (frame : Frame) :
      split buffer = .ok (some frame) ↔ StartsWith buffer frame := by
    constructor
    · intro h
      obtain ⟨e, n, hdeclares, -⟩ := declares_of_split_some h
      obtain ⟨header, rest, -, hopens⟩ := hdeclares.exists_opens
      rw [hopens.split] at h
      split at h
      · cases h
      · rename_i hle
        cases h
        have hbody : (rest.take n).length = n := by
          rw [List.length_take]
          omega
        exact ⟨header, rest.drop n, by rwa [hbody, List.take_append_drop], by rw [hbody]⟩
    · intro h
      obtain ⟨header, rest, hopens, hconsumed⟩ := h
      rw [hopens.split, if_neg (by simp), List.take_left, ← hconsumed]
  have hstart : split buffer = .ok none ↔ Begins buffer := by
    constructor
    · intro h
      rcases declares_of_split_ok h with ⟨hfind, hlength, -⟩ | ⟨e, n, hdeclares⟩
      · exact .inl ⟨find_terminator_eq_none_iff.mp hfind, hlength⟩
      · obtain ⟨header, rest, -, hopens⟩ := hdeclares.exists_opens
        rw [hopens.split] at h
        split at h
        · exact .inr ⟨header, rest, n, hopens, ‹_›⟩
        · cases h
    · intro h
      rcases h with ⟨hnone, hlength⟩ | ⟨header, rest, n, hopens, hlt⟩
      · rw [split_of_find_none (find_terminator_eq_none_iff.mpr hnone), if_neg (by omega)]
      · rw [hopens.split, if_pos hlt]
  refine ⟨hframe, hstart, ?_⟩
  simp only [← hframe, ← hstart]
  rcases split buffer with error | _ | frame <;> simp

example : split (Bytes.ofText "Content-Length: 9\r\n content-LENGTH : +02 \r\n\r\n\x7b\x7d!") =
    .ok (some ⟨Bytes.ofText "\x7b\x7d", 47⟩) := by decide +kernel

end Frame

end LanguageServer
