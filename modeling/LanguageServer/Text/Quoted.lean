import LanguageServer.Text.Combining
import LanguageServer.Text.Edges
import LanguageServer.Text.Unprintable

namespace LanguageServer.Text

/-- Characters that a reader of a log could not see, or not see alone. -/
def isHidden (c : Char) : Bool :=
  [unprintableEdges, fillerEdges, combiningEdges].any fun edges => within edges c.toNat

/-- How one character stands between quotation marks. -/
def quoteChar (c : Char) : List Char :=
  if c = '\x00' then ['\\', '0']
  else if c = '\t' then ['\\', 't']
  else if c = '\r' then ['\\', 'r']
  else if c = '\n' then ['\\', 'n']
  else if c = '"' then ['\\', '"']
  else if c = '\\' then ['\\', '\\']
  else if 0x20 ≤ c.toNat ∧ c.toNat < 0x7F then [c]
  else if isHidden c then ['\\', 'u', '\x7b'] ++ Nat.toDigits 16 c.toNat ++ ['\x7d']
  else [c]

/-- A text between quotation marks, with every character that could be misread escaped. -/
def quote (s : String) : String :=
  String.ofList ('"' :: s.toList.flatMap quoteChar ++ ['"'])

theorem quoteChar_of_graphic {c : Char} (h : 0x20 ≤ c.toNat ∧ c.toNat < 0x7F) (hq : c ≠ '"')
    (hb : c ≠ '\\') : quoteChar c = [c] := by
  unfold quoteChar
  have h0 : c ≠ '\x00' := by rintro rfl; exact absurd h.1 (by decide)
  have ht : c ≠ '\t' := by rintro rfl; exact absurd h.1 (by decide)
  have hr : c ≠ '\r' := by rintro rfl; exact absurd h.1 (by decide)
  have hn : c ≠ '\n' := by rintro rfl; exact absurd h.1 (by decide)
  simp [h0, ht, hr, hn, hq, hb, h]

end LanguageServer.Text
