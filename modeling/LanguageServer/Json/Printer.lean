import LanguageServer.Binary64.Shortest
import LanguageServer.Bytes
import LanguageServer.Json.Value

namespace LanguageServer.Json

/-- The small hexadecimal digit for a number below sixteen. -/
def hexDigit (n : UInt8) : UInt8 := if n < 10 then 48 + n else 87 + n

/-- How one byte stands inside a string. Only quotation mark, backslash and control characters
need an escape, and none of these bytes occurs inside a longer character. -/
def escape (b : UInt8) : Bytes :=
  if b = 34 then [92, 34]
  else if b = 92 then [92, 92]
  else if b = 8 then [92, 98]
  else if b = 12 then [92, 102]
  else if b = 10 then [92, 110]
  else if b = 13 then [92, 114]
  else if b = 9 then [92, 116]
  else if b < 32 then [92, 117, 48, 48, hexDigit (b / 16), hexDigit (b % 16)]
  else [b]

/-- A string between quotation marks. -/
def renderText (s : String) : Bytes := 34 :: (Bytes.ofText s).flatMap escape ++ [34]

def Number.text : Number → String
  | .integer n => toString n
  | .floating x => String.ofList x.text

/-- Joins what is already written, with commas between. -/
def separated : List Bytes → Bytes
  | [] => []
  | [b] => b
  | b :: bs => b ++ 44 :: separated bs

namespace Value

mutual

/-- The compact text of a value: no blanks, members in their order. -/
def render : Value → Bytes
  | .null => Bytes.ofText "null"
  | .bool true => Bytes.ofText "true"
  | .bool false => Bytes.ofText "false"
  | .number n => Bytes.ofText n.text
  | .text s => renderText s
  | .list items => 91 :: separated (renderItems items) ++ [93]
  | .object members => 123 :: separated (renderMembers members) ++ [125]
termination_by structural v => v

def renderItems : List Value → List Bytes
  | [] => []
  | v :: vs => v.render :: renderItems vs
termination_by structural vs => vs

def renderMembers : List (String × Value) → List Bytes
  | [] => []
  | (k, v) :: ms => (renderText k ++ 58 :: v.render) :: renderMembers ms
termination_by structural ms => ms

end

theorem renderItems_eq_map (vs : List Value) : renderItems vs = vs.map render := by
  induction vs with
  | nil => rfl
  | cons v vs ih => rw [renderItems, ih, List.map_cons]

theorem renderMembers_eq_map (ms : List (String × Value)) :
    renderMembers ms = ms.map fun (k, v) => renderText k ++ 58 :: v.render := by
  induction ms with
  | nil => rfl
  | cons m ms ih => rw [renderMembers, ih, List.map_cons]

end Value

end LanguageServer.Json
