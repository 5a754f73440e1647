import LanguageServer.Schema.OfText
import LanguageServer.Schema.ToValue

namespace LanguageServer

/-- A type whose values travel as records or values of a known kind. -/
class Payload (α : Type) where
  schema : Schema
  ofCarrier : schema.Carrier → α
  toCarrier : α → schema.Carrier
  ofCarrier_toCarrier : ∀ a, ofCarrier (toCarrier a) = a := by intro a; rfl

namespace Payload

variable {α : Type} [Payload α]

/-- Reads a value. -/
def ofValue (α : Type) [Payload α] (v : Json.Value) : Except Json.Cause α :=
  match (schema α).ofValue v with
  | .error e => .error e
  | .ok c => .ok (ofCarrier c)

/-- Reads a text, without a value in between. -/
def parse (α : Type) [Payload α] (input : Bytes) : Except Json.Error α :=
  match (schema α).parse input with
  | .error e => .error e
  | .ok c => .ok (ofCarrier c)

def toValue (a : α) : Json.Value := (schema α).toValue (toCarrier a)

end Payload

instance : Payload RequestId where
  schema := .id
  ofCarrier i := i
  toCarrier i := i

/-- Lists travel as lists of what their items travel as. -/
instance {α : Type} [Payload α] : Payload (List α) where
  schema := .list (Payload.schema α)
  ofCarrier cs := cs.map Payload.ofCarrier
  toCarrier as := as.map Payload.toCarrier
  ofCarrier_toCarrier as := by
    simp [List.map_map, Function.comp_def, Payload.ofCarrier_toCarrier]

end LanguageServer
