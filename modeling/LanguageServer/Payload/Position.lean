import LanguageServer.Payload

namespace LanguageServer

/-- A place in a document: a line and an offset in UTF-16 units, both from zero. -/
structure Position where
  line : Word .u32
  character : Word .u32
  deriving DecidableEq

instance : Payload Position where
  schema := .record "Position" <|
    .required "line" (.word .u32) <| .required "character" (.word .u32) .nil
  ofCarrier := fun (line, character, ()) => ⟨line, character⟩
  toCarrier p := (p.line, p.character, ())

/-- The text between two places. -/
structure Range where
  start : Position
  stop : Position
  deriving DecidableEq

instance : Payload Range where
  schema := .record "Range" <|
    .required "start" (Payload.schema Position) <| .required "end" (Payload.schema Position) .nil
  ofCarrier := fun (start, stop, ()) => ⟨Payload.ofCarrier start, Payload.ofCarrier stop⟩
  toCarrier r := (Payload.toCarrier r.start, Payload.toCarrier r.stop, ())

end LanguageServer
