import LanguageServer.Payload.Document

namespace LanguageServer

open Json (Value)

structure InlayHintParams where
  document : DocumentName
  range : Range
  deriving DecidableEq

instance : Payload InlayHintParams where
  schema := .record "InlayHintParams" <|
    .required "textDocument" (Payload.schema DocumentName) <|
    .required "range" (Payload.schema Range) .nil
  ofCarrier := fun (document, range, ()) =>
    ⟨Payload.ofCarrier document, Payload.ofCarrier range⟩
  toCarrier p := (Payload.toCarrier p.document, Payload.toCarrier p.range, ())

structure DiagnosticParams where
  document : DocumentName
  deriving DecidableEq

instance : Payload DiagnosticParams where
  schema := .record "DocumentDiagnosticParams" <|
    .required "textDocument" (Payload.schema DocumentName) .nil
  ofCarrier := fun (document, ()) => ⟨Payload.ofCarrier document⟩
  toCarrier p := (Payload.toCarrier p.document, ())

/-- A label that an editor shows inside the text. -/
structure InlayHint where
  position : Position
  label : String
  deriving DecidableEq

instance : Payload InlayHint where
  schema := .record "InlayHint" <|
    .required "position" (Payload.schema Position) <| .required "label" .text .nil
  ofCarrier := fun (position, label, ()) => ⟨Payload.ofCarrier position, label⟩
  toCarrier h := (Payload.toCarrier h.position, h.label, ())

/-- A remark on a range of the text. -/
structure Diagnostic where
  range : Range
  message : String
  deriving DecidableEq

instance : Payload Diagnostic where
  schema := .record "Diagnostic" <|
    .required "range" (Payload.schema Range) <| .required "message" .text .nil
  ofCarrier := fun (range, message, ()) => ⟨Payload.ofCarrier range, message⟩
  toCarrier d := (Payload.toCarrier d.range, d.message, ())

/-- All diagnostics of a document. -/
structure DiagnosticReport where
  items : List Diagnostic
  deriving DecidableEq

namespace DiagnosticReport

def toValue (r : DiagnosticReport) : Value :=
  .object [("kind", .text "full"), ("items", Payload.toValue r.items)]

end DiagnosticReport

end LanguageServer
