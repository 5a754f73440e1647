import LanguageServer.Payload.Position

namespace LanguageServer

/-- The name of a document. -/
structure DocumentName where
  uri : String
  deriving DecidableEq

instance : Payload DocumentName where
  schema := .record "TextDocumentIdentifier" <| .required "uri" .text .nil
  ofCarrier := fun (uri, ()) => ⟨uri⟩
  toCarrier d := (d.uri, ())

/-- A document that is opened, with its text. -/
structure OpenedDocument where
  uri : String
  languageId : Option String
  version : Option (Word .i32)
  text : String
  deriving DecidableEq

instance : Payload OpenedDocument where
  schema := .record "TextDocumentItem" <|
    .required "uri" .text <| .optional "languageId" false .text <|
    .optional "version" false (.word .i32) <| .required "text" .text .nil
  ofCarrier := fun (uri, languageId, version, text, ()) => ⟨uri, languageId, version, text⟩
  toCarrier d := (d.uri, d.languageId, d.version, d.text, ())

structure DidOpenParams where
  document : OpenedDocument
  deriving DecidableEq

instance : Payload DidOpenParams where
  schema := .record "DidOpenTextDocumentParams" <|
    .required "textDocument" (Payload.schema OpenedDocument) .nil
  ofCarrier := fun (document, ()) => ⟨Payload.ofCarrier document⟩
  toCarrier p := (Payload.toCarrier p.document, ())

/-- A document that is changed, with the version that the change leads to. -/
structure ChangedDocument where
  uri : String
  version : Option (Word .i32)
  deriving DecidableEq

instance : Payload ChangedDocument where
  schema := .record "VersionedTextDocumentIdentifier" <|
    .required "uri" .text <| .optional "version" false (.word .i32) .nil
  ofCarrier := fun (uri, version, ()) => ⟨uri, version⟩
  toCarrier d := (d.uri, d.version, ())

/-- A change. Its text is the whole document, even if a range comes with it. -/
structure ContentChange where
  range : Option Range
  text : String
  deriving DecidableEq

instance : Payload ContentChange where
  schema := .record "TextDocumentContentChangeEvent" <|
    .optional "range" false (Payload.schema Range) <| .required "text" .text .nil
  ofCarrier := fun (range, text, ()) => ⟨range.map Payload.ofCarrier, text⟩
  toCarrier c := (c.range.map Payload.toCarrier, c.text, ())
  ofCarrier_toCarrier c := by
    simp [Option.map_map, Function.comp_def, Payload.ofCarrier_toCarrier]

structure DidChangeParams where
  document : ChangedDocument
  changes : List ContentChange
  deriving DecidableEq

instance : Payload DidChangeParams where
  schema := .record "DidChangeTextDocumentParams" <|
    .required "textDocument" (Payload.schema ChangedDocument) <|
    .required "contentChanges" (Payload.schema (List ContentChange)) .nil
  ofCarrier := fun (document, changes, ()) =>
    ⟨Payload.ofCarrier document, Payload.ofCarrier changes⟩
  toCarrier p := (Payload.toCarrier p.document, Payload.toCarrier p.changes, ())
  ofCarrier_toCarrier p := by simp [Payload.ofCarrier_toCarrier]

structure DidCloseParams where
  document : DocumentName
  deriving DecidableEq

instance : Payload DidCloseParams where
  schema := .record "DidCloseTextDocumentParams" <|
    .required "textDocument" (Payload.schema DocumentName) .nil
  ofCarrier := fun (document, ()) => ⟨Payload.ofCarrier document⟩
  toCarrier p := (Payload.toCarrier p.document, ())

end LanguageServer
