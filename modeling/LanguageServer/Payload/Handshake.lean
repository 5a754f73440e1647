import LanguageServer.Payload

namespace LanguageServer

open Json (Value)

structure ClientInfo where
  name : String
  version : Option String
  deriving DecidableEq

instance : Payload ClientInfo where
  schema := .record "ClientInfo" <|
    .required "name" .text <| .optional "version" false .text .nil
  ofCarrier := fun (name, version, ()) => ⟨name, version⟩
  toCarrier c := (c.name, c.version, ())

/-- What a client says of itself at the start. -/
structure HandshakeParams where
  clientInfo : Option ClientInfo
  deriving DecidableEq

instance : Payload HandshakeParams where
  schema := .record "InitializeParams" <|
    .optional "clientInfo" false (Payload.schema ClientInfo) .nil
  ofCarrier := fun (client, ()) => ⟨client.map Payload.ofCarrier⟩
  toCarrier p := (p.clientInfo.map Payload.toCarrier, ())
  ofCarrier_toCarrier p := by
    simp [Option.map_map, Function.comp_def, Payload.ofCarrier_toCarrier]

/-- How changes of documents are sent. -/
structure SyncKind where
  kind : Word .i32
  deriving DecidableEq

namespace SyncKind

/-- Every change carries the whole text. -/
def full : SyncKind := ⟨⟨1, by decide, by decide⟩⟩

instance : Payload SyncKind where
  schema := .word .i32
  ofCarrier n := ⟨n⟩
  toCarrier k := k.kind

end SyncKind

structure ServerInfo where
  name : String
  version : String
  deriving DecidableEq

/-- What the server can do. -/
structure Capabilities where
  sync : SyncKind
  inlayHints : Bool
  interFileDependencies : Bool
  workspaceDiagnostics : Bool
  deriving DecidableEq

namespace Capabilities

/-- Documents are synchronised as a whole, and there are hints and diagnostics for them. -/
def offered : Capabilities := ⟨.full, true, false, true⟩

def toValue (c : Capabilities) : Value :=
  .object [
    ("textDocumentSync", Payload.toValue c.sync),
    ("inlayHintProvider", .bool c.inlayHints),
    ("diagnosticProvider", .object [
      ("interFileDependencies", .bool c.interFileDependencies),
      ("workspaceDiagnostics", .bool c.workspaceDiagnostics)])]

end Capabilities

/-- What the server answers at the start. -/
structure HandshakeResult where
  capabilities : Capabilities
  serverInfo : ServerInfo
  deriving DecidableEq

namespace HandshakeResult

def toValue (r : HandshakeResult) : Value :=
  .object [
    ("capabilities", r.capabilities.toValue),
    ("serverInfo", .object [
      ("name", .text r.serverInfo.name),
      ("version", .text r.serverInfo.version)])]

end HandshakeResult

end LanguageServer
