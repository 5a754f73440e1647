import LanguageServer.Frame
import LanguageServer.Message

namespace LanguageServer

open Json (Value)

/-- Why a request was not fulfilled. -/
inductive ErrorCode where
  | invalidRequest
  | invalidParams
  | internalError
  deriving DecidableEq

namespace ErrorCode

def code : ErrorCode → Word .i64
  | .invalidRequest => ⟨-32600, by decide, by decide⟩
  | .invalidParams => ⟨-32602, by decide, by decide⟩
  | .internalError => ⟨-32603, by decide, by decide⟩

end ErrorCode

structure ResponseError where
  code : Word .i64
  message : String
  deriving DecidableEq

namespace ResponseError

def of (code : ErrorCode) (message : String) : ResponseError := ⟨code.code, message⟩

instance : Payload ResponseError where
  schema := .record "ResponseError" <|
    .required "code" (.word .i64) <| .required "message" .text .nil
  ofCarrier := fun (code, message, ()) => ⟨code, message⟩
  toCarrier e := (e.code, e.message, ())

end ResponseError

/-- The answer to a request: a result or an error. -/
structure Response where
  version : String
  id : RequestId
  result : Option Value
  error : Option ResponseError
  deriving DecidableEq

namespace Response

def success (id : RequestId) (result : Value) : Response :=
  ⟨formatVersion, id, some result, none⟩

def failure (id : RequestId) (error : ResponseError) : Response :=
  ⟨formatVersion, id, none, some error⟩

instance : Payload Response where
  schema := .record "Response" <|
    .required "jsonrpc" .text <| .required "id" .id <|
    .optional "result" true .any <| .optional "error" true (Payload.schema ResponseError) .nil
  ofCarrier := fun (version, id, result, error, ()) =>
    ⟨version, id, result, error.map Payload.ofCarrier⟩
  toCarrier r := (r.version, r.id, r.result, r.error.map Payload.toCarrier, ())
  ofCarrier_toCarrier r := by
    simp [Option.map_map, Function.comp_def, Payload.ofCarrier_toCarrier]

/-- The frame that carries a response. -/
def encode (r : Response) : Bytes := Frame.encode (Payload.toValue r).render

end Response

end LanguageServer
