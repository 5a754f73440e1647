import LanguageServer.Payload

namespace LanguageServer

open Json (Value)

/-- The version of the message format. -/
def formatVersion : String := "2.0"

/-- A message whose content has not been given a type. -/
inductive Message where
  /-- Asks for one response with the same id. -/
  | request (id : RequestId) (method : String) (params : Value)
  /-- Asks for nothing. -/
  | notification (method : String) (params : Value)
  /-- The answer to a request of this side. -/
  | response (id : Option RequestId) (result error : Option Value)
  deriving DecidableEq

namespace Message

def method? : Message → Option String
  | .request _ method _ => some method
  | .notification method _ => some method
  | .response _ _ _ => none

def id? : Message → Option RequestId
  | .request id _ _ => some id
  | .notification _ _ => none
  | .response id _ _ => id

end Message

/-- The members of any message, present or not. -/
structure Envelope where
  version : Option String
  id : Option RequestId
  method : Option String
  params : Option Value
  result : Option Value
  error : Option Value
  deriving DecidableEq

namespace Envelope

instance : Payload Envelope where
  schema := .record "RawMessage" <|
    .optional "jsonrpc" false .text <| .optional "id" false .id <|
    .optional "method" false .text <| .optional "params" false .any <|
    .optional "result" false .any <| .optional "error" false .any .nil
  ofCarrier := fun (version, id, method, params, result, error, ()) =>
    ⟨version, id, method, params, result, error⟩
  toCarrier e := (e.version, e.id, e.method, e.params, e.result, e.error, ())

end Envelope

/-- Why a body is no message. -/
inductive DecodeError where
  | json (error : Json.Error)
  | missingMethod
  | unsupportedVersion (version : String)
  deriving DecidableEq

namespace DecodeError

def message : DecodeError → String
  | .json error => "invalid JSON body: " ++ error.message
  | .missingMethod => "message has no method and is not a response"
  | .unsupportedVersion version => "unsupported jsonrpc version: " ++ version

end DecodeError

namespace Message

/-- A version that is given has to be the right one. A method makes a request or a notification,
and without one an id, a result or an error makes a response. -/
def ofEnvelope (e : Envelope) : Except DecodeError Message :=
  match e.version with
  | some version =>
    if version = formatVersion then classify e else .error (.unsupportedVersion version)
  | none => classify e
where
  classify (e : Envelope) : Except DecodeError Message :=
    match e.method, e.id with
    | some method, some id => .ok (.request id method (e.params.getD .null))
    | some method, none => .ok (.notification method (e.params.getD .null))
    | none, id =>
      if id.isSome || e.result.isSome || e.error.isSome then
        .ok (.response id e.result e.error)
      else .error .missingMethod

/-- The message in the body of a frame. -/
def decode (body : Bytes) : Except DecodeError Message :=
  match Payload.parse Envelope body with
  | .error e => .error (.json e)
  | .ok e => ofEnvelope e

end Message

end LanguageServer
