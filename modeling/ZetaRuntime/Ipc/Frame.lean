import Mathlib.Data.List.DropRight
import ZetaRuntime.Ipc.Session

/-!
# Messages on a byte stream

A message is one line of JSON. A line is read as a message or as a violation: it may be too long,
empty, not UTF-8, not JSON, or not a message of the protocol. None of these ends the connection.

UTF-8 and JSON are left to the libraries that read them (`LineText`).
-/

namespace Zeta.Ipc

open Outcome

/-- The libraries that read texts and JSON. -/
class LineText where
  utf8 : List UInt8 → Option String
  /-- The text with what is not UTF-8 replaced. -/
  utf8Lossy : List UInt8 → String
  parse : String → Option Value
  /-- The error an object is rejected with if it is not the body of an error response. -/
  errorObject : Value → Except String ErrorObject

/-! ### Messages -/

/-- The JSON-RPC code of a line that is no JSON. -/
def parseError : Int := -32700

/-- The name of a request. -/
def RequestId.parse : Value → Except IpcError RequestId
  | .string text => .ok (.string text)
  | .number number =>
    match number.asU64, number.asI64 with
    | some number, _ => .ok (.unsigned number)
    | none, some number => .ok (.signed number)
    | none, none => .error ⟨invalidRequest, "a request id must be a string or integral number"⟩
  | .null | .bool _ | .array _ | .object _ =>
    .error ⟨invalidRequest, "a request id must be a non-null string or integral number"⟩

def parseParams : Option Value → Except IpcError Map
  | none => .ok []
  | some (.object params) => .ok params
  | some _ => .error ⟨invalidRequest, "`params` must be an object"⟩

/-- A call is a notification if it has no id. -/
def callWithId (method : String) (params : Map) : Option Value → Except IpcError Message
  | none => .ok (.notification ⟨method, params⟩)
  | some id => do
    let id ← RequestId.parse id
    return .request ⟨id, method, params⟩

def parseCall (fields : Map) : Except IpcError Message := do
  let method ← require ((fields.get "method").bind Value.asStr)
    ⟨invalidRequest, "`method` must be a string"⟩
  ensure (method ≠ "") ⟨invalidRequest, "`method` must be non-empty"⟩
  let params ← parseParams (fields.get "params")
  callWithId method params (fields.get "id")

def parseSuccess (fields : Map) (result : Value) : Except IpcError Message := do
  let id ← require (fields.get "id") ⟨invalidRequest, "a successful response must carry `id`"⟩
  let id ← RequestId.parse id
  return .success ⟨id, result⟩

/-- The id of an error response, which may be null. -/
def parseErrorId : Value → Except IpcError (Option RequestId)
  | .null => .ok none
  | id => some <$> RequestId.parse id

section

variable [LineText]

def parseErrorResponse (fields : Map) (error : Value) : Except IpcError Message := do
  let id ← require (fields.get "id") ⟨invalidRequest, "an error response must carry `id`"⟩
  let id ← parseErrorId id
  let error ← (LineText.errorObject error).mapError fun detail =>
    ⟨invalidRequest, "`error` must be a JSON-RPC error object: " ++ detail⟩
  return .error ⟨id, error⟩

/-- Classify a message by the fields that it has. -/
def Message.parseFields (fields : Map) : Except IpcError Message :=
  match fields.get "method", fields.get "result", fields.get "error" with
  | some _, none, none => parseCall fields
  | none, some result, none => parseSuccess fields result
  | none, none, some body => parseErrorResponse fields body
  | _, _, _ => .error ⟨invalidRequest,
      "a JSON-RPC message must be exactly one request, notification, success, or error"⟩

/-- Classify a JSON value. -/
def Message.parseValue : Value → Except IpcError Message
  | .object fields => do
    ensure ((Map.get fields "jsonrpc").bind Value.asStr = some "2.0")
      ⟨invalidRequest, "a JSON-RPC message must carry `jsonrpc` equal to `2.0`"⟩
    Message.parseFields fields
  | _ => .error ⟨invalidRequest, "a JSON-RPC message must be an object"⟩

/-! ### Lines -/

/-- The longest line that is read as a message. -/
def maxFrameBytes : ℕ := 8 * 1024 * 1024

/-- How many bytes are read at once. -/
def readChunk : ℕ := 64 * 1024

/-- How much of an invalid line is shown. -/
def previewCharacters : ℕ := 200

def newline : UInt8 := 10

def carriageReturn : UInt8 := 13

/-- A line that is no message. -/
structure Violation where
  rule : String
  code : Int
  detail : String
  requestId : Option RequestId
  preview : String
  deriving DecidableEq, Repr

/-- What a line says. -/
inductive Frame where
  | message (message : Message)
  | violation (violation : Violation)
  deriving DecidableEq

/-- The beginning of a line. -/
def preview (line : List UInt8) : String :=
  let text := (LineText.utf8Lossy line).toList
  String.ofList (if text.length ≤ previewCharacters then text
    else text.take previewCharacters ++ ['…'])

def overlongFrame (line : List UInt8) (limit : ℕ) : Frame :=
  .violation ⟨"frame_too_long", parseError,
    "line exceeded the " ++ toString limit ++ "-byte frame limit", none, preview line⟩

/-- The id of a request that is invalid for another reason. -/
def recoverRequestId : Value → Option RequestId
  | .object fields =>
    if Map.containsKey fields "method" && !Map.containsKey fields "result"
        && !Map.containsKey fields "error" then
      (Map.get fields "id").bind fun id => (RequestId.parse id).toOption
    else none
  | _ => none

/-- The name of the rule that an invalid message breaks. -/
def ruleOfCode (code : Int) : String :=
  if code = parseError then "parse_error"
  else if code = invalidRequest then "invalid_request"
  else "invalid_params"

/-- Read a value as a message. -/
def decodeValue (line : List UInt8) (value : Value) : Frame :=
  match Message.parseValue value with
  | .ok message => .message message
  | .error error =>
    .violation
      ⟨ruleOfCode error.code, error.code, error.message, recoverRequestId value, preview line⟩

/-- Read a line that has a byte. -/
def decodeText (line : List UInt8) : Frame :=
  match LineText.utf8 line with
  | none =>
    .violation ⟨"parse_error", parseError, "the line is not valid UTF-8", none, preview line⟩
  | some text =>
    match LineText.parse text with
    | none =>
      .violation ⟨"parse_error", parseError, "the line is not valid JSON", none, preview line⟩
    | some value => decodeValue line value

/-- Read a line, without the carriage returns at its end. -/
def decodeLine (line : List UInt8) : Frame :=
  let line := line.rdropWhile (· = carriageReturn)
  if line = [] then .violation ⟨"empty_line", parseError, "empty line", none, ""⟩
  else decodeText line

/-- Read a line that is complete. -/
def lineFrame (limit : ℕ) (line : List UInt8) : Frame :=
  if limit < line.length then overlongFrame line limit else decodeLine line

end

end Zeta.Ipc
