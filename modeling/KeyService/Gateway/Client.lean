import KeyService.Gateway.Handlers

/-! Calls to another gateway.
The caller's half of a key exchange over HTTP, and of the echo. A call goes out through
a connection, which answers it or says why it could not; nothing else is assumed of the
other side, so an answer is taken for what it says only once it is understood. -/
namespace KeyService

structure Call where
  method : String
  url : String
  headers : Http.Headers
  body : Bytes
  deriving DecidableEq

abbrev Connection := Call → Program (Except String Http.Response)

namespace Client

variable {α : Type}

def readEnvelope (c : Json.Codec α) (r : Http.Response) : Except Exchange.Error α :=
  match (Envelope.codec c).parse r.body with
  | .error _ =>
    .error (.rejected (toString r.status) "unreadable response body: not an envelope")
  | .ok e =>
    if e.isSuccess then
      match e.data with
      | some data => .ok data
      | none => .error (.rejected e.code "response envelope carries no data")
    else .error (.rejected e.code e.msg)

def send (connection : Connection) (c : Json.Codec α) (call : Call) :
    Program (Except Exchange.Error α) := do
  match ← connection call with
  | .error reason => return .error (.unreachable (call.url ++ ": " ++ reason))
  | .ok response => return readEnvelope c response

def exchangeCall (url : String) (request : Exchange.Request) : Call where
  method := "POST"
  url := url
  headers := [(exchangeHeader, Bytes.ofText "true"),
    ("content-type", Bytes.ofText "application/json")]
  body := Bytes.ofText (Exchange.Request.codec.print request)

def exchange (connection : Connection) (url : String) (request : Exchange.Request) :
    Program (Except Exchange.Error Exchange.Response) :=
  send connection Exchange.Response.codec (exchangeCall url request)

def fetchKey (connection : Connection) (url : String) : Program (Except Exchange.Error String) :=
  send connection Json.Codec.text ⟨"GET", url, [], []⟩

inductive EchoError where
  | failed (cause : Failure)
  | unsent (url : String)
  | unreadable
  | rejected (code msg : String)
  | noPayload
  | noDataKey
  deriving DecidableEq

def EchoError.message : EchoError → String
  | failed cause => cause.message
  | unsent url => "POST " ++ url ++ " failed"
  | unreadable => "secure echo returned an unreadable body"
  | rejected code msg => "secure echo rejected (" ++ code ++ "): " ++ msg
  | noPayload => "secure echo returned no payload"
  | noDataKey => "secure echo reply carries no data key"

variable (S : Suite)

def echoCall (url : String) (s : Exchange.Session) (text : Bytes) : ExceptT Failure Program Call := do
  let key ← Payload.DataKey.draw s.keyLength
  let wrapped ← liftM (Payload.wrap S (← Program.time) s key)
  let payload ← liftM (Payload.encrypt S (← Program.time) s key text)
  return {
    method := "POST", url
    headers := [(sessionHeader, Bytes.ofText s.id), (dataKeyHeader, Bytes.ofText wrapped)]
    body := Bytes.ofText payload }

def readEcho (r : Http.Response) : Except EchoError (String × String) :=
  match (Envelope.codec Json.Codec.text).parse r.body with
  | .error _ => .error .unreadable
  | .ok e =>
    if e.isSuccess then
      match e.data, (r.headers.find? dataKeyHeader).bind Http.Headers.text? with
      | none, _ => .error .noPayload
      | some _, none => .error .noDataKey
      | some payload, some wrapped => .ok (payload, wrapped)
    else .error (.rejected e.code e.msg)

def secureEcho (connection : Connection) (url : String) (s : Exchange.Session) (text : Bytes) :
    ExceptT EchoError Program Bytes := do
  let call ← (echoCall S url s text).adapt EchoError.failed
  match ← connection call with
  | .error _ => throw (.unsent url)
  | .ok response =>
    let (payload, wrapped) ← liftM (readEcho response)
    let key ← liftM ((Payload.unwrap S (← Program.time) s wrapped).mapError EchoError.failed)
    liftM ((Payload.decrypt S (← Program.time) s key payload).mapError EchoError.failed)

end Client

end KeyService
