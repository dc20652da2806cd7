import KeyService.Envelope
import KeyService.Exchange.Responder
import KeyService.Http.Form
import KeyService.Http.MediaType
import KeyService.Http.Message
import KeyService.LocalText.Cipher
import KeyService.Payload.DataKey

/-! What the gateway does for each of its routes.
Every answer of a handler is an envelope. What cannot even be read as the content that
a handler takes is refused in plain text, except by the negotiation, which wraps that
refusal as well. -/
namespace KeyService

def exchangeHeader : String := "X-Key-Exchange"

def sessionHeader : String := "X-Session-Id"

def dataKeyHeader : String := "X-Dk"

namespace Gateway

open Http (Request Response)

variable {α : Type}

def envelope (c : Json.Codec α) (status : Nat) (e : Envelope α) : Response :=
  .ofText status "application/json" ((Envelope.codec c).print e)

def success (c : Json.Codec α) (data : α) : Response := envelope c 200 (.success data)

def refusal (status : Nat) (code text : String) : Response :=
  envelope Json.Codec.text status (.failure code text)

def failure (e : ServiceError) : Response := refusal e.status e.code e.message

def answer (c : Json.Codec α) : Except Failure α → Response
  | .ok data => success c data
  | .error e => failure e.service

def maxContent : Nat := 2097152

structure Unread where
  status : Nat
  text : String
  deriving DecidableEq, Repr

def Unread.response (u : Unread) : Response := .ofText u.status "text/plain; charset=utf-8" u.text

def content (r : Request) : Except Unread Bytes :=
  if maxContent < r.body.length then
    .error ⟨413, "Failed to buffer the request body: length limit exceeded"⟩
  else .ok r.body

def contentText (r : Request) : Except Unread String := do
  let bs ← content r
  match Utf8.read bs with
  | .ok text => return text
  | .error b => throw ⟨400, "Request body didn't contain valid UTF-8: " ++ b.message⟩

def saysJson (r : Request) : Bool :=
  match ((r.headers.find? "content-type").bind Http.Headers.text?).bind Http.MediaType.parse? with
  | some type => type.isJson
  | none => false

def unread : Json.Fault → Unread
  | .unfit => ⟨422, "Failed to deserialize the JSON body into the target type: unexpected value"⟩
  | .malformed => ⟨400, "Failed to parse the request body as JSON: malformed"⟩
  | .truncated => ⟨400, "Failed to parse the request body as JSON: end of text"⟩

/-- A document at the front of the content; what follows it does not count. -/
def contentJson (c : Json.Codec α) (r : Request) : Except Unread α := do
  if !saysJson r then
    throw ⟨415, "Expected request with \x60Content-Type: application/json\x60"⟩
  let bs ← content r
  match c.read bs with
  | .ok (value, _) => return value
  | .error fault => throw (unread fault)

def header (r : Request) (name : String) : Except Response String :=
  match r.headers.find? name with
  | none => .error (failure (.badRequest ("missing " ++ name ++ " header")))
  | some value =>
    match Http.Headers.text? value with
    | some text => .ok text
    | none => .error (failure (.badRequest (name ++ " header contains non-ASCII characters")))

variable (S : Suite)

def ofExchange (work : Exchange.Act α) : Program (Except Failure α) := do
  return (← work.run).mapError .exchange

def negotiate (responder : Exchange.Responder) (r : Request) : Program Response := do
  match contentJson Exchange.Request.codec r with
  | .error u => return failure (.badRequest u.text)
  | .ok request =>
    return answer Exchange.Response.codec (← ofExchange (responder.respond S request))

def namedPair (r : Request) : Except Unread (Option String) :=
  match (Http.Form.pairs (r.target.query.getD "")).filter (·.1 = "keyPairId") with
  | [] => .ok none
  | [(_, id)] => .ok (some id)
  | _ => .error ⟨400, "Failed to deserialize query string: repeated name"⟩

def publicKey (engine : Engine) (r : Request) : Program Response := do
  match namedPair r with
  | .error u => return u.response
  | .ok id =>
    return answer Json.Codec.text ((← (engine.publicKey S id).run).mapError .engine)

/-- A payload of a session once more, under a fresh data key. The result is the new key, wrapped,
and the new payload. -/
def echo (sessionId wrapped payload : String) : ExceptT Failure Program (String × String) := do
  let session ← ofExchange (ExceptT.mk (Program.getSession sessionId))
  let key ← liftM (Payload.unwrap S (← Program.time) session wrapped)
  let text ← liftM (Payload.decrypt S (← Program.time) session key payload)
  let replyKey ← Payload.DataKey.draw session.keyLength
  let replyWrapped ← liftM (Payload.wrap S (← Program.time) session replyKey)
  let reply ← liftM (Payload.encrypt S (← Program.time) session replyKey text)
  return (replyWrapped, reply)

def secureEcho (r : Request) : Program Response := do
  match contentText r with
  | .error u => return u.response
  | .ok payload =>
    match header r sessionHeader, header r dataKeyHeader with
    | .error refused, _ | _, .error refused => return refused
    | .ok sessionId, .ok wrapped =>
      match ← (echo S sessionId wrapped payload).run with
      | .ok (replyWrapped, reply) =>
        return (success Json.Codec.text reply).withHeader dataKeyHeader replyWrapped
      | .error e => return failure e.service

def localEncrypt (cipher : LocalText.Cipher) (r : Request) :
    Program (Response × LocalText.Cipher) := do
  match contentText r with
  | .error u => return (u.response, cipher)
  | .ok text =>
    let (whole, cipher) ← cipher.encrypt S text
    return (answer Json.Codec.text (whole.mapError .localText), cipher)

def localDecrypt (cipher : LocalText.Cipher) (r : Request) :
    Program (Response × LocalText.Cipher) := do
  match contentText r with
  | .error u => return (u.response, cipher)
  | .ok whole =>
    let (text, cipher) ← cipher.decrypt S (Text.trim whole)
    return (answer Json.Codec.text (text.mapError .localText), cipher)

/-- The gateway is ready once the local keys are loaded and the default pair is there. -/
def health (engine : Engine) (cipher : LocalText.Cipher) : Program Response := do
  let pairReady := match ← (engine.has none).run with
    | .ok there => there
    | .error _ => false
  let sessions ← Program.sessionCount
  let ready := cipher.isReady && pairReady
  return envelope Health.codec (if ready then 200 else 503) (.success
    { status := if ready then "ok" else "degraded", localCipherReady := cipher.isReady,
      keyPairReady := pairReady, sessions })

def notFound : Response := failure (.notFound "the requested resource does not exist")

end Gateway

end KeyService
