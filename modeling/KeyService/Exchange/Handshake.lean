import KeyService.Exchange.Endpoint
import KeyService.Exchange.Responder

/-! The initiating side of a key exchange.
A handshake sends one request, with a key made for it alone. The answer has to come
from the responder that was meant, for this very request: it names the responder's
key and the length asked for, and its signature covers everything that the session
depends on. A handshake is used once. -/
namespace KeyService.Exchange

structure Initiator where
  endpoint : Endpoint
  algorithm : Symmetric.Algorithm
  deriving DecidableEq

structure Pending (S : Suite) where
  request : Request
  responder : S.curve.PublicKey
  key : Bytes
  iv : Bytes

namespace Initiator

variable (S : Suite)

/-- Make a request to the responder whose public key is given. Nothing is drawn before key and
address have been checked. -/
def prepare (i : Initiator) (url responderKey : String) (keyPairId : Option String) :
    Act (Pending S) := do
  let responder ← liftM (Responder.readKey S responderKey)
  liftM (i.endpoint.check url)
  let secret := S.curve.secretOf (← Program.draw 48)
  let token ← Program.draw tokenLength
  let keyLength := i.algorithm.size.bits
  let (key, iv) ← liftM (deriveKey (S.curve.agree secret responder) token keyLength)
  let timestamp ← Program.time
  let request : Request :=
    { publicKey := Engine.curvePublicText S (S.curve.publicOf secret),
      keyExchangeAlgorithm := kindName, keyLength, algorithm := i.algorithm.name,
      token := Base64.standard.encode token, timestamp, keyPairId }
  return ⟨request, responder, key, iv⟩

def covered (request : Request) (response : Response) : String :=
  transcript response.sessionId response.expireTime response.keyLength request.publicKey
    response.publicKey request.token

def verify (request : Request) (responder : S.curve.PublicKey) (response : Response) :
    Except Error Unit := do
  let echoed ← (Engine.curvePublic S response.publicKey).mapError fun e => .verification e.message
  if echoed ≠ responder then
    .error (.verification "responder answered with another public key")
  else if response.keyLength ≠ request.keyLength then
    .error (.verification ("key length " ++ toString response.keyLength.toNat
      ++ " does not match requested " ++ toString request.keyLength.toNat))
  else
    match Base64.standard.decode? response.signature with
    | none => .error (.verification "signature is not base64")
    | some signature =>
      if S.curve.verify responder (Bytes.ofText (covered request response)) signature then .ok ()
      else .error (.verification "bad transcript signature")

def accept (p : Pending S) (response : Response) : Except Error Session := do
  verify S p.request p.responder response
  return ⟨response.publicKey, response.sessionId, p.key, p.iv, p.request.keyLength,
    response.expireTime⟩

end Initiator

inductive Handshake where
  | init
  | requested
  | negotiated
  | failed
  deriving DecidableEq

namespace Handshake

def name : Handshake → String
  | init => "Init"
  | requested => "Requested"
  | negotiated => "Negotiated"
  | failed => "Failed"

variable (S : Suite)

def request (i : Initiator) (h : Handshake) (url responderKey : String)
    (keyPairId : Option String) : Program (Except Error (Pending S) × Handshake) := do
  match h with
  | .init =>
    match ← (i.prepare S url responderKey keyPairId).run with
    | .ok pending => return (.ok pending, .requested)
    | .error e => return (.error e, .failed)
  | used => return (.error (.verification ("handshake already " ++ used.name)), used)

/-- The second half: what came back for the request. A session is kept if the answer is
accepted. -/
def receive (p : Pending S) (answer : Except Error Response) :
    Program (Except Error Session × Handshake) := do
  match answer.bind (Initiator.accept S p) with
  | .ok session =>
    Program.setSession session
    return (.ok session, .negotiated)
  | .error e => return (.error e, .failed)

def negotiate (i : Initiator) (h : Handshake) (url responderKey : String)
    (keyPairId : Option String) : Program (Except Error Session × Handshake) := do
  let (pending, h) ← request S i h url responderKey keyPairId
  match pending with
  | .ok pending => receive S pending (← Program.send url pending.request)
  | .error e => return (.error e, h)

end Handshake

namespace Initiator

variable (S : Suite)

def negotiate (i : Initiator) (url responderKey : String) (keyPairId : Option String) :
    Act Session := ExceptT.mk do
  return (← Handshake.negotiate S i .init url responderKey keyPairId).1

def discover (i : Initiator) (url keyUrl : String) (keyPairId : Option String) : Act Session := do
  let responderKey ← ExceptT.mk (Program.getKey keyUrl)
  i.negotiate S url responderKey keyPairId

end Initiator

end KeyService.Exchange
