import KeyService.Engine.Basic
import KeyService.Exchange.Derivation
import KeyService.Text.Uuid

/-! The responding side of a key exchange.
A request is checked before any key is used: its kind, its cipher, its clock, its
public key and its token. Then the responder agrees on the session's keys with its
pair, signs the transcript, and keeps the session. The pair is looked up anew whenever
it is needed. A refused request leaves no session behind. -/
namespace KeyService.Exchange

abbrev Act := ExceptT Error Program

/-- A length of time: whole seconds, and the nanoseconds of a further one. -/
structure Seconds where
  whole : Nat
  nanos : Fin 1000000000 := 0
  deriving DecidableEq

namespace Seconds

instance (n : Nat) : OfNat Seconds n := ⟨⟨n, 0⟩⟩
instance : Coe Nat Seconds := ⟨fun n => ⟨n, 0⟩⟩

/-- What is below a millisecond does not count. -/
def toMillis (s : Seconds) : Nat := s.whole * 1000 + s.nanos.val / 1000000

end Seconds

/-- Milliseconds in sixty-four bits; a longer time is the longest there is. -/
def millis (s : Seconds) : Int64 := Int64.ofInt (min s.toMillis Int64.maxValue.toInt)

def later (now span : Int64) : Int64 := Int64.ofInt (min (now.toInt + span.toInt) Int64.maxValue.toInt)

structure Responder where
  engine : Engine
  sessionSeconds : Seconds
  skewSeconds : Seconds
  deriving DecidableEq

def kindName : String := "ECDH"

def tokenLength : Nat := 16

/-- What a responder is about to promise: a session, and the public key it answers with. -/
structure Offer where
  publicKey : String
  session : Session
  deriving DecidableEq

namespace Offer

def text (o : Offer) (request : Request) : String :=
  transcript o.session.id o.session.expireTime o.session.keyLength request.publicKey o.publicKey
    request.token

def answer (o : Offer) (request : Request) (signature : Bytes) : Response where
  publicKey := o.publicKey
  sessionId := o.session.id
  expireTime := o.session.expireTime
  keyLength := o.session.keyLength
  algorithm := request.algorithm
  signature := Base64.standard.encode signature

end Offer

namespace Responder

/-- The kind and the cipher of a request. Session keys come with an initialisation vector for a
chain of blocks, so no other mode will do. -/
def checkCipher (request : Request) : Except Error Unit :=
  if !Text.sameLetters request.keyExchangeAlgorithm kindName then
    .error (.unsupported ("key exchange algorithm " ++ request.keyExchangeAlgorithm))
  else
    match Symmetric.Algorithm.ofName request.algorithm request.keyLength with
    | .error e => .error (.unsupported e.message)
    | .ok algorithm =>
      if algorithm.mode = .cbc then .ok ()
      else .error (.unsupported ("transport algorithm " ++ algorithm.display ++ " has no IV"))

/-- How far two clocks are apart, in the arithmetic of sixty-four bits. -/
def skew (now timestamp : Int64) : Int64 :=
  let difference := now - timestamp
  if difference < 0 then -difference else difference

def checkClock (r : Responder) (now timestamp : Int64) : Except Error Unit :=
  if millis r.skewSeconds < skew now timestamp then .error (.stale (skew now timestamp)) else .ok ()

/-- The difference of two clocks, and then its size, should fit into sixty-four bits. -/
def compare (now timestamp : Int64) : Program Unit := do
  Program.within (now.toInt - timestamp.toInt)
  Program.within (now - timestamp).toInt.natAbs

/-- The parameters of a request, the clock being read once. -/
def validate (r : Responder) (request : Request) : Act Unit := do
  liftM (checkCipher request)
  let now ← Program.time
  liftM (compare now request.timestamp)
  liftM (r.checkClock now request.timestamp)

def readToken (token : String) : Except Error Bytes :=
  match Base64.standard.decode? token with
  | none => .error (.unsupported "token is not base64")
  | some bs =>
    if bs.length < tokenLength then
      .error (.unsupported ("token shorter than " ++ toString tokenLength ++ " bytes"))
    else .ok bs

variable (S : Suite)

def readKey (text : String) : Except Error S.curve.PublicKey :=
  (Engine.curvePublic S text).mapError fun e => .invalidPublicKey e.message

def byEngine {α : Type} (work : Engine.Act α) : Act α := ExceptT.mk do
  return (← work.run).mapError .engine

def publicKey (r : Responder) (id : Option String) : Act String :=
  byEngine (r.engine.publicKey S id)

/-- Check a request and settle a session for it. The key pair is looked up for the agreement and
for the public key in the answer. -/
def settle (r : Responder) (request : Request) : Act Offer := do
  r.validate request
  let initiator ← liftM (readKey S request.publicKey)
  let token ← liftM (readToken request.token)
  let shared ← byEngine (r.engine.agree S request.keyPairId initiator)
  let publicKey ← publicKey S r request.keyPairId
  let (key, iv) ← liftM (deriveKey shared token request.keyLength)
  let id := Text.uuid (← Program.draw 16)
  let expireTime := later (← Program.time) (millis r.sessionSeconds)
  return ⟨publicKey, ⟨request.publicKey, id, key, iv, request.keyLength, expireTime⟩⟩

/-- Answer a request and keep the session that was settled. The key pair is looked up once more
for the signature. -/
def respond (r : Responder) (request : Request) : Act Response := do
  let offer ← settle S r request
  let signature ← byEngine (r.engine.sign S request.keyPairId (Bytes.ofText (offer.text request)))
  Program.setSession offer.session
  return offer.answer request signature

end Responder

end KeyService.Exchange
