import KeyService.Engine.Ecies
import KeyService.Engine.KeyText
import KeyService.Program

/-! Engines: asymmetric operations with the pairs of a store.
An engine is bound to one algorithm and knows the id of its default pair. An
operation names a pair by its id, or means the default pair. The default pair is
made when it is first needed and missing; every other pair has to be there. -/
namespace KeyService

structure Engine where
  algorithm : Engine.Algorithm
  defaultId : String
  deriving DecidableEq

namespace Engine

abbrev Act := ExceptT Error Program

def describe (e : Engine) : String :=
  "AsymmetricCipher \x7b algorithm: " ++ e.algorithm.describe ++ ", default_key_pair_id: "
    ++ Text.quoted e.defaultId ++ ", .. \x7d"

def keep (id : String) (pair : KeyPair) : Act Unit := ExceptT.mk do
  return (← Program.setPair id pair).mapError .keyPair

variable (S : Suite)

def fresh : Algorithm → Act KeyPair
  | .elliptic => do
    let seed ← Program.draw 48
    return curvePair S (S.curve.secretOf seed)
  | .rsa bits => do
    let seed ← Program.draw 64
    match S.rsa.generate bits seed with
    | .ok secret => return rsaPair S bits secret
    | .error complaint => throw (.generation complaint)

def generate (e : Engine) (id : String) : Act KeyPair := do
  let pair ← fresh S e.algorithm
  keep id pair
  return pair

/-- The default pair, made if it is missing. Only one caller makes it: those who waited look
again. -/
def generateDefault (e : Engine) : Act KeyPair := ExceptT.mk <| Program.alone do
  match ← Program.getPair e.defaultId with
  | .ok pair => return .ok pair
  | .error (.missing _) => (generate S e e.defaultId).run
  | .error cause => return .error (.keyPair cause)

def checkFamily (e : Engine) (pair : KeyPair) : Except Error KeyPair :=
  if pair.algorithm = e.algorithm.family then .ok pair
  else .error (.mismatch e.algorithm.family pair.algorithm)

def resolve (e : Engine) (id : Option String) : Act KeyPair := do
  let id := id.getD e.defaultId
  let pair ← (do
    match ← Program.getPair id with
    | .ok pair => return pair
    | .error (.missing missing) =>
      if id = e.defaultId then generateDefault S e else throw (.keyPair (.missing missing))
    | .error cause => throw (.keyPair cause) : Act KeyPair)
  liftM (e.checkFamily pair)

def has (e : Engine) (id : Option String) : Act Bool := ExceptT.mk do
  match ← Program.getPair (id.getD e.defaultId) with
  | .ok _ => return .ok true
  | .error (.missing _) => return .ok false
  | .error cause => return .error (.keyPair cause)

def publicKey (e : Engine) (id : Option String) : Act String := do
  return (← resolve S e id).publicKey

def encryptWith (e : Engine) (publicKey : String) (text : Bytes) : Act Bytes := do
  match e.algorithm with
  | .elliptic =>
    let recipient ← liftM (curvePublic S publicKey)
    let seed ← Program.draw 48
    let nonce ← Program.draw 12
    liftM (Ecies.encrypt S recipient (S.curve.secretOf seed) nonce text)
  | .rsa _ =>
    let recipient ← liftM (rsaPublic S publicKey)
    let seed ← Program.draw 32
    match S.rsa.encrypt? recipient seed text with
    | some whole => return whole
    | none => throw .encryption

def encrypt (e : Engine) (id : Option String) (text : Bytes) : Act Bytes := do
  let pair ← resolve S e id
  encryptWith S e pair.publicKey text

def decrypt (e : Engine) (id : Option String) (whole : Bytes) : Act Bytes := do
  let pair ← resolve S e id
  match e.algorithm with
  | .elliptic => liftM (do Ecies.decrypt S (← curveSecret S pair.privateKey) whole)
  | .rsa _ =>
    let secret ← liftM (rsaSecret S pair.privateKey)
    match S.rsa.decrypt? secret whole with
    | some text => return text
    | none => throw .decryption

def sign (e : Engine) (id : Option String) (message : Bytes) : Act Bytes := do
  let pair ← resolve S e id
  match e.algorithm with
  | .elliptic => return S.curve.sign (← liftM (curveSecret S pair.privateKey)) message
  | .rsa _ =>
    let secret ← liftM (rsaSecret S pair.privateKey)
    match S.rsa.sign? secret message with
    | some signature => return signature
    | none => throw .signing

def verifyWith (e : Engine) (publicKey : String) (message signature : Bytes) :
    Except Error Bool :=
  match e.algorithm with
  | .elliptic => do return S.curve.verify (← curvePublic S publicKey) message signature
  | .rsa _ => do return S.rsa.verify (← rsaPublic S publicKey) message signature

def verify (e : Engine) (id : Option String) (message signature : Bytes) : Act Bool := do
  let pair ← resolve S e id
  liftM (e.verifyWith S pair.publicKey message signature)

def agree (e : Engine) (id : Option String) (peer : S.curve.PublicKey) : Act Bytes := do
  match e.algorithm with
  | .rsa _ => throw (.unsupported "key agreement" e.algorithm)
  | .elliptic =>
    let pair ← resolve S e id
    return S.curve.agree (← liftM (curveSecret S pair.privateKey)) peer

end Engine

end KeyService
