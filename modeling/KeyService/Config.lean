import KeyService.Symmetric.Algorithm
import KeyService.Text.Quoted

/-! The settings of the gateway, from the variables of its environment.
Names are compared without regard to letter case. A setting that is not there has its
usual value, unless it is one that must be given. What the settings mean is checked
after all of them have been read, in a fixed order; the first fault is told. -/
namespace KeyService

inductive StoreKind where
  | memory
  | directory
  | database
  deriving DecidableEq, Repr

namespace StoreKind

def name : StoreKind → String
  | memory => "Memory"
  | directory => "File"
  | database => "Sqlite"

def ofName? (s : String) : Option StoreKind :=
  [memory, directory, database].find? fun k => Text.sameLetters s k.name

end StoreKind

structure Config where
  appId : String
  localSecret : String
  port : UInt16
  negotiationPath : String
  publicKeyPath : String
  sessionSeconds : Nat
  skewSeconds : Nat
  transportName : String
  transportBits : UInt16
  defaultPairId : String
  pairStore : StoreKind
  pairStorePath : Option String
  recordStore : StoreKind
  recordStorePath : Option String
  peerUrl : Option String
  timeoutSeconds : Nat
  logLevel : String
  tracesUrl : Option String
  deriving DecidableEq, Repr

namespace Config

inductive Error where
  | missing (name : String)
  | unfit (name : String)
  | blank (name : String)
  | badPath (name value : String)
  | samePaths
  | zero (name : String)
  | badCipher (cause : Symmetric.Error)
  | notChained (algorithm : Symmetric.Algorithm)
  deriving DecidableEq

def Error.message : Error → String
  | missing name => "failed to deserialise configuration: missing " ++ name
  | unfit name => "failed to deserialise configuration: unexpected value of " ++ name
  | blank name => name ++ " is required and must not be empty"
  | badPath name value => name ++ " must be a concrete absolute path, got " ++ Text.quoted value
  | samePaths => "NEGOTIATION_PATH and PUBLIC_KEY_PATH must differ"
  | zero name => name ++ " must be > 0"
  | badCipher cause => "TRANSPORT_ALGORITHM / TRANSPORT_KEY_BITS invalid: " ++ cause.message
  | notChained algorithm => "TRANSPORT_ALGORITHM must be a CBC cipher, got " ++ algorithm.display

abbrev Environment := List (String × String)

/-- Lower case for the letters that names are made of. The sign for kelvin counts as a K. -/
def lowerName (s : String) : String :=
  String.ofList (s.toList.map fun c => if c = '\u212A' then 'k' else c.toLower)

def find? (env : Environment) (name : String) : Option String :=
  (env.reverse.find? fun v => lowerName v.1 = lowerName name).map Prod.snd

/-- The number that a value stands for: digits, with a plus sign or without, or a word for one or
zero. -/
def number? (s : String) : Option Nat :=
  let word := Text.lower s
  if word ∈ ["true", "on", "yes"] then some 1
  else if word ∈ ["false", "off", "no"] then some 0
  else
    let digits := match s.toList with
      | '+' :: rest => rest
      | cs => cs
    if digits ≠ [] && digits.all Char.isDigit then
      some (digits.foldl (fun n c => n * 10 + (c.toNat - 48)) 0)
    else none

def number (env : Environment) (name : String) (limit usual : Nat) : Except Error Nat :=
  match find? env name with
  | none => .ok usual
  | some value =>
    match number? value with
    | some n => if n < limit then .ok n else .error (.unfit name)
    | none => .error (.unfit name)

def store (env : Environment) (name : String) : Except Error StoreKind :=
  match find? env name with
  | none => .ok .memory
  | some value =>
    match StoreKind.ofName? value with
    | some kind => .ok kind
    | none => .error (.unfit name)

def required (env : Environment) (name : String) : Except Error String :=
  match find? env name with
  | some value => .ok value
  | none => .error (.missing name)

def read (env : Environment) : Except Error Config := do
  return {
    appId := ← required env "APP_ID"
    localSecret := ← required env "LOCAL_CRYPTO_SECRET"
    port := .ofNat (← number env "LISTEN_PORT" UInt16.size 8080)
    negotiationPath := (find? env "NEGOTIATION_PATH").getD "/security/negotiate"
    publicKeyPath := (find? env "PUBLIC_KEY_PATH").getD "/security/publicKey"
    sessionSeconds := ← number env "SESSION_TTL_SECS" UInt64.size 1800
    skewSeconds := ← number env "MAX_CLOCK_SKEW_SECS" UInt64.size 300
    transportName := (find? env "TRANSPORT_ALGORITHM").getD "AES/CBC/PKCS5Padding"
    transportBits := .ofNat (← number env "TRANSPORT_KEY_BITS" UInt16.size 256)
    defaultPairId := (find? env "DEFAULT_KEY_PAIR_ID").getD "default"
    pairStore := ← store env "KEY_PAIR_STORE"
    pairStorePath := find? env "KEY_PAIR_STORE_PATH"
    recordStore := ← store env "CRYPTO_INFO_STORE"
    recordStorePath := find? env "CRYPTO_INFO_STORE_PATH"
    peerUrl := find? env "PEER_BASE_URL"
    timeoutSeconds := ← number env "NEGOTIATION_TIMEOUT_SECS" UInt64.size 10
    logLevel := (find? env "LOG_LEVEL").getD "info"
    tracesUrl := find? env "OTEL_EXPORTER_OTLP_ENDPOINT" }

def checkGiven (name value : String) : Except Error Unit :=
  if Text.trim value = "" then .error (.blank name) else .ok ()

/-- Refuse a path that is not absolute, or might be a pattern. -/
def checkPath (name value : String) : Except Error Unit :=
  if Text.startsWith value "/" && !value.toList.contains '*' then .ok ()
  else .error (.badPath name value)

def checkPositive (name : String) (value : Nat) : Except Error Unit :=
  if value = 0 then .error (.zero name) else .ok ()

def checkStore (kind : StoreKind) (name : String) (path : Option String) : Except Error Unit :=
  match kind with
  | .memory => .ok ()
  | .directory | .database => checkGiven name (path.getD "")

def transport (c : Config) : Except Error Symmetric.Algorithm := do
  let algorithm ← (Symmetric.Algorithm.ofName c.transportName c.transportBits).mapError .badCipher
  if algorithm.mode = .cbc then return algorithm else throw (.notChained algorithm)

def check (c : Config) : Except Error Unit := do
  checkGiven "APP_ID" c.appId
  checkGiven "LOCAL_CRYPTO_SECRET" c.localSecret
  checkGiven "DEFAULT_KEY_PAIR_ID" c.defaultPairId
  checkPath "NEGOTIATION_PATH" c.negotiationPath
  checkPath "PUBLIC_KEY_PATH" c.publicKeyPath
  if c.negotiationPath = c.publicKeyPath then throw .samePaths
  checkPositive "SESSION_TTL_SECS" c.sessionSeconds
  checkPositive "NEGOTIATION_TIMEOUT_SECS" c.timeoutSeconds
  let _ ← c.transport
  checkStore c.pairStore "KEY_PAIR_STORE_PATH" c.pairStorePath
  checkStore c.recordStore "CRYPTO_INFO_STORE_PATH" c.recordStorePath

def ofEnvironment (env : Environment) : Except Error Config := do
  let c ← read env
  check c
  return c

end Config

end KeyService
