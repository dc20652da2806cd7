import KeyService.Json.Codec

/-! The two messages of a key exchange. -/
namespace KeyService.Exchange

structure Request where
  publicKey : String
  keyExchangeAlgorithm : String
  keyLength : UInt16
  algorithm : String
  /-- Fresh random bytes in base64, which salt the derivation. -/
  token : String
  timestamp : Int64
  /-- The responder's key pair; its default pair if there is none. -/
  keyPairId : Option String
  deriving DecidableEq

structure Response where
  publicKey : String
  sessionId : String
  expireTime : Int64
  keyLength : UInt16
  algorithm : String
  /-- Signature over the transcript of the exchange, in base64. -/
  signature : String
  deriving DecidableEq

open Json.Reader (text integer optional)

def word16 : Json.Reader Json := integer 0 65535

def signed64 : Json.Reader Json := integer Int64.minValue.toInt Int64.maxValue.toInt

namespace Request

def pairId? : Json → Option (Option String)
  | .null => some none
  | .text id => some (some id)
  | _ => none

def codec : Json.Codec Request where
  write r := .object ([("publicKey", .text r.publicKey),
    ("keyExchangeAlgorithm", .text r.keyExchangeAlgorithm), ("keyLength", .number r.keyLength.toNat),
    ("algorithm", .text r.algorithm), ("token", .text r.token),
    ("timestamp", .number r.timestamp.toInt)]
    ++ Json.optionalMember "keyPairId" (r.keyPairId.map .text))
  shape := Json.Reader.record [.required "publicKey" text, .required "keyExchangeAlgorithm" text,
    .required "keyLength" word16, .required "algorithm" text, .required "token" text,
    .required "timestamp" signed64, ⟨"keyPairId", optional text, true, true⟩]
  make?
    | .object [(_, .text publicKey), (_, .text kind), (_, .number bits), (_, .text algorithm),
        (_, .text token), (_, .number timestamp), (_, id)] => do
      let keyPairId ← pairId? id
      return ⟨publicKey, kind, UInt16.ofNat bits.toNat, algorithm, token, Int64.ofInt timestamp,
        keyPairId⟩
    | _ => none

end Request

def Response.codec : Json.Codec Response where
  write r := .object [("publicKey", .text r.publicKey), ("xSessionId", .text r.sessionId),
    ("expireTime", .number r.expireTime.toInt), ("keyLength", .number r.keyLength.toNat),
    ("algorithm", .text r.algorithm), ("signature", .text r.signature)]
  shape := Json.Reader.record [.required "publicKey" text, .required "xSessionId" text,
    .required "expireTime" signed64, .required "keyLength" word16, .required "algorithm" text,
    .required "signature" text]
  make?
    | .object [(_, .text publicKey), (_, .text sessionId), (_, .number expireTime),
        (_, .number bits), (_, .text algorithm), (_, .text signature)] =>
      some ⟨publicKey, sessionId, Int64.ofInt expireTime, UInt16.ofNat bits.toNat, algorithm,
        signature⟩
    | _ => none

end KeyService.Exchange
