import KeyService.Engine.Algorithm

/-! Why a key exchange failed, or a session cannot be used. -/
namespace KeyService.Exchange

inductive Error where
  | invalidPublicKey (detail : String)
  | unsupported (what : String)
  | stale (skew : Int64)
  | endpointMismatch (path pattern : String)
  | unreachable (detail : String)
  | rejected (code msg : String)
  | verification (detail : String)
  | unknownSession (id : String)
  | expired (id : String)
  | engine (cause : Engine.Error)
  | derivation
  deriving DecidableEq

def Error.message : Error → String
  | invalidPublicKey detail => "invalid public key: " ++ detail
  | unsupported what => "unsupported negotiation parameter: " ++ what
  | stale skew =>
    "request timestamp outside the allowed skew (" ++ toString skew.toInt ++ " ms)"
  | endpointMismatch path pattern =>
    "path " ++ path ++ " does not match negotiation endpoint " ++ pattern
  | unreachable detail => "negotiation endpoint unreachable: " ++ detail
  | rejected code msg => "negotiation rejected (" ++ code ++ "): " ++ msg
  | verification detail => "negotiation response verification failed: " ++ detail
  | unknownSession id => "unknown session " ++ id
  | expired id => "session " ++ id ++ " has expired"
  | engine cause => cause.message
  | derivation => "session key derivation failed"

end KeyService.Exchange
