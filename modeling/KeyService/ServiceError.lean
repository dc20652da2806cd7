/-! What a caller of the service is told when something fails: one of six kinds, each
with a code for machines, a status of HTTP, and a text for people. -/
namespace KeyService

inductive ServiceError where
  | badRequest (text : String)
  | negotiationRequired (text : String)
  | notFound (text : String)
  | cryptoFailure (text : String)
  | unavailable (text : String)
  | internal (text : String)
  deriving DecidableEq, Repr

namespace ServiceError

def status : ServiceError → Nat
  | badRequest _ => 400
  | negotiationRequired _ => 401
  | notFound _ => 404
  | cryptoFailure _ => 500
  | unavailable _ => 503
  | internal _ => 500

def code : ServiceError → String
  | badRequest _ => "bad_request"
  | negotiationRequired _ => "negotiation_required"
  | notFound _ => "not_found"
  | cryptoFailure _ => "crypto_failure"
  | unavailable _ => "service_unavailable"
  | internal _ => "internal_error"

def message : ServiceError → String
  | badRequest text => "bad request: " ++ text
  | negotiationRequired text => "negotiation required: " ++ text
  | notFound text => "not found: " ++ text
  | cryptoFailure text => "crypto failure: " ++ text
  | unavailable text => "service unavailable: " ++ text
  | internal text => "internal error: " ++ text

end ServiceError

end KeyService
