import KeyService.Exchange.Error
import KeyService.LocalText.Error
import KeyService.ServiceError

/-! Every failure of the service in one type, and what a caller is told of it. -/
namespace KeyService

namespace Payload

inductive Error where
  | malformed
  | badDataKey
  deriving DecidableEq

def Error.message : Error → String
  | malformed => "malformed transport payload"
  | badDataKey => "invalid data key"

end Payload

inductive Failure where
  | symmetric (cause : Symmetric.Error)
  | engine (cause : Engine.Error)
  | headerNotMatch
  | exchange (cause : Exchange.Error)
  | payload (cause : Payload.Error)
  | localText (cause : LocalText.Error)
  deriving DecidableEq

def Failure.message : Failure → String
  | symmetric cause => cause.message
  | engine cause => cause.message
  | headerNotMatch => LocalText.Error.headerNotMatch.message
  | exchange cause => cause.message
  | payload cause => cause.message
  | localText cause => cause.message

namespace KeyPair

/-- Details of a store's failure stay inside. -/
def Error.service : Error → ServiceError
  | missing id => .notFound ("key pair " ++ id)
  | badId id => .badRequest (Error.badId id).message
  | storage _ => .unavailable "key pair store unavailable"

end KeyPair

namespace Engine

def Error.service : Error → ServiceError
  | keyPair cause => cause.service
  | e@(invalidKey _) | e@(unsupported _ _) => .badRequest e.message
  | e@(mismatch _ _) | e@(generation _) => .internal e.message
  | e@encryption | e@decryption | e@signing => .cryptoFailure e.message

end Engine

namespace Exchange

def Error.service : Error → ServiceError
  | e@(invalidPublicKey _) | e@(unsupported _) | e@(stale _) | e@(endpointMismatch _ _) =>
    .badRequest e.message
  | e@(unknownSession _) | e@(expired _) => .negotiationRequired e.message
  | e@(unreachable _) | e@(rejected _ _) => .unavailable e.message
  | e@(verification _) | e@derivation => .cryptoFailure e.message
  | engine cause => cause.service

end Exchange

namespace LocalText

def Error.service : Error → ServiceError
  | e@headerNotMatch | e@malformed => .badRequest e.message
  | e@(symmetric _) | e@notUtf8 => .cryptoFailure e.message
  | e@(record _ _ _) | e@noScheme => .internal e.message
  | repository _ => .unavailable "crypto info repository unavailable"

end LocalText

def Failure.service : Failure → ServiceError
  | symmetric cause => .cryptoFailure cause.message
  | engine cause => cause.service
  | headerNotMatch => .badRequest Failure.headerNotMatch.message
  | exchange cause => cause.service
  | payload cause => .badRequest cause.message
  | localText cause => cause.service

end KeyService
