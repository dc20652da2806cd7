import KeyService.Failure

/-! The names of kinds of failures, as logs and counters use them.
A failure that comes from a deeper part has the name of the part it passed through in
front of its own. -/
namespace KeyService

def Symmetric.Error.kind : Symmetric.Error → String
  | unsupported _ => "Symmetric.Unsupported"
  | keyLength _ _ => "Symmetric.InvalidKeyLength"
  | ivLength _ _ => "Symmetric.InvalidIvLength"
  | unaligned _ => "Symmetric.UnalignedInput"
  | malformed => "Symmetric.MalformedCiphertext"
  | padding => "Symmetric.Padding"
  | authentication => "Symmetric.Authentication"

def KeyPair.Error.kind : KeyPair.Error → String
  | missing _ => "KeyPair.NoSuchKeyPair"
  | badId _ => "KeyPair.InvalidId"
  | storage _ => "KeyPair.Storage"

def Engine.Error.kind : Engine.Error → String
  | keyPair cause => "Asymmetric." ++ cause.kind
  | invalidKey _ => "Asymmetric.InvalidKey"
  | mismatch _ _ => "Asymmetric.AlgorithmMismatch"
  | unsupported _ _ => "Asymmetric.Unsupported"
  | generation _ => "Asymmetric.KeyGeneration"
  | encryption => "Asymmetric.Encrypt"
  | decryption => "Asymmetric.Decrypt"
  | signing => "Asymmetric.Sign"

def Exchange.Error.kind : Exchange.Error → String
  | invalidPublicKey _ => "Negotiation.InvalidPublicKey"
  | unsupported _ => "Negotiation.UnsupportedParameter"
  | stale _ => "Negotiation.StaleRequest"
  | endpointMismatch _ _ => "Negotiation.EndpointMismatch"
  | unreachable _ => "Negotiation.Unreachable"
  | rejected _ _ => "Negotiation.Rejected"
  | verification _ => "Negotiation.Verification"
  | unknownSession _ => "Negotiation.UnknownSession"
  | expired _ => "Negotiation.Expired"
  | engine cause => "Negotiation." ++ cause.kind
  | derivation => "Negotiation.Derivation"

def Payload.Error.kind : Payload.Error → String
  | malformed => "Transport.MalformedPayload"
  | badDataKey => "Transport.InvalidDataKey"

def LocalText.Error.kind : LocalText.Error → String
  | headerNotMatch => "Local.HeaderNotMatch"
  | symmetric cause => "Local." ++ cause.kind
  | malformed => "Local.MalformedCiphertext"
  | notUtf8 => "Local.NotUtf8"
  | record _ _ _ => "Local.MetaInfo"
  | noScheme => "Local.NoScheme"
  | repository _ => "Local.Repository"

def Failure.kind : Failure → String
  | symmetric cause => cause.kind
  | engine cause => cause.kind
  | headerNotMatch => "HeaderNotMatch"
  | exchange cause => cause.kind
  | payload cause => cause.kind
  | localText cause => cause.kind

end KeyService
