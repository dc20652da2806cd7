import KeyService.Symmetric.Algorithm

/-! Why a text at rest was not encrypted or decrypted. -/
namespace KeyService.LocalText

inductive Error where
  | headerNotMatch
  | symmetric (cause : Symmetric.Error)
  | malformed
  | notUtf8
  /-- A stored record cannot be used: another secret, or broken fields. -/
  | record (appId markHeader reason : String)
  | noScheme
  | repository (detail : String)
  deriving DecidableEq, Repr

def Error.message : Error → String
  | headerNotMatch => "no local cipher scheme matches the ciphertext header"
  | symmetric cause => cause.message
  | malformed => "malformed local ciphertext"
  | notUtf8 => "decrypted text is not valid UTF-8"
  | record appId markHeader reason =>
    "invalid crypto meta info for " ++ appId ++ "/" ++ markHeader ++ ": " ++ reason
  | noScheme => "no local cipher scheme registered"
  | repository detail => "crypto info repository failure: " ++ detail

end KeyService.LocalText
