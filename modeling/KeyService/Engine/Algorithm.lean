import KeyService.KeyPair.Basic
import KeyService.Text.Blank

/-! The two families of asymmetric algorithms, and what can go wrong with them. -/
namespace KeyService.Engine

inductive Algorithm where
  | elliptic
  | rsa (bits : Nat)
  deriving DecidableEq, Repr

namespace Algorithm

def family : Algorithm → String
  | elliptic => "EC"
  | rsa _ => "RSA"

def display : Algorithm → String
  | elliptic => "EC(P-256)"
  | rsa bits => "RSA(" ++ toString bits ++ ")"

def describe : Algorithm → String
  | elliptic => "Ec"
  | rsa bits => "Rsa \x7b bits: " ++ toString bits ++ " \x7d"

end Algorithm

inductive Error where
  | keyPair (cause : KeyPair.Error)
  | invalidKey (detail : String)
  | mismatch (expected found : String)
  | unsupported (operation : String) (algorithm : Algorithm)
  | generation (detail : String)
  | encryption
  | decryption
  | signing
  deriving DecidableEq, Repr

def Error.message : Error → String
  | keyPair cause => cause.message
  | invalidKey detail => "invalid key: " ++ detail
  | mismatch expected found =>
    "key pair algorithm mismatch: expected " ++ expected ++ ", found " ++ found
  | unsupported operation algorithm =>
    operation ++ " is not supported with " ++ algorithm.display
  | generation detail => "key generation failed: " ++ detail
  | encryption => "asymmetric encryption failed"
  | decryption => "asymmetric decryption failed"
  | signing => "signing failed"

/-- The algorithm of a name, up to white space around it and the case of its letters. -/
def Algorithm.ofName (name : String) : Except Error Algorithm :=
  let known := Text.upper (Text.trim name)
  if known = "EC" ∨ known = "ECC" ∨ known = "ECDSA" ∨ known = "P-256" then .ok elliptic
  else if known = "RSA" then .ok (rsa 2048)
  else .error (.invalidKey ("unknown asymmetric algorithm " ++ known))

end KeyService.Engine
