import KeyService.Json.Codec
import KeyService.Text.Quoted

/-! Key pairs as they are stored and shown.
Both halves are base64 text: the public key in the SPKI form, the private key in
the PKCS #8 form. A pair is stored under an id; ids are short names that are safe
as file names. -/
namespace KeyService

structure KeyPair where
  algorithm : String
  publicKey : String
  privateKey : String
  deriving DecidableEq, Repr

namespace KeyPair

inductive Error where
  | missing (id : String)
  | badId (id : String)
  | storage (detail : String)
  deriving DecidableEq, Repr

def Error.message : Error → String
  | missing id => "no such key pair: " ++ id
  | badId id => "invalid key pair id: " ++ Text.quoted id
  | storage detail => "key pair storage failure: " ++ detail

def isIdChar (c : Char) : Bool := c.isAlphanum || c == '.' || c == '_' || c == '-'

/-- An id has one to 128 letters, digits, points, underscores and hyphens, and is not one of
the two names that mean a directory. -/
def isId (id : String) : Bool :=
  id ≠ "" && id.utf8ByteSize ≤ 128 && id.toList.all isIdChar && id ≠ "." && id ≠ ".."

def checkId (id : String) : Except Error Unit :=
  if isId id then .ok () else .error (.badId id)

def codec : Json.Codec KeyPair where
  write p := .object [("algorithm", .text p.algorithm), ("publicKey", .text p.publicKey),
    ("privateKey", .text p.privateKey)]
  shape := Json.Reader.record [.required "algorithm" Json.Reader.text,
    .required "publicKey" Json.Reader.text, .required "privateKey" Json.Reader.text]
  make?
    | .object [(_, .text algorithm), (_, .text publicKey), (_, .text privateKey)] =>
      some ⟨algorithm, publicKey, privateKey⟩
    | _ => none

def describe (p : KeyPair) : String :=
  "KeyPairDto \x7b algorithm: " ++ Text.quoted p.algorithm ++ ", public_key: "
    ++ Text.quoted p.publicKey ++ ", private_key: \"[REDACTED]\" \x7d"

end KeyPair

end KeyService
