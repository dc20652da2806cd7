import KeyService.Bytes.Base64
import KeyService.Engine.Algorithm
import KeyService.Suite

/-! Keys as texts: the base64 of their documents.
White space around a public key does not count; a secret key is read as it is. -/
namespace KeyService.Engine

def ofText {α : Type} (text notBase64 notKey : String) (decode? : Bytes → Option α) :
    Except Error α :=
  match Base64.standard.decode? text with
  | none => .error (.invalidKey notBase64)
  | some document =>
    match decode? document with
    | none => .error (.invalidKey notKey)
    | some key => .ok key

variable (S : Suite)

def curvePublic (text : String) : Except Error S.curve.PublicKey :=
  ofText (Text.trim text) "public key is not base64" "not a P-256 SPKI public key"
    S.curve.decodePublic?

def curveSecret (text : String) : Except Error S.curve.SecretKey :=
  ofText text "private key is not base64" "not a P-256 PKCS#8 private key" S.curve.decodeSecret?

def rsaPublic (text : String) : Except Error S.rsa.PublicKey :=
  ofText (Text.trim text) "public key is not base64" "not an RSA SPKI public key"
    S.rsa.decodePublic?

def rsaSecret (text : String) : Except Error S.rsa.SecretKey :=
  ofText text "private key is not base64" "not an RSA PKCS#8 private key" S.rsa.decodeSecret?

def curvePublicText (key : S.curve.PublicKey) : String :=
  Base64.standard.encode (S.curve.encodePublic key)

def curvePair (secret : S.curve.SecretKey) : KeyPair where
  algorithm := Algorithm.elliptic.family
  publicKey := curvePublicText S (S.curve.publicOf secret)
  privateKey := Base64.standard.encode (S.curve.encodeSecret secret)

def rsaPair (bits : Nat) (secret : S.rsa.SecretKey) : KeyPair where
  algorithm := (Algorithm.rsa bits).family
  publicKey := Base64.standard.encode (S.rsa.encodePublic (S.rsa.publicOf secret))
  privateKey := Base64.standard.encode (S.rsa.encodeSecret secret)

end KeyService.Engine
