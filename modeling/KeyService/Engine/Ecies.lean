import KeyService.Digest.Hmac
import KeyService.Engine.Algorithm
import KeyService.Symmetric.Cipher

/-! Encryption for the holder of a key on the curve.
The sender makes a key of its own, derives a symmetric key from what the two keys
share, and sends the point of its key, a nonce and the ciphertext in a row. The
point is also the salt of the derivation, so another point means another key. -/
namespace KeyService.Engine.Ecies

def purpose : Bytes := Bytes.ofText "ecies-p256-aes-256-gcm-siv"

def key (shared point : Bytes) : Bytes := Hkdf.derive point shared purpose 32

variable (S : Suite)

def encrypt (recipient : S.curve.PublicKey) (oneTime : S.curve.SecretKey) (nonce text : Bytes) :
    Except Error Bytes :=
  let point := S.curve.point (S.curve.publicOf oneTime)
  match Symmetric.Algorithm.aes256GcmSiv.encrypt S (key (S.curve.agree oneTime recipient) point)
      nonce text with
  | .ok whole => .ok (point ++ nonce ++ whole)
  | .error _ => .error .encryption

/-- Decrypt what was encrypted for a secret key: 65 bytes of point, twelve of nonce, and the
ciphertext. -/
def decrypt (secret : S.curve.SecretKey) (whole : Bytes) : Except Error Bytes :=
  if whole.length < 77 then .error .decryption
  else
    let point := whole.take 65
    let rest := whole.drop 65
    match S.curve.ofPoint? point with
    | none => .error .decryption
    | some sender =>
      match Symmetric.Algorithm.aes256GcmSiv.decrypt S (key (S.curve.agree secret sender) point)
          (rest.take 12) (rest.drop 12) with
      | .ok text => .ok text
      | .error _ => .error .decryption

end KeyService.Engine.Ecies
