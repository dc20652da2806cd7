import KeyService.Digest.Hmac
import KeyService.Exchange.Error
import KeyService.Symmetric.Algorithm

/-! What both parties compute from an exchange: the session's keys, and the text that
the responder signs. -/
namespace KeyService.Exchange

def label : Bytes :=
  [0x73, 0x68, 0x6F, 0x75, 0x6C, 0x64, 0x65, 0x72, 0x2D, 0x6B, 0x65, 0x79, 0x2D, 0x65, 0x78, 0x63,
    0x68, 0x61, 0x6E, 0x67, 0x65]

/-- The key and the initialisation vector of a session. The token is the salt, and the number of
bits is part of the purpose, so keys of different lengths have nothing in common. -/
def deriveKey (shared token : Bytes) (bits : UInt16) : Except Error (Bytes × Bytes) :=
  match Symmetric.KeySize.ofBits? bits with
  | none => .error (.unsupported ("key length " ++ toString bits.toNat))
  | some size =>
    match Hkdf.derive? token shared (label ++ Bytes.ofNat 2 bits.toNat) (size.bytes + 16) with
    | none => .error .derivation
    | some whole => .ok (whole.take size.bytes, whole.drop size.bytes)

/-- What is signed: the session's id, end and key length, the two public keys and the token, with
bars between them. -/
def transcript (id : String) (expireTime : Int64) (keyLength : UInt16)
    (initiatorKey responderKey token : String) : String :=
  String.intercalate "|" [id, toString expireTime.toInt, toString keyLength.toNat, initiatorKey,
    responderKey, token]

end KeyService.Exchange
