import KeyService.Block.Aes
import KeyService.Curve.Document
import KeyService.Curve.Signature
import KeyService.Rsa.Generate
import KeyService.Rsa.Padding
import KeyService.Suite

/-! The primitives that the service runs with. -/
namespace KeyService.Suite

def p256 : CurveScheme where
  PublicKey := Curve.Point
  SecretKey := Curve.Secret
  decEqPublicKey := inferInstance
  secretOf := Curve.Secret.ofBytes
  publicOf := Curve.publicOf
  agree secret peer := Bytes.ofNat 32 (((peer.times? secret.number).map Curve.Point.x).getD 0)
  sign secret message := (Curve.Signature.sign secret message).write
  verify key message signature :=
    match Curve.Signature.read? signature with
    | some g => g.check key message
    | none => false
  encodePublic := Curve.writePublic
  decodePublic? := Curve.readPublic?
  encodeSecret := Curve.writeSecret
  decodeSecret? := Curve.readSecret?
  point := Curve.writePoint
  ofPoint? := Curve.readPoint?

def rsaSha256 : RsaScheme where
  PublicKey := Rsa.PublicKey
  SecretKey := Rsa.SecretKey
  generate := Rsa.generate
  publicOf := Rsa.SecretKey.publicHalf
  encrypt? := Rsa.encrypt?
  decrypt? := Rsa.decrypt?
  sign? := Rsa.sign?
  verify := Rsa.verify
  encodePublic := Rsa.PublicKey.write
  decodePublic? := Rsa.PublicKey.read?
  encodeSecret := Rsa.SecretKey.write
  decodeSecret? := Rsa.SecretKey.read?

def standard : Suite := ⟨Aes.cipher, p256, rsaSha256⟩

end KeyService.Suite
