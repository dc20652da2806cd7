import KeyService.Block.Basic

/-! The primitives that the service is built on.
The service composes a block cipher, a curve and RSA, and looks inside none of
them. What holds of the service for every suite, or for every suite whose parts
undo each other, does not depend on how these primitives are computed. -/
namespace KeyService

structure CurveScheme where
  PublicKey : Type
  SecretKey : Type
  decEqPublicKey : DecidableEq PublicKey
  secretOf : Bytes → SecretKey
  publicOf : SecretKey → PublicKey
  /-- What the holder of the secret key shares with the holder of the public key's secret. -/
  agree : SecretKey → PublicKey → Bytes
  sign : SecretKey → Bytes → Bytes
  verify : PublicKey → Bytes → Bytes → Bool
  encodePublic : PublicKey → Bytes
  decodePublic? : Bytes → Option PublicKey
  encodeSecret : SecretKey → Bytes
  decodeSecret? : Bytes → Option SecretKey
  point : PublicKey → Bytes
  ofPoint? : Bytes → Option PublicKey

structure RsaScheme where
  PublicKey : Type
  SecretKey : Type
  /-- The key with a modulus of so many bits that random bytes determine, or the complaint about
  the number of bits. -/
  generate : Nat → Bytes → Except String SecretKey
  publicOf : SecretKey → PublicKey
  encrypt? : PublicKey → Bytes → Bytes → Option Bytes
  decrypt? : SecretKey → Bytes → Option Bytes
  sign? : SecretKey → Bytes → Option Bytes
  verify : PublicKey → Bytes → Bytes → Bool
  encodePublic : PublicKey → Bytes
  decodePublic? : Bytes → Option PublicKey
  encodeSecret : SecretKey → Bytes
  decodeSecret? : Bytes → Option SecretKey

structure Suite where
  aes : Bytes → BlockCipher
  curve : CurveScheme
  rsa : RsaScheme

instance (S : Suite) : DecidableEq S.curve.PublicKey := S.curve.decEqPublicKey

end KeyService
