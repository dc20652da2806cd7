import KeyService.Digest.Sha256
import KeyService.Rsa.Key

/-! Encryption and signatures with RSA.
A text is padded to the size of the modulus before it is raised. For encryption the
padding masks the text with random bytes, and it is checked when it is removed. For
a signature it holds the digest of the message after fixed bytes. -/
namespace KeyService.Rsa

def maskBytes (seed : Bytes) (length : Nat) : Bytes :=
  ((List.range ((length + 31) / 32)).flatMap fun i =>
    Sha256.digest (seed ++ Bytes.ofNat 4 i)).take length

def labelDigest : Bytes := Sha256.digest []

def mask? (size : Nat) (seed text : Bytes) : Option Bytes :=
  if text.length + 66 ≤ size then
    let block := labelDigest ++ List.replicate (size - text.length - 66) 0 ++ 1 :: text
    let masked := Bytes.xor block (maskBytes seed (size - 33))
    some (0 :: (Bytes.xor seed (maskBytes masked 32) ++ masked))
  else none

/-- The text of a padded string: after the digest of the label and zeros stands a one. -/
def unmask? (padded : Bytes) : Option Bytes :=
  match padded with
  | 0 :: rest =>
    if padded.length < 66 then none
    else
      let masked := rest.drop 32
      let seed := Bytes.xor (rest.take 32) (maskBytes masked 32)
      let block := Bytes.xor masked (maskBytes seed masked.length)
      match (block.drop 32).dropWhile (· = 0) with
      | 1 :: text => if block.take 32 = labelDigest then some text else none
      | _ => none
  | _ => none

def encrypt? (k : PublicKey) (seed text : Bytes) : Option Bytes := do
  let padded ← mask? k.size seed text
  return Bytes.ofNat k.size (k.raise (Bytes.toNat padded))

def decrypt? (k : SecretKey) (whole : Bytes) : Option Bytes := do
  let size := k.publicHalf.size
  guard (whole.length = size)
  let m ← k.raise? whole.toNat
  unmask? (Bytes.ofNat size m)

def digestMark : Bytes :=
  [0x30, 0x31, 0x30, 0x0D, 0x06, 0x09, 0x60, 0x86, 0x48, 0x01, 0x65, 0x03, 0x04, 0x02, 0x01, 0x05,
    0x00, 0x04, 0x20]

def signed? (size : Nat) (message : Bytes) : Option Bytes :=
  if 62 ≤ size then
    some (0 :: 1 :: (List.replicate (size - 54) 0xFF ++ 0 :: (digestMark ++ Sha256.digest message)))
  else none

def sign? (k : SecretKey) (message : Bytes) : Option Bytes := do
  let size := k.publicHalf.size
  let padded ← signed? size message
  let s ← k.raise? (Bytes.toNat padded)
  return Bytes.ofNat size s

def verify (k : PublicKey) (message signature : Bytes) : Bool :=
  signature.length = k.size && signature.toNat < k.modulus &&
    signed? k.size message = some (Bytes.ofNat k.size (k.raise signature.toNat))

end KeyService.Rsa
