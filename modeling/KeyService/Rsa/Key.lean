import KeyService.Der.KeyDocument
import KeyService.Number.Modular

/-! RSA keys and their documents. -/
namespace KeyService.Rsa

structure PublicKey where
  modulus : Nat
  exponent : Nat
  deriving DecidableEq

structure SecretKey where
  modulus : Nat
  publicExponent : Nat
  secretExponent : Nat
  p : Nat
  q : Nat
  deriving DecidableEq

def SecretKey.publicHalf (k : SecretKey) : PublicKey := ⟨k.modulus, k.publicExponent⟩

namespace PublicKey

def bits (k : PublicKey) : Nat := if k.modulus = 0 then 0 else k.modulus.log2 + 1

def size (k : PublicKey) : Nat := (k.bits + 7) / 8

/-- A modulus is odd and has at most 4096 bits; an exponent is odd, at least two, below the modulus
and below 2 ^ 33. -/
def isValid (k : PublicKey) : Bool :=
  k.bits ≤ 4096 && k.exponent < k.modulus && k.modulus % 2 = 1 && k.exponent % 2 = 1 &&
    2 ≤ k.exponent && k.exponent < 1 <<< 33

def raise (k : PublicKey) (m : Nat) : Nat := Number.power k.modulus m k.exponent

def writeInner (k : PublicKey) : Bytes :=
  Der.write Der.tagSequence (Der.writeNat k.modulus ++ Der.writeNat k.exponent)

def readInner? (content : Bytes) : Option PublicKey := do
  let k ← Der.whole? (Der.inside? Der.tagSequence do
    let modulus ← Der.nat?
    let exponent ← Der.nat?
    return ⟨modulus, exponent⟩) content
  if k.isValid then some k else none

def write (k : PublicKey) : Bytes := Der.writePublic .rsa k.writeInner

def read? (document : Bytes) : Option PublicKey := do
  readInner? (← Der.readPublic? .rsa document)

end PublicKey

namespace SecretKey

/-- The public half is valid, the modulus is the product of its factors, and the exponents undo
each other modulo both factors. -/
def isValid (k : SecretKey) : Bool :=
  let product := k.secretExponent * k.publicExponent
  k.publicHalf.isValid && k.p * k.q = k.modulus && product % (k.p - 1) = 1 &&
    product % (k.q - 1) = 1

/-- The power with the secret exponent, if the public one leads back. -/
def raise? (k : SecretKey) (c : Nat) : Option Nat :=
  let m := Number.power k.modulus c k.secretExponent
  if c < k.modulus ∧ k.publicHalf.raise m = c then some m else none

def writeInner (k : SecretKey) : Bytes :=
  Der.write Der.tagSequence ([0, k.modulus, k.publicExponent, k.secretExponent, k.p, k.q,
    k.secretExponent % (k.p - 1), k.secretExponent % (k.q - 1),
    (Number.inverse? k.p k.q).getD 0].flatMap Der.writeNat)

def readInner? (content : Bytes) : Option SecretKey := do
  let (version, k) ← Der.whole? (Der.inside? Der.tagSequence do
    let version ← Der.nat?
    let modulus ← Der.nat?
    let publicExponent ← Der.nat?
    let secretExponent ← Der.nat?
    let p ← Der.nat?
    let q ← Der.nat?
    let _ ← Der.nat?
    let _ ← Der.nat?
    let _ ← Der.nat?
    return (version, SecretKey.mk modulus publicExponent secretExponent p q)) content
  if version = 0 ∧ k.isValid then some k else none

def write (k : SecretKey) : Bytes := Der.writeSecret .rsa k.writeInner

def read? (document : Bytes) : Option SecretKey := do
  readInner? (← Der.readSecret? .rsa document)

end SecretKey

end KeyService.Rsa
