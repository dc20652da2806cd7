import KeyService.Curve.Point
import KeyService.Der.Element
import KeyService.Digest.Hmac

/-! Signatures on the curve P-256 over the digest of a message.
A signature is two numbers r and s. The secret multiplier that a signature needs is
made from the secret key and the digest, so signing the same message twice gives the
same signature. -/
namespace KeyService.Curve

def digestNumber (message : Bytes) : Nat := Bytes.toNat (Sha256.digest message) % order

/-- A generator of multipliers: a key and a value that is stirred with it. -/
structure Generator where
  key : Bytes
  value : Bytes

namespace Generator

def stir (g : Generator) (mark : UInt8) (more : Bytes) : Generator :=
  let key := (Hmac.ofKey g.key).tag (g.value ++ mark :: more)
  ⟨key, (Hmac.ofKey key).tag g.value⟩

def start (secret : Secret) (digest : Nat) : Generator :=
  let seed := Bytes.ofNat 32 secret.number ++ Bytes.ofNat 32 digest
  ((Generator.mk (List.replicate 32 0) (List.replicate 32 1)).stir 0 seed).stir 1 seed

def draw (g : Generator) : Nat → Nat
  | 0 => 1
  | tries + 1 =>
    let value := (Hmac.ofKey g.key).tag g.value
    let k := Bytes.toNat value
    if 1 ≤ k ∧ k < order then k else draw ((Generator.mk g.key value).stir 0 []) tries

end Generator

structure Signature where
  r : Nat
  s : Nat
  deriving DecidableEq

namespace Signature

def write (g : Signature) : Bytes :=
  Der.write Der.tagSequence (Der.writeNat g.r ++ Der.writeNat g.s)

def read? (document : Bytes) : Option Signature := do
  let g ← Der.whole? (Der.inside? Der.tagSequence do
    let r ← Der.nat?
    let s ← Der.nat?
    return ⟨r, s⟩) document
  if 1 ≤ g.r ∧ g.r < order ∧ 1 ≤ g.s ∧ g.s < order then some g else none

def sign (secret : Secret) (message : Bytes) : Signature :=
  let z := digestNumber message
  let k := (Generator.start secret z).draw 64
  let r := match base.times? k with
    | some p => p.x % order
    | none => 0
  ⟨r, Number.power order k (order - 2) * (z + r * secret.number) % order⟩

def check (key : Point) (message : Bytes) (g : Signature) : Bool :=
  let w := Number.power order g.s (order - 2)
  let u := digestNumber message * w % order
  let v := g.r * w % order
  let sum := Projective.add ((Projective.ofPoint base).times u 256)
    ((Projective.ofPoint key).times v 256)
  match sum.toPoint? with
  | some p => p.x % order = g.r
  | none => false

end Signature

end KeyService.Curve
