import KeyService.Curve.Point
import KeyService.Der.KeyDocument

/-! Keys on the curve P-256 as documents.
A point has a plain form of both coordinates, a compressed form of the first one and
the parity of the second, and a compact form of the first one alone, where the
second one is the smaller root. Only the plain form is written. -/
namespace KeyService.Curve

def writePoint (p : Point) : Bytes := 0x04 :: (Bytes.ofNat 32 p.x ++ Bytes.ofNat 32 p.y)

@[simp] theorem length_writePoint (p : Point) : (writePoint p).length = 65 := by
  simp [writePoint]

def writeCompressed (p : Point) : Bytes :=
  (if p.y % 2 = 0 then 0x02 else 0x03) :: Bytes.ofNat 32 p.x

def readPoint? (bs : Bytes) : Option Point :=
  match bs with
  | 0x04 :: rest =>
    let p : Point := ⟨Bytes.toNat (rest.take 32), Bytes.toNat (rest.drop 32)⟩
    if rest.length = 64 ∧ p.isValid then some p else none
  | mark :: rest =>
    if rest.length ≠ 32 then none
    else if mark = 0x02 then pointAt? (Bytes.toNat rest) fun y => y % 2 = 0
    else if mark = 0x03 then pointAt? (Bytes.toNat rest) fun y => y % 2 = 1
    else if mark = 0x05 then pointAt? (Bytes.toNat rest) fun y => y ≤ prime - y
    else none
  | [] => none

def writePublic (p : Point) : Bytes := Der.writePublic .p256 (writePoint p)

def readPublic? (document : Bytes) : Option Point := do
  readPoint? (← Der.readPublic? .p256 document)

/-- The public half of a secret key; a secret key is positive and below the order, so its multiple
of the base is not at infinity. -/
def publicOf (secret : Secret) : Point := (base.times? secret.number).getD base

def writeSecret (secret : Secret) : Bytes :=
  Der.writeSecret .p256 (Der.write Der.tagSequence (Der.writeNat 1
    ++ Der.write Der.tagOctets (Bytes.ofNat 32 secret.number)
    ++ Der.write 0xA1 (Der.writeBits (writePoint (publicOf secret)))))

def secret? (bs : Bytes) : Option Secret :=
  if inRange : 24 ≤ bs.length ∧ bs.length ≤ 32 ∧ 0 < bs.toNat ∧ bs.toNat < order then
    some ⟨bs.toNat, inRange.2.2.1, inRange.2.2.2⟩
  else none

/-- The secret key inside a document. It may name the curve again, and if it holds the public half,
in the plain or the compressed form, then the right one. -/
def readInner? (content : Bytes) : Option Secret := do
  let (bytes, curve, half) ← Der.whole? (Der.inside? Der.tagSequence do
    let version ← Der.nat?
    if version = 1 then
      let bytes ← Der.element? Der.tagOctets
      let curve ← Der.context? 0xA0 (Der.whole? (Der.element? Der.tagName))
      let half ← Der.context? 0xA1 (Der.whole? Der.bits?)
      return (bytes, curve, half)
    else failure) content
  let secret ← secret? bytes
  guard (curve = none ∨ curve = some Der.AlgorithmId.p256.parameter)
  match half with
  | none => return secret
  | some written =>
    let p := publicOf secret
    if written = writePoint p ∨ written = writeCompressed p then some secret else none

def readSecret? (document : Bytes) : Option Secret := do
  readInner? (← Der.readSecret? .p256 document)

end KeyService.Curve
