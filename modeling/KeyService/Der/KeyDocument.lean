import KeyService.Der.Element

/-! Documents that hold a key.
Both kinds name the algorithm that the key is for, with one parameter, and hold the
key's own encoding: the public kind as a string of bits, the secret kind as a
string of bytes after a version, with room for the public half and for
extensions. -/
namespace KeyService.Der

structure AlgorithmId where
  name : Bytes
  parameterTag : UInt8
  parameter : Bytes
  deriving DecidableEq

namespace AlgorithmId

def p256 : AlgorithmId :=
  ⟨[0x2A, 0x86, 0x48, 0xCE, 0x3D, 0x02, 0x01], tagName,
    [0x2A, 0x86, 0x48, 0xCE, 0x3D, 0x03, 0x01, 0x07]⟩

def rsa : AlgorithmId :=
  ⟨[0x2A, 0x86, 0x48, 0x86, 0xF7, 0x0D, 0x01, 0x01, 0x01], tagNull, []⟩

def write (a : AlgorithmId) : Bytes :=
  Der.write tagSequence (Der.write tagName a.name ++ Der.write a.parameterTag a.parameter)

def read? : Reader AlgorithmId :=
  inside? tagSequence do
    let name ← element? tagName
    let (tag, parameter) ← any?
    return ⟨name, tag, parameter⟩

end AlgorithmId

def writePublic (a : AlgorithmId) (key : Bytes) : Bytes :=
  write tagSequence (a.write ++ writeBits key)

def readPublic? (a : AlgorithmId) (document : Bytes) : Option Bytes := do
  let (found, key) ← whole? (inside? tagSequence do
    let found ← AlgorithmId.read?
    let key ← bits?
    return (found, key)) document
  if found = a then some key else none

def writeSecret (a : AlgorithmId) (key : Bytes) : Bytes :=
  write tagSequence (writeNat 0 ++ a.write ++ write tagOctets key)

def wholeBits? : Bytes → Option Bytes
  | 0 :: content => some content
  | _ => none

/-- The secret key of a document for the given algorithm. The first version holds no public half,
the second one does. -/
def readSecret? (a : AlgorithmId) (document : Bytes) : Option Bytes := do
  let (found, key) ← whole? (inside? tagSequence do
    let version ← nat?
    let found ← AlgorithmId.read?
    let key ← element? tagOctets
    let publicHalf ← context? 0x81 wholeBits?
    if version ≤ 1 ∧ (publicHalf.isSome ↔ version = 1) then
      extensions?
      return (found, key)
    else failure) document
  if found = a then some key else none

end KeyService.Der
