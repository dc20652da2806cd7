import KeyService.Bytes

/-! Blocks of sixteen bytes, and what a cipher for them is.
A byte string is split into whole blocks and a rest that is shorter than a block;
written one after the other, blocks and rest give the string back. -/
namespace KeyService

structure Block where
  bytes : Bytes
  length_bytes : bytes.length = 16
  deriving DecidableEq

structure BlockCipher where
  forward : Block → Block
  backward : Block → Block

namespace Block

attribute [simp] length_bytes

theorem ext {a b : Block} (same : a.bytes = b.bytes) : a = b := by
  cases a
  cases b
  simpa using same

def xor (a b : Block) : Block := ⟨a.bytes.xor b.bytes, by simp [Bytes.xor]⟩

def ofBytes (bs : Bytes) : Block :=
  ⟨(bs ++ List.replicate 16 0).take 16, by simp⟩

/-- Whole blocks off the front of a string, put behind the blocks in `done`, which are held in
reverse, and the bytes that are left. -/
def splitAfter (done : List Block) (bs : Bytes) : List Block × Bytes :=
  if whole : (bs.take 16).length = 16 then splitAfter (⟨bs.take 16, whole⟩ :: done) (bs.drop 16)
  else (done.reverse, bs)
termination_by bs.length
decreasing_by
  simp only [List.length_take, List.length_drop] at whole ⊢
  omega

def split (bs : Bytes) : List Block × Bytes := splitAfter [] bs

def join (blocks : List Block) : Bytes := blocks.flatMap bytes

end Block

end KeyService
