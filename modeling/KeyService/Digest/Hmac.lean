import KeyService.Digest.Sha256

/-! Keyed digests, and the keys that are derived with them. -/
namespace KeyService

/-- A keyed digest with its key absorbed: once for the message, once for the inner digest. -/
structure Hmac where
  inner : Sha256.State
  outer : Sha256.State

namespace Hmac

/-- The block that stands for a key; a key longer than a block is digested first. -/
def keyBlock (key : Bytes) : Bytes :=
  let short := if key.length ≤ 64 then key else Sha256.digest key
  short ++ List.replicate (64 - short.length) 0

def ofKey (key : Bytes) : Hmac :=
  let block := keyBlock key
  ⟨Sha256.absorb Sha256.start (Bytes.words (block.map (· ^^^ 0x36))),
    Sha256.absorb Sha256.start (Bytes.words (block.map (· ^^^ 0x5C)))⟩

def tag (k : Hmac) (message : Bytes) : Bytes :=
  Sha256.finish k.outer 64 (Sha256.finish k.inner 64 message)

@[simp] theorem length_tag (k : Hmac) (message : Bytes) : (k.tag message).length = 32 := rfl

end Hmac

namespace Hkdf

def extract (salt material : Bytes) : Bytes := (Hmac.ofKey salt).tag material

def expandAfter (k : Hmac) (info previous : Bytes) (i : Nat) : Nat → Bytes
  | 0 => []
  | more + 1 =>
    let next := k.tag (previous ++ info ++ [UInt8.ofNat i])
    next ++ expandAfter k info next (i + 1) more

theorem length_expandAfter (k : Hmac) (info previous : Bytes) (i n : Nat) :
    (expandAfter k info previous i n).length = 32 * n := by
  induction n generalizing previous i with
  | zero => rfl
  | succ n ih => simp only [expandAfter, List.length_append, Hmac.length_tag, ih]; omega

def expand (key info : Bytes) (length : Nat) : Bytes :=
  (expandAfter (Hmac.ofKey key) info [] 1 ((length + 31) / 32)).take length

def derive (salt material info : Bytes) (length : Nat) : Bytes :=
  expand (extract salt material) info length

@[simp] theorem length_derive (salt material info : Bytes) (length : Nat) :
    (derive salt material info length).length = length := by
  simp only [derive, expand, List.length_take, length_expandAfter]
  omega

/-- The most bytes that an expansion gives: its blocks are counted in one byte. -/
def maxLength : Nat := 255 * 32

def derive? (salt material info : Bytes) (length : Nat) : Option Bytes :=
  if maxLength < length then none else some (derive salt material info length)

end Hkdf

namespace Pbkdf2

def iterate (k : Hmac) (sum last : Bytes) : Nat → Bytes
  | 0 => sum
  | n + 1 =>
    let next := k.tag last
    iterate k (sum.xor next) next n

def part (k : Hmac) (salt : Bytes) (rounds i : Nat) : Bytes :=
  let first := k.tag (salt ++ Bytes.ofNat 4 i)
  iterate k first first (rounds - 1)

def derive (secret salt : Bytes) (rounds length : Nat) : Bytes :=
  let k := Hmac.ofKey secret
  ((List.range ((length + 31) / 32)).flatMap fun i => part k salt rounds (i + 1)).take length

theorem length_iterate (k : Hmac) {sum last : Bytes} (n : Nat) (h : sum.length = 32) :
    (iterate k sum last n).length = 32 := by
  induction n generalizing sum last with
  | zero => exact h
  | succ n ih => exact ih (by simp [Bytes.xor, h])

@[simp] theorem length_part (k : Hmac) (salt : Bytes) (rounds i : Nat) :
    (part k salt rounds i).length = 32 :=
  length_iterate k _ rfl

@[simp] theorem length_derive (secret salt : Bytes) (rounds length : Nat) :
    (derive secret salt rounds length).length = length := by
  simp only [derive, List.length_take, List.length_flatMap, length_part, List.map_const',
    List.length_range, List.sum_replicate_nat]
  omega

end Pbkdf2

end KeyService
