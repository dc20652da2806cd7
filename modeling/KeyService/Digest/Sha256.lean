import KeyService.Bytes.Words

/-! The digest SHA-256.
The state is eight words. Every block of sixteen words is stretched to sixty-four
words and stirred into the state; a message is filled up to whole blocks by a bit,
zeros, and its length. Absorbing can start from any state, so that a keyed digest
need not absorb its key again for every message. -/
namespace KeyService.Sha256

structure State where
  a : UInt32
  b : UInt32
  c : UInt32
  d : UInt32
  e : UInt32
  f : UInt32
  g : UInt32
  h : UInt32
  deriving DecidableEq

/-- The fractional parts of the square roots of the first eight primes. -/
def start : State :=
  ⟨0x6A09E667, 0xBB67AE85, 0x3C6EF372, 0xA54FF53A, 0x510E527F, 0x9B05688C, 0x1F83D9AB, 0x5BE0CD19⟩

/-- The fractional parts of the cube roots of the first sixty-four primes. -/
def constants : Array UInt32 := #[
  0x428A2F98, 0x71374491, 0xB5C0FBCF, 0xE9B5DBA5, 0x3956C25B, 0x59F111F1, 0x923F82A4, 0xAB1C5ED5,
  0xD807AA98, 0x12835B01, 0x243185BE, 0x550C7DC3, 0x72BE5D74, 0x80DEB1FE, 0x9BDC06A7, 0xC19BF174,
  0xE49B69C1, 0xEFBE4786, 0x0FC19DC6, 0x240CA1CC, 0x2DE92C6F, 0x4A7484AA, 0x5CB0A9DC, 0x76F988DA,
  0x983E5152, 0xA831C66D, 0xB00327C8, 0xBF597FC7, 0xC6E00BF3, 0xD5A79147, 0x06CA6351, 0x14292967,
  0x27B70A85, 0x2E1B2138, 0x4D2C6DFC, 0x53380D13, 0x650A7354, 0x766A0ABB, 0x81C2C92E, 0x92722C85,
  0xA2BFE8A1, 0xA81A664B, 0xC24B8B70, 0xC76C51A3, 0xD192E819, 0xD6990624, 0xF40E3585, 0x106AA070,
  0x19A4C116, 0x1E376C08, 0x2748774C, 0x34B0BCB5, 0x391C0CB3, 0x4ED8AA4A, 0x5B9CCA4F, 0x682E6FF3,
  0x748F82EE, 0x78A5636F, 0x84C87814, 0x8CC70208, 0x90BEFFFA, 0xA4506CEB, 0xBEF9A3F7, 0xC67178F2]

@[inline] def rotate (w n : UInt32) : UInt32 := (w >>> n) ||| (w <<< (32 - n))

def stretch (words : Array UInt32) : Nat → Array UInt32
  | 0 => words
  | n + 1 =>
    let i := words.size
    let x := words.getD (i - 15) 0
    let y := words.getD (i - 2) 0
    let small := rotate x 7 ^^^ rotate x 18 ^^^ (x >>> 3)
    let large := rotate y 17 ^^^ rotate y 19 ^^^ (y >>> 10)
    stretch (words.push (words.getD (i - 16) 0 + small + words.getD (i - 7) 0 + large)) n

def stir (s : State) (constant word : UInt32) : State :=
  let large := rotate s.e 6 ^^^ rotate s.e 11 ^^^ rotate s.e 25
  let choice := (s.e &&& s.f) ^^^ (~~~s.e &&& s.g)
  let left := s.h + large + choice + constant + word
  let small := rotate s.a 2 ^^^ rotate s.a 13 ^^^ rotate s.a 22
  let majority := (s.a &&& s.b) ^^^ (s.a &&& s.c) ^^^ (s.b &&& s.c)
  ⟨left + (small + majority), s.a, s.b, s.c, s.d + left, s.e, s.f, s.g⟩

def stirAll (words : Array UInt32) (s : State) : Nat → State
  | 0 => s
  | n + 1 => stirAll words (stir s (constants.getD (63 - n) 0) (words.getD (63 - n) 0)) n

def compress (s : State) (block : List UInt32) : State :=
  let t := stirAll (stretch block.toArray 48) s 64
  ⟨s.a + t.a, s.b + t.b, s.c + t.c, s.d + t.d, s.e + t.e, s.f + t.f, s.g + t.g, s.h + t.h⟩

def absorb (s : State) (words : List UInt32) : State :=
  if (words.take 16).length = 16 then absorb (compress s (words.take 16)) (words.drop 16) else s
termination_by words.length
decreasing_by
  simp_all only [List.length_take, List.length_drop]
  omega

/-- A message filled up to whole blocks, where `before` bytes have been absorbed already. -/
def fill (before : Nat) (message : Bytes) : Bytes :=
  let length := before + message.length
  message ++ 0x80 :: List.replicate ((119 - length % 64) % 64) 0 ++ Bytes.ofNat 8 (8 * length)

def State.bytes (s : State) : Bytes :=
  [s.a, s.b, s.c, s.d, s.e, s.f, s.g, s.h].flatMap Bytes.ofWord

def finish (s : State) (before : Nat) (message : Bytes) : Bytes :=
  (absorb s (Bytes.words (fill before message))).bytes

def digest (message : Bytes) : Bytes := finish start 0 message

@[simp] theorem length_finish (s : State) (before : Nat) (message : Bytes) :
    (finish s before message).length = 32 := rfl

end KeyService.Sha256
