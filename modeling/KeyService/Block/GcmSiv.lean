import KeyService.Block.Basic
import KeyService.Bytes.Words

/-! AES-GCM-SIV without associated data.
Two keys are derived from the key and the nonce. A polynomial hash of the plaintext
under the first, encrypted under the second, is the tag; the tag starts the counter
of the key stream. So the tag depends on every byte of the plaintext, and a string
opens only if its tag is the one that sealing would write. The standard bounds a text
at two to the thirty-six bytes; here a text may be of any length, and what refuses a
longer one is left out. -/
namespace KeyService.GcmSiv

/-- A polynomial over two elements of degree below 128; the lowest coefficient is the lowest bit
of `low`. -/
structure Polynomial where
  high : UInt64
  low : UInt64
  deriving DecidableEq

namespace Polynomial

def zero : Polynomial := ⟨0, 0⟩

def add (p q : Polynomial) : Polynomial := ⟨p.high ^^^ q.high, p.low ^^^ q.low⟩

/-- The quotient by x, modulo the polynomial of exponents 128, 127, 126, 121 and 0. -/
def divideX (p : Polynomial) : Polynomial :=
  let shifted := p.high >>> 1
  ⟨if p.low &&& 1 = 1 then shifted ^^^ 0xE100000000000000 else shifted,
    (p.low >>> 1) ||| (p.high <<< 63)⟩

/-- Take the `n` lowest coefficients of a word into a product: for each, the sum grows by `p` if
it is set, and is divided by x. -/
def absorb (p : Polynomial) (n : Nat) (word : UInt64) (sum : Polynomial) : Polynomial :=
  match n with
  | 0 => sum
  | n + 1 =>
    absorb p n (word >>> 1) (divideX (if word &&& 1 = 1 then add sum p else sum))

def dot (p q : Polynomial) : Polynomial := absorb p 64 q.high (absorb p 64 q.low zero)

def ofBytes (bs : Bytes) : Polynomial :=
  ⟨Bytes.longWord ((bs.drop 8).take 8), Bytes.longWord (bs.take 8)⟩

def toBlock (p : Polynomial) : Block := ⟨Bytes.ofLongWord p.low ++ Bytes.ofLongWord p.high, by simp⟩

def hash (h : Polynomial) (blocks : List Block) : Polynomial :=
  blocks.foldl (fun sum b => dot (sum.add (ofBytes b.bytes)) h) zero

end Polynomial

def filledBlocks (text : Bytes) : List Block :=
  let parts := Block.split text
  if parts.2.isEmpty then parts.1 else parts.1 ++ [Block.ofBytes parts.2]

/-- The last block that is hashed: the bits of associated data, none, and of the text. -/
def lengthBlock (length : Nat) : Block :=
  ⟨Bytes.ofLongWord 0 ++ Bytes.ofLongWord (UInt64.ofNat (8 * length)), by simp⟩

def keyPart (master : BlockCipher) (nonce : Bytes) (i : Nat) : Bytes :=
  (master.forward (Block.ofBytes (Bytes.ofLittleWord (UInt32.ofNat i) ++ nonce))).bytes.take 8

def hashKey (master : BlockCipher) (nonce : Bytes) : Polynomial :=
  .ofBytes (keyPart master nonce 0 ++ keyPart master nonce 1)

def encryptionKey (master : BlockCipher) (size : Nat) (nonce : Bytes) : Bytes :=
  (List.range (size / 8)).flatMap fun i => keyPart master nonce (i + 2)

structure Keys where
  nonce : Bytes
  hash : Polynomial
  cipher : BlockCipher

def keys (family : Bytes → BlockCipher) (key nonce : Bytes) : Keys :=
  let master := family key
  ⟨nonce, hashKey master nonce, family (encryptionKey master key.length nonce)⟩

/-- The block that becomes the tag: the hash with the nonce added and its last bit cleared. -/
def tagInput (k : Keys) (text : Bytes) : Block :=
  let sum := k.hash.hash (filledBlocks text ++ [lengthBlock text.length])
  let mixed := sum.toBlock.xor (Block.ofBytes k.nonce)
  ⟨mixed.bytes.modify 15 (· &&& 0x7F), by simp⟩

def tag (k : Keys) (text : Bytes) : Block := k.cipher.forward (tagInput k text)

/-- Number `i` of the counter blocks: the tag with its last bit set, and `i` added to its first
word. -/
def counter (start : Block) (i : Nat) : Block :=
  ⟨Bytes.ofLittleWord (Bytes.littleWord (start.bytes.take 4) + UInt32.ofNat i)
    ++ (start.bytes.modify 15 (· ||| 0x80)).drop 4, by simp⟩

def stream (k : Keys) (start : Block) (length : Nat) : Bytes :=
  (List.range ((length + 15) / 16)).flatMap fun i => (k.cipher.forward (counter start i)).bytes

def mask (k : Keys) (start : Block) (text : Bytes) : Bytes :=
  text.xor (stream k start text.length)

def sealed (k : Keys) (text : Bytes) : Bytes :=
  let t := tag k text
  mask k t text ++ t.bytes

def open? (k : Keys) (whole : Bytes) : Option Bytes :=
  let start := whole.drop (whole.length - 16)
  if exact : start.length = 16 then
    let t : Block := ⟨start, exact⟩
    let text := mask k t (whole.take (whole.length - 16))
    if tag k text = t then some text else none
  else none

end KeyService.GcmSiv
