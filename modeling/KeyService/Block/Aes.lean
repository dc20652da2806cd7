import KeyService.Block.Basic
import KeyService.Bytes.Words

/-! The AES block cipher.
The state is four columns of four bytes. A round substitutes every byte, rotates
the rows, mixes every column, and adds a round key; the last round mixes nothing.
The substitution is the inverse in the field of 256 elements followed by an affine
map, and it is tabulated once. -/
namespace KeyService.Aes

def double (a : UInt8) : UInt8 := if a < 128 then a <<< 1 else (a <<< 1) ^^^ 0x1B

def times (n : Nat) (a b : UInt8) : UInt8 :=
  match n with
  | 0 => 0
  | n + 1 => (if b % 2 = 1 then a else 0) ^^^ times n (double a) (b >>> 1)

def mul (a b : UInt8) : UInt8 := times 8 a b

/-- The inverse of an element, zero for zero: the power with exponent 254. -/
def inverse (a : UInt8) : UInt8 :=
  let a2 := mul a a
  let a4 := mul a2 a2
  let a8 := mul a4 a4
  let a16 := mul a8 a8
  let a32 := mul a16 a16
  let a64 := mul a32 a32
  let a128 := mul a64 a64
  mul a128 (mul a64 (mul a32 (mul a16 (mul a8 (mul a4 a2)))))

def rotate (a : UInt8) (n : UInt8) : UInt8 := (a <<< n) ||| (a >>> (8 - n))

def affine (a : UInt8) : UInt8 :=
  a ^^^ rotate a 1 ^^^ rotate a 2 ^^^ rotate a 3 ^^^ rotate a 4 ^^^ 0x63

def unaffine (a : UInt8) : UInt8 := rotate a 1 ^^^ rotate a 3 ^^^ rotate a 6 ^^^ 0x05

def table : Array UInt8 := Array.ofFn fun i : Fin 256 => affine (inverse (UInt8.ofNat i.val))

def untable : Array UInt8 := Array.ofFn fun i : Fin 256 => inverse (unaffine (UInt8.ofNat i.val))

def substitute (a : UInt8) : UInt8 := table.getD a.toNat 0

def unsubstitute (a : UInt8) : UInt8 := untable.getD a.toNat 0

@[inline] def mapBytes (f : UInt8 → UInt8) (w : UInt32) : UInt32 :=
  Bytes.word (f (w >>> 24).toUInt8) (f (w >>> 16).toUInt8) (f (w >>> 8).toUInt8) (f w.toUInt8)

def rotateColumn (w : UInt32) (bits : UInt32) : UInt32 := (w <<< bits) ||| (w >>> (32 - bits))

def doubleColumn (w : UInt32) : UInt32 :=
  ((w &&& 0x7F7F7F7F) <<< 1) ^^^ (((w >>> 7) &&& 0x01010101) * 0x1B)

def mix (w : UInt32) : UInt32 :=
  let d := doubleColumn w
  d ^^^ rotateColumn (w ^^^ d) 8 ^^^ rotateColumn w 16 ^^^ rotateColumn w 24

/-- The inverse of `mix`: its third power, as its fourth is the identity. -/
def unmix (w : UInt32) : UInt32 :=
  mix (w ^^^ doubleColumn (doubleColumn (w ^^^ rotateColumn w 16)))

structure State where
  a : UInt32
  b : UInt32
  c : UInt32
  d : UInt32
  deriving DecidableEq

namespace State

def add (s k : State) : State := ⟨s.a ^^^ k.a, s.b ^^^ k.b, s.c ^^^ k.c, s.d ^^^ k.d⟩

def map (f : UInt32 → UInt32) (s : State) : State := ⟨f s.a, f s.b, f s.c, f s.d⟩

def gather (p q r s : UInt32) : UInt32 :=
  (p &&& 0xFF000000) ||| (q &&& 0x00FF0000) ||| (r &&& 0x0000FF00) ||| (s &&& 0x000000FF)

def shiftRows (s : State) : State :=
  ⟨gather s.a s.b s.c s.d, gather s.b s.c s.d s.a, gather s.c s.d s.a s.b,
    gather s.d s.a s.b s.c⟩

def unshiftRows (s : State) : State :=
  ⟨gather s.a s.d s.c s.b, gather s.b s.a s.d s.c, gather s.c s.b s.a s.d,
    gather s.d s.c s.b s.a⟩

def ofWords : List UInt32 → State
  | [a, b, c, d] => ⟨a, b, c, d⟩
  | _ => ⟨0, 0, 0, 0⟩

def ofBlock (b : Block) : State := ofWords (Bytes.words b.bytes)

def toBlock (s : State) : Block :=
  ⟨Bytes.ofWord s.a ++ Bytes.ofWord s.b ++ Bytes.ofWord s.c ++ Bytes.ofWord s.d, by simp⟩

end State

/-- The word from which the key schedule goes on after `last`, at place `i` of a schedule for a
key of `n` words. -/
def scheduled (n i : Nat) (round : UInt8) (last : UInt32) : UInt32 :=
  if i % n = 0 then mapBytes substitute (rotateColumn last 8) ^^^ (round.toUInt32 <<< 24)
  else if n = 8 ∧ i % n = 4 then mapBytes substitute last
  else last

/-- Further words of a key schedule. The words so far are held in reverse in `done`; each new
one is the word `n` places before it plus one made of its predecessor. -/
def extend (n i : Nat) (round : UInt8) (done : List UInt32) : Nat → List UInt32
  | 0 => done.reverse
  | more + 1 =>
    let next := done.getD (n - 1) 0 ^^^ scheduled n i round (done.headD 0)
    extend n (i + 1) (if i % n = 0 then double round else round) (next :: done) more

def roundKeys : List UInt32 → List State
  | a :: b :: c :: d :: rest => ⟨a, b, c, d⟩ :: roundKeys rest
  | _ => []

/-- The round keys of a key of 16, 24 or 32 bytes: seven more than it has words. -/
def schedule (key : Bytes) : List State :=
  let words := Bytes.words key
  let n := words.length
  roundKeys (extend n n 1 words.reverse (4 * (n + 7) - n))

def rounds (s : State) : List State → State
  | [] => s
  | [last] => ((s.map (mapBytes substitute)).shiftRows).add last
  | k :: more => rounds ((((s.map (mapBytes substitute)).shiftRows).map mix).add k) more

def unrounds (s : State) : List State → State
  | [] => s
  | [first] => ((s.unshiftRows).map (mapBytes unsubstitute)).add first
  | k :: more => unrounds (((((s.unshiftRows).map (mapBytes unsubstitute)).add k)).map unmix) more

def cipher (key : Bytes) : BlockCipher :=
  let keys := schedule key
  let backwards := keys.reverse
  let first := keys.headD ⟨0, 0, 0, 0⟩
  let final := backwards.headD ⟨0, 0, 0, 0⟩
  { forward := fun b => (rounds ((State.ofBlock b).add first) keys.tail).toBlock
    backward := fun b => (unrounds ((State.ofBlock b).add final) backwards.tail).toBlock }

end KeyService.Aes
