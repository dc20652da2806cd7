import KeyService.Bytes
import KeyService.Number.Modular

/-! Points of the curve P-256.
The curve is y² = x³ - 3x + b over the numbers below a prime. Sums of points are
computed with three coordinates, where (x, y, z) stands for the point with the
coordinates x / z² and y / z³, and a zero z for the point at infinity. -/
namespace KeyService.Curve

def prime : Nat := 0xFFFFFFFF00000001000000000000000000000000FFFFFFFFFFFFFFFFFFFFFFFF

def order : Nat := 0xFFFFFFFF00000000FFFFFFFFFFFFFFFFBCE6FAADA7179E84F3B9CAC2FC632551

def constant : Nat := 0x5AC635D8AA3A93E7B3EBBD55769886BC651D06B0CC53B0F63BCE3C3E27D2604B

structure Point where
  x : Nat
  y : Nat
  deriving DecidableEq

def base : Point :=
  ⟨0x6B17D1F2E12C4247F8BCE6E563A440F277037D812DEB33A0F4A13945D898C296,
    0x4FE342E2FE1A7F9B8EE7EB4A7C0F9E162BCE33576B315ECECBB6406837BF51F5⟩

structure Secret where
  number : Nat
  positive : 0 < number
  below : number < order

def Secret.ofBytes (bs : Bytes) : Secret where
  number := bs.toNat % (order - 1) + 1
  positive := Nat.succ_pos _
  below := by
    have := Nat.mod_lt (bs.toNat)
      (show 0 < order - 1 by decide)
    have : 0 < order := by decide
    omega

def add (a b : Nat) : Nat := (a + b) % prime
def sub (a b : Nat) : Nat := (a + (prime - b % prime)) % prime
def mul (a b : Nat) : Nat := a * b % prime
def square (a : Nat) : Nat := a * a % prime

def cubic (x : Nat) : Nat := add (sub (mul (square x) x) (mul 3 x)) constant

def root? (a : Nat) : Option Nat :=
  let r := Number.power prime a ((prime + 1) / 4)
  if square r = a then some r else none

def Point.isValid (p : Point) : Bool := p.x < prime && p.y < prime && square p.y = cubic p.x

structure Projective where
  x : Nat
  y : Nat
  z : Nat

namespace Projective

def infinity : Projective := ⟨1, 1, 0⟩

def ofPoint (p : Point) : Projective := ⟨p.x, p.y, 1⟩

def toPoint? (p : Projective) : Option Point :=
  if p.z = 0 then none
  else
    let i := Number.power prime p.z (prime - 2)
    let i2 := square i
    some ⟨mul p.x i2, mul p.y (mul i2 i)⟩

def double (p : Projective) : Projective :=
  let delta := square p.z
  let gamma := square p.y
  let beta := mul p.x gamma
  let alpha := mul 3 (mul (sub p.x delta) (add p.x delta))
  let x := sub (square alpha) (mul 8 beta)
  ⟨x, sub (mul alpha (sub (mul 4 beta) x)) (mul 8 (square gamma)),
    sub (sub (square (add p.y p.z)) gamma) delta⟩

protected def add (p q : Projective) : Projective :=
  if p.z = 0 then q
  else if q.z = 0 then p
  else
    let pz := square p.z
    let qz := square q.z
    let u := mul p.x qz
    let s := mul p.y (mul qz q.z)
    let h := sub (mul q.x pz) u
    let r := sub (mul q.y (mul pz p.z)) s
    if h = 0 then if r = 0 then double p else infinity
    else
      let h2 := square h
      let h3 := mul h2 h
      let v := mul u h2
      let x := sub (sub (square r) h3) (mul 2 v)
      ⟨x, sub (mul r (sub v x)) (mul s h3), mul h (mul p.z q.z)⟩

/-- The multiple with the factor that the lowest `n` bits of `k` denote. -/
def times (p : Projective) (k : Nat) : Nat → Projective
  | 0 => infinity
  | n + 1 =>
    let twice := times (double p) (k / 2) n
    if k % 2 = 1 then Projective.add p twice else twice

end Projective

def Point.times? (p : Point) (k : Nat) : Option Point :=
  ((Projective.ofPoint p).times k 256).toPoint?

def pointAt? (x : Nat) (choose : Nat → Bool) : Option Point := do
  guard (x < prime)
  let y ← root? (cubic x)
  return ⟨x, if choose y then y else (prime - y) % prime⟩

end KeyService.Curve
