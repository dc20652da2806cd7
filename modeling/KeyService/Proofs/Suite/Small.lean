import KeyService.Proofs.Curve.Laws
import KeyService.Proofs.Rsa.Laws
import Mathlib.Algebra.Group.Nat.Defs

/-! A suite that is small enough to look at.
Its keys are bytes, and two parties agree on a power of a power modulo a prime. It obeys
the laws of a curve and hides nothing: it shows that the laws can be met, and what happens
in runs where primitives do what they should. -/
namespace KeyService.Suite

namespace Small

/-- Powers modulo the largest prime of eight bits. -/
def power (base exponent : UInt8) : UInt8 := UInt8.ofNat (base.toNat ^ exponent.toNat % 251)

theorem toNat_power (base exponent : UInt8) :
    (power base exponent).toNat = base.toNat ^ exponent.toNat % 251 := by
  have small : base.toNat ^ exponent.toNat % 251 < 251 := Nat.mod_lt _ (by decide)
  rw [power, UInt8.toNat_ofNat']
  omega

theorem power_comm (base a b : UInt8) : power (power base b) a = power (power base a) b := by
  apply UInt8.toNat_inj.mp
  simp only [toNat_power, ← Nat.pow_mod, ← Nat.pow_mul, Nat.mul_comm]

def single? : Bytes → Option UInt8
  | [b] => some b
  | _ => none

/-- A signature is the message behind the public key. -/
def curve : CurveScheme where
  PublicKey := UInt8
  SecretKey := UInt8
  decEqPublicKey := inferInstance
  secretOf bs := bs.headD 0
  publicOf := power 6
  agree secret key := [power key secret]
  sign secret message := power 6 secret :: message
  verify key message signature := signature == key :: message
  encodePublic key := [key]
  decodePublic? := single?
  encodeSecret secret := [secret]
  decodeSecret? := single?
  point key := [key]
  ofPoint? := single?

def rsa : RsaScheme where
  PublicKey := Unit
  SecretKey := Unit
  generate _ _ := .error "no keys"
  publicOf := id
  encrypt? _ _ _ := none
  decrypt? _ _ := none
  sign? _ _ := none
  verify _ _ _ := false
  encodePublic _ := []
  decodePublic? _ := none
  encodeSecret _ := []
  decodeSecret? _ := none

end Small

def small : Suite where
  aes _ := ⟨id, id⟩
  curve := Small.curve
  rsa := Small.rsa

theorem small_symmetric : small.curve.Symmetric :=
  fun a b => congrArg (fun key : UInt8 => [key]) (Small.power_comm 6 a b)

theorem small_readsPublic : small.curve.ReadsPublic := fun _ => rfl

theorem small_readsSecret : small.curve.ReadsSecret := fun _ => rfl

theorem small_verifies : small.curve.Verifies :=
  fun secret message => beq_self_eq_true (Small.power 6 secret :: message)

namespace Small

/-- A point is the key and as many zeros as it takes. -/
def longCurve : CurveScheme :=
  { curve with
    point := fun key : UInt8 => key :: List.replicate 64 0
    ofPoint? := List.head? }

/-- There is one key, with which nothing changes. -/
def plainRsa : RsaScheme :=
  { rsa with
    generate := fun _ _ => .ok ()
    encrypt? := fun _ _ text => some text
    decrypt? := fun _ whole => some whole
    sign? := fun _ message => some message
    verify := fun _ message signature => signature == message
    decodePublic? := fun _ => some ()
    decodeSecret? := fun _ => some () }

end Small

def long : Suite where
  aes _ := ⟨id, id⟩
  curve := Small.longCurve
  rsa := Small.plainRsa

theorem long_curve_lawful : long.curve.Lawful where
  symmetric := small_symmetric
  verifies := small_verifies
  readsPublic := small_readsPublic
  readsSecret := small_readsSecret
  readsPoint _ := rfl
  plainPoints _ := rfl

theorem long_rsa_lawful (bits : Nat) : long.rsa.Lawful bits where
  readsPublic _ _ := rfl
  readsSecret _ _ := rfl
  decrypts _ _ _ _ _ sent := sent.symm
  verifies _ message signature _ signed := by
    obtain rfl := Option.some.inj signed
    exact beq_self_eq_true message
  signs _ message _ _ := ⟨message, rfl⟩

end KeyService.Suite
