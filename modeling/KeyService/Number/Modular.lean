/-! Powers and inverses modulo a number. -/
namespace KeyService.Number

def power (m b e : Nat) : Nat :=
  if e = 0 then 1 % m
  else
    let h := power m (b * b % m) (e / 2)
    if e % 2 = 1 then b * h % m else h
termination_by e
decreasing_by omega

/-- One coefficient of the greatest common divisor of `a` and `b`, with the divisor itself. The
two coefficients are those with which `a` and `b` stand for multiples of an inverse wanted. -/
def divide (a b : Nat) (x y : Int) : Nat × Int :=
  if b = 0 then (a, x) else divide b (a % b) y (x - (a / b : Nat) * y)
termination_by b
decreasing_by exact Nat.mod_lt _ (by omega)

def inverse? (m a : Nat) : Option Nat :=
  match divide m (a % m) 0 1 with
  | (1, x) => some (x % m).toNat
  | _ => none

end KeyService.Number
