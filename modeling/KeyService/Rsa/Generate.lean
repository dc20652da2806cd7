import KeyService.Digest.Sha256
import KeyService.Rsa.Key

/-! New RSA keys.
Candidates for the two primes are taken from a stream of bytes that a random seed
determines, until one of them passes a test that a composite number hardly ever
passes. -/
namespace KeyService.Rsa

def draw (seed : Bytes) (bits i : Nat) : Nat :=
  let bytes := (List.range (bits / 256 + 1)).flatMap fun j =>
    Sha256.digest (seed ++ Bytes.ofNat 8 i ++ Bytes.ofNat 8 j)
  Bytes.toNat bytes % (1 <<< bits)

def candidate (bits n : Nat) : Nat := n % (1 <<< (bits - 2)) / 2 * 2 + 1 + 3 <<< (bits - 2)

def smallPrimes : List Nat := [2, 3, 5, 7, 11, 13, 17, 19, 23, 29, 31, 37, 41, 43, 47, 53, 59, 61]

def halve (n : Nat) : Nat → Nat × Nat
  | 0 => (0, n)
  | bound + 1 => if n % 2 = 0 then let (k, odd) := halve (n / 2) bound; (k + 1, odd) else (0, n)

def meetsMinusOne (n x : Nat) : Nat → Bool
  | 0 => false
  | k + 1 => x = n - 1 || meetsMinusOne n (x * x % n) k

def passes (n base : Nat) : Bool :=
  let (k, odd) := halve (n - 1) (n.log2 + 1)
  let x := Number.power n base odd
  x = 1 || meetsMinusOne n x k

/-- Small numbers are tested by division, others for the small primes as bases. -/
def isProbablyPrime (n : Nat) : Bool :=
  if n < 4096 then 2 ≤ n && smallPrimes.all fun p => n = p || n % p ≠ 0
  else smallPrimes.all (fun p => n % p ≠ 0) && smallPrimes.all (passes n)

def findPrime (seed : Bytes) (bits : Nat) (i : Nat) : Nat → Option (Nat × Nat)
  | 0 => none
  | tries + 1 =>
    let n := candidate bits (draw seed bits i)
    if isProbablyPrime n then some (n, i + 1) else findPrime seed bits (i + 1) tries

def publicExponent : Nat := 65537

def ofPrimes? (p q : Nat) : Option SecretKey := do
  guard (p ≠ q)
  let d ← Number.inverse? ((p - 1) * (q - 1)) publicExponent
  return ⟨p * q, publicExponent, d, p, q⟩

def findKey (seed : Bytes) (bits : Nat) (i : Nat) : Nat → Option SecretKey
  | 0 => none
  | tries + 1 => do
    let (p, j) ← findPrime seed (bits - bits / 2) i (100 * bits)
    let (q, k) ← findPrime seed (bits / 2) j (100 * bits)
    match ofPrimes? p q with
    | some key => some key
    | none => findKey seed bits k tries

/-- A new key. Below twelve bits there are too few primes to choose from. -/
def generate (bits : Nat) (seed : Bytes) : Except String SecretKey :=
  match if bits < 12 then none else findKey seed bits 0 256 with
  | some key => .ok key
  | none => .error "too few primes of given length to generate an RSA key"

end KeyService.Rsa
