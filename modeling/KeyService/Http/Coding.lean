import KeyService.Text.Blank

/-! Content codings, and how one is chosen.
A receiver names the codings that it accepts, each with a weight between 0 and 1. The
one with the greatest weight is taken, and of equal weights the one that packs best. A
name or a weight that is not understood does not count. -/
namespace KeyService.Http

inductive Coding where
  | identity
  | deflate
  | gzip
  | brotli
  | zstd
  deriving DecidableEq, Repr

namespace Coding

def name : Coding → String
  | identity => "identity"
  | deflate => "deflate"
  | gzip => "gzip"
  | brotli => "br"
  | zstd => "zstd"

def rank : Coding → Nat
  | identity => 0
  | deflate => 1
  | gzip => 2
  | brotli => 3
  | zstd => 4

def ofName? (s : String) : Option Coding :=
  if Text.sameLetters s "x-gzip" then some gzip
  else [identity, deflate, gzip, brotli, zstd].find? fun c => Text.sameLetters s c.name

def places? (unit : Nat) : List Char → Option Nat
  | [] => some 0
  | c :: rest =>
    if c.isDigit && unit ≠ 0 then (places? (unit / 10) rest).map (unit * (c.toNat - 48) + ·)
    else none

def weight? (s : String) : Option Nat :=
  match s.toList with
  | q :: '=' :: whole :: rest => do
    guard (q = 'q' || q = 'Q')
    guard (whole = '0' || whole = '1')
    let fraction ← match rest with
      | [] => some 0
      | '.' :: digits => places? 100 digits
      | _ => none
    let weight := (if whole = '1' then 1000 else 0) + fraction
    if weight ≤ 1000 then some weight else none
  | _ => none

def offer? (s : String) : Option (Coding × Nat) :=
  match Text.cut? ';' s with
  | none => (ofName? (Text.trim s)).map (·, 1000)
  | some (name, weight) => do
    let coding ← ofName? (Text.trim name)
    return (coding, ← weight? (Text.trim weight))

def beats (a b : Coding × Nat) : Bool :=
  b.2 < a.2 || (b.2 = a.2 && b.1.rank ≤ a.1.rank)

/-- The coding to use for the values of an accept header; nothing is coded unless one is
accepted. -/
def choose (accepted : List String) : Coding :=
  let offers := ((accepted.flatMap (Text.pieces ',')).filterMap offer?).filter (0 < ·.2)
  match offers with
  | [] => identity
  | first :: others => (others.foldl (fun best o => if beats o best then o else best) first).1

end Coding

end KeyService.Http
