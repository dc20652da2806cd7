import KeyService.Bytes

/-! Padding to whole blocks by a count.
As many bytes are added as are missing to the next multiple of sixteen, at least
one, and each of them is their number; so the padding can be told from the text. -/
namespace KeyService.Padding

def missing (length : Nat) : Nat := 16 - length % 16

def add (bs : Bytes) : Bytes :=
  bs ++ List.replicate (missing bs.length) (UInt8.ofNat (missing bs.length))

def remove? (bs : Bytes) : Option Bytes :=
  match bs.getLast? with
  | none => none
  | some last =>
    let count := last.toNat
    let tail := bs.drop (bs.length - count)
    if 1 ≤ count ∧ count ≤ 16 ∧ tail = List.replicate count last then
      some (bs.take (bs.length - count))
    else none

end KeyService.Padding
