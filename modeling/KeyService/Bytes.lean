/-! Byte strings.
A byte string is a list of bytes, so that a law about it is a law about lists.
Texts become bytes by their UTF-8 encoding, and numbers are written with the
most significant byte first. -/
namespace KeyService

abbrev Bytes := List UInt8

namespace Bytes

def ofText (s : String) : Bytes := s.toByteArray.data.toList

def text? (bs : Bytes) : Option String := String.fromUTF8? ⟨bs.toArray⟩

@[simp] theorem text?_ofText (s : String) : text? (ofText s) = some s := by
  cases s with
  | ofByteArray bytes valid =>
    have same : (⟨bytes.data.toList.toArray⟩ : ByteArray) = bytes := by simp
    simp only [text?, ofText, same, String.fromUTF8?, dif_pos valid]
    rfl

def xor (a b : Bytes) : Bytes := List.zipWith (· ^^^ ·) a b

/-- The number that the bytes denote in base 256, most significant byte first. -/
def toNat (bs : Bytes) : Nat := bs.foldl (fun n b => n * 256 + b.toNat) 0

def ofNat (width n : Nat) : Bytes :=
  match width with
  | 0 => []
  | w + 1 => ofNat w (n / 256) ++ [UInt8.ofNat (n % 256)]

@[simp] theorem length_ofNat (width n : Nat) : (ofNat width n).length = width := by
  induction width generalizing n with
  | zero => rfl
  | succ w ih => simp [ofNat, ih]

def hexDigit (n : Nat) : Char := Char.ofNat (if n < 10 then 48 + n else 87 + n)

def hex (bs : Bytes) : String :=
  String.ofList (bs.flatMap fun b => [hexDigit (b.toNat / 16), hexDigit (b.toNat % 16)])

def hexValue? (c : Char) : Option Nat :=
  if '0' ≤ c ∧ c ≤ '9' then some (c.toNat - 48)
  else if 'a' ≤ c ∧ c ≤ 'f' then some (c.toNat - 87)
  else if 'A' ≤ c ∧ c ≤ 'F' then some (c.toNat - 55)
  else none

def unhex? : List Char → Option Bytes
  | [] => some []
  | [_] => none
  | hi :: lo :: rest => do
    let h ← hexValue? hi
    let l ← hexValue? lo
    let tail ← unhex? rest
    return UInt8.ofNat (h * 16 + l) :: tail

end Bytes

end KeyService
