import KeyService.Bytes

/-! Base64 in its canonical form.
Three bytes become four symbols. A last group of one or two bytes becomes two or
three symbols, followed by padding where the form asks for it. A reader accepts
what the writer produces and nothing else: the padding is exact, the unused low
bits of the last symbol are zero, and no other character is allowed. -/
namespace KeyService.Base64

/-- The two symbols that tell the alphabets apart, and whether groups are padded. -/
structure Form where
  sixtyTwo : Char
  sixtyThree : Char
  padded : Bool
  deriving DecidableEq

def standard : Form := ⟨'+', '/', true⟩

def urlSafe : Form := ⟨'-', '_', false⟩

namespace Form

def symbol (f : Form) (v : Nat) : Char :=
  if v < 26 then Char.ofNat (65 + v)
  else if v < 52 then Char.ofNat (71 + v)
  else if v < 62 then Char.ofNat (v - 4)
  else if v = 62 then f.sixtyTwo
  else f.sixtyThree

def value? (f : Form) (c : Char) : Option Nat :=
  if 'A' ≤ c ∧ c ≤ 'Z' then some (c.toNat - 65)
  else if 'a' ≤ c ∧ c ≤ 'z' then some (c.toNat - 71)
  else if '0' ≤ c ∧ c ≤ '9' then some (c.toNat + 4)
  else if c = f.sixtyTwo then some 62
  else if c = f.sixtyThree then some 63
  else none

def padding (f : Form) (n : Nat) : List Char :=
  if f.padded then List.replicate n '=' else []

/-- Write `bs` after the symbols in `done`, which are held in reverse. -/
def encodeAfter (f : Form) (done : List Char) : Bytes → List Char
  | [] => done.reverse
  | [a] =>
    let n := a.toNat * 16
    done.reverse ++ f.symbol (n / 64) :: f.symbol (n % 64) :: f.padding 2
  | [a, b] =>
    let n := (a.toNat * 256 + b.toNat) * 4
    done.reverse ++ f.symbol (n / 4096) :: f.symbol (n / 64 % 64) :: f.symbol (n % 64) :: f.padding 1
  | a :: b :: c :: rest =>
    let n := (a.toNat * 256 + b.toNat) * 256 + c.toNat
    encodeAfter f (f.symbol (n % 64) :: f.symbol (n / 64 % 64) :: f.symbol (n / 4096 % 64)
      :: f.symbol (n / 262144) :: done) rest

def encodeChars (f : Form) (bs : Bytes) : List Char := f.encodeAfter [] bs

/-- One byte from a group of two symbols; the four unused bits have to be zero. -/
def oneByte? (f : Form) (p q : Char) : Option Bytes := do
  let u ← f.value? p
  let v ← f.value? q
  let n := u * 64 + v
  if n % 16 = 0 then some [UInt8.ofNat (n / 16)] else none

def twoBytes? (f : Form) (p q r : Char) : Option Bytes := do
  let u ← f.value? p
  let v ← f.value? q
  let w ← f.value? r
  let n := (u * 64 + v) * 64 + w
  if n % 4 = 0 then some [UInt8.ofNat (n / 1024), UInt8.ofNat (n / 4 % 256)] else none

def threeBytes? (f : Form) (p q r s : Char) : Option Bytes := do
  let u ← f.value? p
  let v ← f.value? q
  let w ← f.value? r
  let x ← f.value? s
  let n := ((u * 64 + v) * 64 + w) * 64 + x
  some [UInt8.ofNat (n / 65536), UInt8.ofNat (n / 256 % 256), UInt8.ofNat (n % 256)]

def decodeAfter? (f : Form) (done : Bytes) : List Char → Option Bytes
  | [] => some done.reverse
  | [p, q] => if f.padded then none else (f.oneByte? p q).map (done.reverse ++ ·)
  | [p, q, r] => if f.padded then none else (f.twoBytes? p q r).map (done.reverse ++ ·)
  | p :: q :: r :: s :: rest =>
    if rest.isEmpty ∧ f.padded ∧ s = '=' then
      (if r = '=' then f.oneByte? p q else f.twoBytes? p q r).map (done.reverse ++ ·)
    else
      match f.threeBytes? p q r s with
      | some head => decodeAfter? f (head.reverse ++ done) rest
      | none => none
  | _ => none

def decodeChars? (f : Form) (cs : List Char) : Option Bytes := f.decodeAfter? [] cs

def encode (f : Form) (bs : Bytes) : String := String.ofList (f.encodeChars bs)

def decode? (f : Form) (s : String) : Option Bytes := f.decodeChars? s.toList

end Form

end KeyService.Base64
