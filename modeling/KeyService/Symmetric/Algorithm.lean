import KeyService.Text.Blank

/-! The AES variants and their names.
An algorithm is a mode, a padding and a key size. It is named by text as
AES/mode/padding together with a number of bits; the name that the algorithm
gives for itself is one of the names that are read as that algorithm. -/
namespace KeyService.Symmetric

inductive KeySize where
  | aes128
  | aes192
  | aes256
  deriving DecidableEq, Repr

namespace KeySize

def bits : KeySize → UInt16
  | aes128 => 128
  | aes192 => 192
  | aes256 => 256

def bytes : KeySize → Nat
  | aes128 => 16
  | aes192 => 24
  | aes256 => 32

def ofBits? (bits : UInt16) : Option KeySize :=
  if bits = 128 then some aes128
  else if bits = 192 then some aes192
  else if bits = 256 then some aes256
  else none

end KeySize

inductive Mode where
  | cbc
  | ecb
  | gcmSiv
  deriving DecidableEq, Repr

inductive Padding where
  /-- As many bytes as are missing, each of them that number (PKCS #7). -/
  | counted
  | absent
  deriving DecidableEq, Repr

structure Algorithm where
  mode : Mode
  padding : Padding
  size : KeySize
  deriving DecidableEq, Repr

inductive Error where
  | unsupported (what : String)
  | keyLength (expected actual : Nat)
  | ivLength (expected actual : Nat)
  | unaligned (length : Nat)
  | malformed
  | padding
  | authentication
  deriving DecidableEq, Repr

def Error.message : Error → String
  | unsupported what => "unsupported symmetric algorithm: " ++ what
  | keyLength expected actual =>
    "invalid key length: expected " ++ toString expected ++ " bytes, got " ++ toString actual
  | ivLength expected actual =>
    "invalid IV length: expected " ++ toString expected ++ " bytes, got " ++ toString actual
  | unaligned length =>
    "input length " ++ toString length ++ " is not a multiple of the AES block size"
  | malformed => "malformed ciphertext"
  | padding => "padding check failed"
  | authentication => "authenticated decryption failed"

def KeySize.ofBits (bits : UInt16) : Except Error KeySize :=
  match ofBits? bits with
  | some size => .ok size
  | none => .error (.unsupported ("AES key length " ++ toString bits.toNat))

namespace Mode

def ofName? (name : String) : Option Mode :=
  if name = "CBC" then some cbc
  else if name = "ECB" then some ecb
  else if name = "GCM-SIV" ∨ name = "GCMSIV" then some gcmSiv
  else none

end Mode

namespace Padding

def ofName? (name : String) : Option Padding :=
  if name = "PKCS5PADDING" ∨ name = "PKCS7PADDING" then some counted
  else if name = "NOPADDING" then some absent
  else none

end Padding

namespace Algorithm

def aes256Cbc : Algorithm := ⟨.cbc, .counted, .aes256⟩

def aes256GcmSiv : Algorithm := ⟨.gcmSiv, .absent, .aes256⟩

/-- Combinations that have no meaning: GCM-SIV pads nothing and knows no 192-bit key. -/
def isMeaningful (a : Algorithm) : Bool :=
  a.mode ≠ .gcmSiv || (a.padding = .absent && a.size ≠ .aes192)

def ofParts? (size : KeySize) : List String → Option Algorithm
  | [cipher, mode, padding] => do
    guard (Text.sameLetters cipher "AES")
    let mode ← Mode.ofName? (Text.upper mode)
    let padding ← Padding.ofName? (Text.upper padding)
    let algorithm : Algorithm := ⟨mode, padding, size⟩
    guard algorithm.isMeaningful
    return algorithm
  | _ => none

/-- Read a name with its number of bits. The number is looked at first, white space around
the name and the case of its letters do not count. -/
def ofName (name : String) (bits : UInt16) : Except Error Algorithm := do
  let size ← KeySize.ofBits bits
  match ofParts? size (Text.pieces '/' (Text.trim name)) with
  | some algorithm => .ok algorithm
  | none => .error (.unsupported name)

def name (a : Algorithm) : String :=
  match a.mode, a.padding with
  | .cbc, .counted => "AES/CBC/PKCS5Padding"
  | .cbc, .absent => "AES/CBC/NoPadding"
  | .ecb, .counted => "AES/ECB/PKCS5Padding"
  | .ecb, .absent => "AES/ECB/NoPadding"
  | .gcmSiv, _ => "AES/GCM-SIV/NoPadding"

def display (a : Algorithm) : String :=
  a.name ++ "(" ++ toString a.size.bits.toNat ++ ")"

def ivLength (a : Algorithm) : Nat :=
  match a.mode with
  | .cbc => 16
  | .ecb => 0
  | .gcmSiv => 12

end Algorithm

end KeyService.Symmetric
