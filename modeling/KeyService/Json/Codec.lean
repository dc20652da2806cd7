import KeyService.Json.Reader

/-! Values that have a JSON form.
A codec writes a value as JSON, and reads the JSON form back in two steps: a reader
takes JSON of the expected shape off the bytes, and the value is made of it. -/
namespace KeyService.Json

structure Codec (α : Type) where
  write : α → Json
  shape : Reader Json
  make? : Json → Option α

namespace Codec

variable {α : Type}

def read (c : Codec α) : Reader α := fun bs => do
  let (value, rest) ← c.shape bs
  match c.make? value with
  | some a => .ok (a, rest)
  | none => .error .unfit

/-- Read a whole document: after the value only blanks may follow. -/
def parse (c : Codec α) (bs : Bytes) : Except Fault α := do
  let (a, rest) ← c.read bs
  if (skipSpace rest).isEmpty then .ok a else .error .malformed

def print (c : Codec α) (a : α) : String := (c.write a).print

def pretty (c : Codec α) (a : α) : String := (c.write a).pretty

def text : Codec String where
  write := .text
  shape := Reader.text
  make?
    | .text s => some s
    | _ => none

def optional (c : Codec α) : Codec (Option α) where
  write a := (a.map c.write).getD .null
  shape := Reader.optional c.shape
  make?
    | .null => some none
    | value => (c.make? value).map some

end Codec

end KeyService.Json
