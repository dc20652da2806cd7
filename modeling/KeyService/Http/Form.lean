import KeyService.Text.Blank
import KeyService.Text.Utf8

/-! Queries as names and values.
Pairs are separated by ampersands, and a name from its value by the first equals sign.
A plus sign is a blank, and a percent sign starts the two hexadecimal digits of a byte;
one that does not is left as it is. -/
namespace KeyService.Http.Form

def unescape : Bytes → Bytes
  | 0x25 :: hi :: lo :: rest =>
    match Bytes.unhex? [Char.ofNat hi.toNat, Char.ofNat lo.toNat] with
    | some bs => bs ++ unescape rest
    | none => 0x25 :: unescape (hi :: lo :: rest)
  | b :: rest => b :: unescape rest
  | [] => []

def decode (s : String) : String :=
  Utf8.readMended (unescape ((Bytes.ofText s).map fun b => if b = 0x2B then 0x20 else b))

def pair (s : String) : String × String :=
  match Text.cut? '=' s with
  | some (name, value) => (decode name, decode value)
  | none => (decode s, "")

def pairs (query : String) : List (String × String) :=
  ((Text.pieces '&' query).filter (· ≠ "")).map pair

end KeyService.Http.Form
