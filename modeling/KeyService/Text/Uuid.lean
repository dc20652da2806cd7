import KeyService.Bytes

/-! Random identifiers of 128 bits, six of which say that the rest is random. -/
namespace KeyService.Text

def uuid (random : Bytes) : String :=
  let marked := (random.modify 6 fun b => (b &&& 0x0F) ||| 0x40).modify 8 fun b =>
    (b &&& 0x3F) ||| 0x80
  let group (start length : Nat) : String := Bytes.hex ((marked.drop start).take length)
  String.intercalate "-" [group 0 4, group 4 2, group 6 2, group 8 2, group 10 6]

end KeyService.Text
