import KeyService.Bytes

/-! Byte strings as machine words.
Block ciphers and digests work on words of thirty-two bits with the most
significant byte first; the polynomial hash of GCM-SIV works on words of
sixty-four bits with the least significant byte first. -/
namespace KeyService.Bytes

def word (a b c d : UInt8) : UInt32 :=
  (a.toUInt32 <<< 24) ||| (b.toUInt32 <<< 16) ||| (c.toUInt32 <<< 8) ||| d.toUInt32

def ofWord (w : UInt32) : Bytes :=
  [(w >>> 24).toUInt8, (w >>> 16).toUInt8, (w >>> 8).toUInt8, w.toUInt8]

@[simp] theorem length_ofWord (w : UInt32) : (ofWord w).length = 4 := rfl

/-- The words of a byte string; up to three bytes at its end are left out. -/
def words : Bytes → List UInt32
  | a :: b :: c :: d :: rest => word a b c d :: words rest
  | _ => []

def ofLongWord (w : UInt64) : Bytes :=
  [w.toUInt8, (w >>> 8).toUInt8, (w >>> 16).toUInt8, (w >>> 24).toUInt8,
    (w >>> 32).toUInt8, (w >>> 40).toUInt8, (w >>> 48).toUInt8, (w >>> 56).toUInt8]

@[simp] theorem length_ofLongWord (w : UInt64) : (ofLongWord w).length = 8 := rfl

/-- The long word of bytes, least significant first. -/
def longWord (bs : Bytes) : UInt64 := bs.foldr (fun b w => (w <<< 8) ||| b.toUInt64) 0

def littleWord (bs : Bytes) : UInt32 := bs.foldr (fun b w => (w <<< 8) ||| b.toUInt32) 0

def ofLittleWord (w : UInt32) : Bytes := (ofWord w).reverse

@[simp] theorem length_ofLittleWord (w : UInt32) : (ofLittleWord w).length = 4 := rfl

end KeyService.Bytes
