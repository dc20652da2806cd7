import KeyService.Block.Chain
import KeyService.Block.GcmSiv
import KeyService.Block.Padding
import KeyService.Suite
import KeyService.Symmetric.Algorithm

/-! Encryption and decryption of byte strings.
The key is checked first, then the initialisation vector, and last the input; a
codebook looks at no initialisation vector. -/
namespace KeyService.Symmetric

namespace Padding

def encryptBlocks (p : Padding) (row : List Block → List Block) (text : Bytes) :
    Except Error Bytes :=
  match p with
  | .counted => .ok (Block.join (row (Block.split (KeyService.Padding.add text)).1))
  | .absent =>
    if text.length % 16 = 0 then .ok (Block.join (row (Block.split text).1))
    else .error (.unaligned text.length)

/-- Decrypt a string whose blocks `row` decrypts. A padded text is never empty. -/
def decryptBlocks (p : Padding) (row : List Block → List Block) (whole : Bytes) :
    Except Error Bytes :=
  if whole.length % 16 ≠ 0 then .error .malformed
  else
    match p with
    | .counted =>
      if whole.isEmpty then .error .malformed
      else
        match KeyService.Padding.remove? (Block.join (row (Block.split whole).1)) with
        | some text => .ok text
        | none => .error .padding
    | .absent => .ok (Block.join (row (Block.split whole).1))

end Padding

namespace Algorithm

def checkKey (a : Algorithm) (key : Bytes) : Except Error Unit :=
  if key.length = a.size.bytes then .ok () else .error (.keyLength a.size.bytes key.length)

def checkIv (a : Algorithm) (iv : Bytes) : Except Error Unit :=
  if iv.length = a.ivLength then .ok () else .error (.ivLength a.ivLength iv.length)

variable (S : Suite)

def encrypt (a : Algorithm) (key iv text : Bytes) : Except Error Bytes := do
  a.checkKey key
  match a.mode with
  | .cbc =>
    a.checkIv iv
    a.padding.encryptBlocks (Chain.encrypt (S.aes key) (Block.ofBytes iv)) text
  | .ecb => a.padding.encryptBlocks (Codebook.encrypt (S.aes key)) text
  | .gcmSiv =>
    a.checkIv iv
    if a.size = .aes192 then .error (.unsupported a.display)
    else .ok (GcmSiv.sealed (GcmSiv.keys S.aes key iv) text)

def decrypt (a : Algorithm) (key iv whole : Bytes) : Except Error Bytes := do
  a.checkKey key
  match a.mode with
  | .cbc =>
    a.checkIv iv
    a.padding.decryptBlocks (Chain.decrypt (S.aes key) (Block.ofBytes iv)) whole
  | .ecb => a.padding.decryptBlocks (Codebook.decrypt (S.aes key)) whole
  | .gcmSiv =>
    a.checkIv iv
    if a.size = .aes192 then .error (.unsupported a.display)
    else
      match GcmSiv.open? (GcmSiv.keys S.aes key iv) whole with
      | some text => .ok text
      | none => .error .authentication

end Algorithm

end KeyService.Symmetric
