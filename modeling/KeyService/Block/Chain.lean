import KeyService.Block.Basic

/-! Two ways to encrypt a row of blocks.
In a codebook every block is encrypted by itself. In a chain every block is first
combined with the encryption of the one before it, the first one with an
initialisation vector. -/
namespace KeyService

namespace Codebook

def encrypt (c : BlockCipher) (blocks : List Block) : List Block := blocks.map c.forward

def decrypt (c : BlockCipher) (blocks : List Block) : List Block := blocks.map c.backward

end Codebook

namespace Chain

def encryptAfter (c : BlockCipher) (done : List Block) (previous : Block) :
    List Block → List Block
  | [] => done.reverse
  | b :: rest =>
    let encrypted := c.forward (previous.xor b)
    encryptAfter c (encrypted :: done) encrypted rest

def encrypt (c : BlockCipher) (iv : Block) (blocks : List Block) : List Block :=
  encryptAfter c [] iv blocks

/-- Decryption looks only at encrypted blocks, so each block is recovered from itself and its
predecessor. -/
def decrypt (c : BlockCipher) (iv : Block) (blocks : List Block) : List Block :=
  List.zipWith (fun previous b => previous.xor (c.backward b)) (iv :: blocks) blocks

end Chain

end KeyService
