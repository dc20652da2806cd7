import KeyService.Proofs.Block.Row
import Mathlib.Data.FinEnum
import Mathlib.Data.Fintype.Card

/-! Rows that are encrypted again.
There are finitely many blocks, so a cipher that decrypts what it encrypted has every block
among its encryptions: it permutes the blocks, and encryption undoes decryption as well. -/
namespace KeyService

instance : Finite Block := by
  let byteAt (b : Block) (i : Fin 16) : UInt8 := b.bytes.get (i.cast b.length_bytes.symm)
  refine Finite.of_injective byteAt fun a b same => Block.ext (List.ext_get (by simp) ?_)
  intro n small small'
  exact congrFun same ⟨n, a.length_bytes ▸ small⟩

variable {c : BlockCipher}

theorem BlockCipher.Inverts.forward_backward (inverts : c.Inverts) (b : Block) :
    c.forward (c.backward b) = b := by
  have injective : Function.Injective c.forward := Function.LeftInverse.injective inverts
  obtain ⟨a, rfl⟩ := Finite.surjective_of_injective injective b
  rw [inverts]

theorem Codebook.encrypt_decrypt (inverts : c.Inverts) (blocks : List Block) :
    encrypt c (decrypt c blocks) = blocks := by
  rw [encrypt, decrypt, List.map_map]
  exact List.map_id'' inverts.forward_backward blocks

theorem Chain.encrypt_decrypt (inverts : c.Inverts) (iv : Block) (blocks : List Block) :
    encrypt c iv (decrypt c iv blocks) = blocks := by
  induction blocks generalizing iv with
  | nil => rfl
  | cons b blocks ih =>
    rw [decrypt_cons, encrypt_cons, Block.xor_xor, inverts.forward_backward, ih]

end KeyService
