import KeyService.Proofs.Block.Aes
import KeyService.Proofs.Block.GcmSiv
import KeyService.Proofs.Block.Permutation
import KeyService.Suite.Standard
import KeyService.Symmetric.Cipher

/-! Decryption undoes encryption, and encryption undoes decryption.
So no two texts are encrypted alike, and a string that no text is encrypted to is not
decrypted. -/
namespace KeyService

/-- Decryption of blocks undoes their encryption under every key that has a proper length. -/
def Suite.AesInverts (S : Suite) : Prop :=
  ∀ (size : Symmetric.KeySize) (key : Bytes), key.length = size.bytes → (S.aes key).Inverts

theorem Suite.standard_aesInverts : standard.AesInverts := fun _ key _ => Aes.cipher_inverts key

namespace Symmetric

namespace Padding

theorem decryptBlocks_encryptBlocks (p : Padding) {row unrow : List Block → List Block}
    (undone : ∀ blocks, unrow (row blocks) = blocks)
    (lengths : ∀ blocks, (row blocks).length = blocks.length) {text whole : Bytes}
    (encrypted : p.encryptBlocks row text = .ok whole) :
    p.decryptBlocks unrow whole = .ok text := by
  have aligned (blocks : List Block) : ¬ (Block.join (row blocks)).length % 16 ≠ 0 := by
    rw [Block.length_join]
    omega
  cases p with
  | counted =>
    obtain rfl := Except.ok.inj encrypted
    have joined : Block.join (Block.split (KeyService.Padding.add text)).1 =
        KeyService.Padding.add text :=
      Block.join_split_of_whole (KeyService.Padding.whole_add text)
    have filled : (Block.join (row (Block.split (KeyService.Padding.add text)).1)).isEmpty =
        false := by
      refine List.isEmpty_eq_false_iff.mpr fun empty => KeyService.Padding.add_ne_nil text ?_
      have length := congrArg List.length empty
      rw [Block.length_join, lengths, ← Block.length_join, joined] at length
      exact List.length_eq_zero_iff.mp length
    rw [decryptBlocks, if_neg (aligned _)]
    simp only [filled, Block.split_join, undone]
    rw [joined, KeyService.Padding.remove?_add]
    rfl
  | absent =>
    have chosen : (if text.length % 16 = 0 then .ok (Block.join (row (Block.split text).1))
        else Except.error (Error.unaligned text.length)) = .ok whole := encrypted
    split at chosen
    · rename_i multiple
      obtain rfl := Except.ok.inj chosen
      rw [decryptBlocks, if_neg (aligned _)]
      simp only [Block.split_join, undone, Block.join_split_of_whole multiple]
    · cases chosen

theorem encryptBlocks_decryptBlocks (p : Padding) {row unrow : List Block → List Block}
    (redone : ∀ blocks, row (unrow blocks) = blocks) {text whole : Bytes}
    (decrypted : p.decryptBlocks unrow whole = .ok text) :
    p.encryptBlocks row text = .ok whole := by
  have aligned (blocks : List Block) : (Block.join (unrow blocks)).length % 16 = 0 := by
    rw [Block.length_join]
    omega
  unfold decryptBlocks at decrypted
  split at decrypted
  · cases decrypted
  · rename_i multiple
    have joined := Block.join_split_of_whole (Decidable.not_not.mp multiple)
    cases p with
    | counted =>
      dsimp only at decrypted
      split at decrypted
      · cases decrypted
      · split at decrypted
        · rename_i removed
          obtain rfl := Except.ok.inj decrypted
          have padded := (KeyService.Padding.remove?_iff (aligned _)).mp removed
          rw [encryptBlocks, ← padded]
          simp only [Block.split_join, redone, joined]
        · cases decrypted
    | absent =>
      obtain rfl := Except.ok.inj decrypted
      rw [encryptBlocks]
      simp only [aligned, if_true, Block.split_join, redone, joined]

theorem encryptBlocks_accepts (p : Padding) (row : List Block → List Block) (text : Bytes) :
    (∃ whole, p.encryptBlocks row text = .ok whole) ↔ (p = .absent → text.length % 16 = 0) := by
  cases p with
  | counted => exact ⟨fun _ => Padding.noConfusion, fun _ => ⟨_, rfl⟩⟩
  | absent =>
    constructor
    · rintro ⟨whole, encrypted⟩ -
      unfold encryptBlocks at encrypted
      dsimp only at encrypted
      split at encrypted
      · assumption
      · cases encrypted
    · exact fun aligned => ⟨_, if_pos (aligned rfl)⟩

end Padding

namespace Algorithm

variable {S : Suite} {a : Algorithm} {key iv text whole : Bytes}

theorem of_checkKey {α : Type} {next : Except Error α} {r : α}
    (ended : (a.checkKey key >>= fun _ => next) = .ok r) :
    key.length = a.size.bytes ∧ next = .ok r := by
  unfold checkKey at ended
  split at ended
  · rename_i proper
    exact ⟨proper, ended⟩
  · cases ended

theorem of_checkIv {α : Type} {next : Except Error α} {r : α}
    (ended : (a.checkIv iv >>= fun _ => next) = .ok r) :
    iv.length = a.ivLength ∧ next = .ok r := by
  unfold checkIv at ended
  split at ended
  · rename_i proper
    exact ⟨proper, ended⟩
  · cases ended

theorem checkKey_bind {α : Type} (proper : key.length = a.size.bytes) (next : Except Error α) :
    (a.checkKey key >>= fun _ => next) = next := by
  rw [checkKey, if_pos proper]
  rfl

theorem checkIv_bind {α : Type} (proper : iv.length = a.ivLength) (next : Except Error α) :
    (a.checkIv iv >>= fun _ => next) = next := by
  rw [checkIv, if_pos proper]
  rfl

theorem decrypt_encrypt (inverts : S.AesInverts) (encrypted : a.encrypt S key iv text = .ok whole) :
    a.decrypt S key iv whole = .ok text := by
  obtain ⟨proper, encrypted⟩ := of_checkKey encrypted
  have undoes := inverts a.size key proper
  rw [decrypt, checkKey_bind proper]
  cases mode : a.mode with
  | cbc =>
    simp only [mode] at encrypted ⊢
    obtain ⟨length, encrypted⟩ := of_checkIv encrypted
    rw [checkIv_bind length]
    exact a.padding.decryptBlocks_encryptBlocks (Chain.decrypt_encrypt undoes _)
      (Chain.length_encrypt _) encrypted
  | ecb =>
    simp only [mode] at encrypted ⊢
    exact a.padding.decryptBlocks_encryptBlocks (Codebook.decrypt_encrypt undoes)
      (fun _ => List.length_map _) encrypted
  | gcmSiv =>
    simp only [mode] at encrypted ⊢
    obtain ⟨length, encrypted⟩ := of_checkIv encrypted
    rw [checkIv_bind length]
    split at encrypted
    · cases encrypted
    · rename_i known
      obtain rfl := Except.ok.inj encrypted
      rw [if_neg known, GcmSiv.open?_sealed]

theorem encrypt_decrypt (inverts : S.AesInverts) (decrypted : a.decrypt S key iv whole = .ok text) :
    a.encrypt S key iv text = .ok whole := by
  obtain ⟨proper, decrypted⟩ := of_checkKey decrypted
  have undoes := inverts a.size key proper
  rw [encrypt, checkKey_bind proper]
  cases mode : a.mode with
  | cbc =>
    simp only [mode] at decrypted ⊢
    obtain ⟨length, decrypted⟩ := of_checkIv decrypted
    rw [checkIv_bind length]
    exact a.padding.encryptBlocks_decryptBlocks (Chain.encrypt_decrypt undoes _) decrypted
  | ecb =>
    simp only [mode] at decrypted ⊢
    exact a.padding.encryptBlocks_decryptBlocks (Codebook.encrypt_decrypt undoes) decrypted
  | gcmSiv =>
    simp only [mode] at decrypted ⊢
    obtain ⟨length, decrypted⟩ := of_checkIv decrypted
    rw [checkIv_bind length]
    split at decrypted
    · cases decrypted
    · rename_i known
      rw [if_neg known]
      split at decrypted
      · rename_i opened
        obtain rfl := Except.ok.inj decrypted
        rw [(GcmSiv.open?_iff _).mp opened]
      · cases decrypted

theorem decrypt_iff_eq (inverts : S.AesInverts) (encrypted : a.encrypt S key iv text = .ok whole)
    {read : Bytes} : a.decrypt S key iv read = .ok text ↔ read = whole := by
  constructor
  · intro decrypted
    exact Except.ok.inj ((encrypt_decrypt inverts decrypted).symm.trans encrypted)
  · rintro rfl
    exact decrypt_encrypt inverts encrypted

theorem encrypts_chained (size : KeySize) (proper : key.length = size.bytes)
    (block : iv.length = 16) (text : Bytes) :
    ∃ whole, encrypt S ⟨.cbc, .counted, size⟩ key iv text = .ok whole := by
  rw [encrypt, checkKey_bind proper]
  exact ⟨_, checkIv_bind block _⟩

/-- Which texts an algorithm encrypts: the modes that pad nothing ask for whole blocks. -/
def Takes (a : Algorithm) (text : Bytes) : Prop :=
  a.mode ≠ .gcmSiv → a.padding = .absent → text.length % 16 = 0

/-- With a key and an initialisation vector of the right lengths, the texts that are encrypted are
those that the algorithm takes; and some bytes are what a text is encrypted to exactly if the text
is what they are decrypted to. -/
theorem encrypt_iff_decrypt (inverts : S.AesInverts) (a : Algorithm)
    (known : a.mode = .gcmSiv → a.size ≠ .aes192) {key iv : Bytes}
    (properKey : key.length = a.size.bytes) (properIv : a.mode ≠ .ecb → iv.length = a.ivLength) :
    (∀ text, (∃ whole, a.encrypt S key iv text = .ok whole) ↔ a.Takes text) ∧
      ∀ text whole, a.encrypt S key iv text = .ok whole ↔ a.decrypt S key iv whole = .ok text := by
  refine ⟨fun text => ?_, fun text whole => ⟨decrypt_encrypt inverts, encrypt_decrypt inverts⟩⟩
  simp only [encrypt, checkKey_bind properKey, Takes]
  cases mode : a.mode with
  | cbc =>
    simp only [checkIv_bind (properIv (by simp [mode]))]
    simpa using a.padding.encryptBlocks_accepts _ text
  | ecb => simpa using a.padding.encryptBlocks_accepts _ text
  | gcmSiv =>
    simp only [checkIv_bind (properIv (by simp [mode])), if_neg (known mode)]
    simp

theorem encrypt_iff_decrypt_standard :
    let a : Algorithm := ⟨.gcmSiv, .absent, .aes128⟩
    let key : Bytes := List.replicate 16 1
    let nonce : Bytes := List.replicate 12 2
    (∀ text, (∃ whole, a.encrypt Suite.standard key nonce text = .ok whole) ↔ a.Takes text) ∧
      ∀ text whole, a.encrypt Suite.standard key nonce text = .ok whole ↔
        a.decrypt Suite.standard key nonce whole = .ok text :=
  encrypt_iff_decrypt Suite.standard_aesInverts ⟨.gcmSiv, .absent, .aes128⟩
    (fun _ => by decide) rfl fun _ => rfl

theorem encrypt_sealing (proper : key.length = 32) (nonce : iv.length = 12) (text : Bytes) :
    aes256GcmSiv.encrypt S key iv text = .ok (GcmSiv.sealed (GcmSiv.keys S.aes key iv) text) := by
  rw [encrypt, checkKey_bind proper]
  exact checkIv_bind nonce _

theorem decrypt_sealing_iff (proper : key.length = 32) (nonce : iv.length = 12) :
    aes256GcmSiv.decrypt S key iv whole = .ok text ↔
      whole = GcmSiv.sealed (GcmSiv.keys S.aes key iv) text := by
  rw [decrypt, checkKey_bind proper, ← GcmSiv.open?_iff]
  change (aes256GcmSiv.checkIv iv >>= fun _ => _) = _ ↔ _
  rw [checkIv_bind nonce, if_neg (by decide)]
  cases GcmSiv.open? (GcmSiv.keys S.aes key iv) whole <;> simp

end Algorithm

end Symmetric

end KeyService
