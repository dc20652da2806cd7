import KeyService.Proofs.Symmetric.Inverse

/-! What encryption and decryption refuse, and how long a ciphertext is.
The key is looked at first, then the initialisation vector, then whether the mode has keys of
that length, and last the input. Every complaint has one condition; where none of them holds
there is a result, and the length of a ciphertext is known before it is made. -/
namespace KeyService.Symmetric

namespace Padding

variable {p : Padding} {row : List Block → List Block} {text whole : Bytes} {cause : Error}

theorem encryptBlocks_error_iff : p.encryptBlocks row text = .error cause ↔
    p = .absent ∧ text.length % 16 ≠ 0 ∧ cause = .unaligned text.length := by
  cases p with
  | counted => simp [encryptBlocks]
  | absent =>
    by_cases aligned : text.length % 16 = 0
    · simp [encryptBlocks, aligned]
    · simp [encryptBlocks, aligned, eq_comm]

/-- How long the blocks of a text of `n` bytes are. -/
def lengthAfter (p : Padding) (n : Nat) : Nat :=
  match p with
  | .counted => 16 * (n / 16 + 1)
  | .absent => n

/-- Blocks stay blocks, so only the padding makes a ciphertext longer than its text. -/
theorem length_encryptBlocks (lengths : ∀ blocks, (row blocks).length = blocks.length)
    (encrypted : p.encryptBlocks row text = .ok whole) :
    whole.length = p.lengthAfter text.length := by
  have kept {bs : Bytes} (aligned : bs.length % 16 = 0) :
      (Block.join (row (Block.split bs).1)).length = bs.length := by
    rw [Block.length_join, lengths, ← Block.length_join, Block.join_split_of_whole aligned]
  cases p with
  | counted =>
    obtain rfl := Except.ok.inj encrypted
    have padded := kept (KeyService.Padding.whole_add text)
    rw [KeyService.Padding.length_add, KeyService.Padding.missing] at padded
    simp only [lengthAfter]
    omega
  | absent =>
    by_cases aligned : text.length % 16 = 0
    · simp only [encryptBlocks, aligned, if_true, Except.ok.injEq] at encrypted
      subst encrypted
      exact kept aligned
    · simp [encryptBlocks, aligned] at encrypted

/-- Blocks that are whole are decrypted. Whether what comes out is padded is looked at afterwards,
and only if it should be. -/
theorem decryptBlocks_error_iff : p.decryptBlocks row whole = .error cause ↔
    (cause = .malformed ∧ (whole.length % 16 ≠ 0 ∨ p = .counted ∧ whole = [])) ∨
      (cause = .padding ∧ p = .counted ∧ whole.length % 16 = 0 ∧ whole ≠ [] ∧
        ∀ text, absent.decryptBlocks row whole ≠ .ok (KeyService.Padding.add text)) := by
  by_cases aligned : whole.length % 16 = 0
  · obtain ⟨out, came⟩ : ∃ out, Block.join (row (Block.split whole).1) = out := ⟨_, rfl⟩
    have decrypted : absent.decryptBlocks row whole = .ok out := by
      simp [decryptBlocks, aligned, came]
    have blocks : out.length % 16 = 0 := by
      rw [← came, Block.length_join]
      omega
    cases p with
    | absent => simp [decrypted, aligned]
    | counted =>
      by_cases empty : whole = []
      · simp [decryptBlocks, empty, eq_comm (a := Error.malformed)]
      · have padded {text : Bytes} : KeyService.Padding.remove? out = some text ↔
            out = KeyService.Padding.add text := KeyService.Padding.remove?_iff blocks
        cases removed : KeyService.Padding.remove? out with
        | some text =>
          have read : counted.decryptBlocks row whole = .ok text := by
            simp [decryptBlocks, aligned, empty, came, removed]
          simp [read, decrypted, aligned, empty, padded.mp removed]
        | none =>
          have unpadded (text : Bytes) : out ≠ KeyService.Padding.add text := by
            intro same
            simp [padded.mpr same] at removed
          have failed : counted.decryptBlocks row whole = .error .padding := by
            simp [decryptBlocks, aligned, empty, came, removed]
          simp [failed, decrypted, aligned, empty, unpadded, eq_comm (a := Error.padding)]
  · simp [decryptBlocks, aligned, eq_comm (a := Error.malformed)]

end Padding

namespace Algorithm

/-- What is wrong with a key or an initialisation vector, whatever the input is. -/
inductive Refuses (a : Algorithm) (key iv : Bytes) : Error → Prop where
  | key (length : key.length ≠ a.size.bytes) :
    Refuses a key iv (.keyLength a.size.bytes key.length)
  | iv (length : key.length = a.size.bytes) (looked : a.mode ≠ .ecb)
      (ivLength : iv.length ≠ a.ivLength) : Refuses a key iv (.ivLength a.ivLength iv.length)
  | unsupported (length : key.length = a.size.bytes) (ivLength : iv.length = a.ivLength)
      (mode : a.mode = .gcmSiv) (size : a.size = .aes192) :
    Refuses a key iv (.unsupported a.display)

/-- A key and an initialisation vector that an algorithm works with. A codebook takes any vector,
and looks at none. -/
structure Fits (a : Algorithm) (key iv : Bytes) : Prop where
  key : key.length = a.size.bytes
  iv : a.mode ≠ .ecb → iv.length = a.ivLength
  known : a.mode = .gcmSiv → a.size ≠ .aes192

/-- What is wrong when a text is encrypted: a text that is not padded has to be whole blocks. -/
inductive EncryptRefuses (a : Algorithm) (key iv text : Bytes) : Error → Prop where
  | material {cause : Error} (refused : a.Refuses key iv cause) : EncryptRefuses a key iv text cause
  | unaligned (fits : a.Fits key iv) (blocks : a.mode ≠ .gcmSiv) (padding : a.padding = .absent)
      (length : text.length % 16 ≠ 0) : EncryptRefuses a key iv text (.unaligned text.length)

/-- What is wrong when a ciphertext is decrypted. Padding is looked for in what would come out if
there were none; authentic is what some text is encrypted to. -/
inductive DecryptRefuses (S : Suite) (a : Algorithm) (key iv whole : Bytes) : Error → Prop where
  | material {cause : Error} (refused : a.Refuses key iv cause) :
    DecryptRefuses S a key iv whole cause
  | malformed (fits : a.Fits key iv) (blocks : a.mode ≠ .gcmSiv)
      (length : whole.length % 16 ≠ 0 ∨ a.padding = .counted ∧ whole = []) :
    DecryptRefuses S a key iv whole .malformed
  | padding (fits : a.Fits key iv) (blocks : a.mode ≠ .gcmSiv) (padded : a.padding = .counted)
      (length : whole.length % 16 = 0) (filled : whole ≠ [])
      (unpadded : ∀ text, decrypt S { a with padding := .absent } key iv whole ≠
        .ok (KeyService.Padding.add text)) :
    DecryptRefuses S a key iv whole .padding
  | authentication (fits : a.Fits key iv) (mode : a.mode = .gcmSiv)
      (forged : ∀ text, a.encrypt S key iv text ≠ .ok whole) :
    DecryptRefuses S a key iv whole .authentication

/-- The length of what a text of `n` bytes is encrypted to. -/
def encryptedLength (a : Algorithm) (n : Nat) : Nat :=
  if a.mode = .gcmSiv then n + 16 else a.padding.lengthAfter n

variable {S : Suite} {a : Algorithm} {key iv text whole : Bytes} {cause : Error}

theorem fits_or_refuses (a : Algorithm) (key iv : Bytes) :
    a.Fits key iv ∨ ∃ cause, a.Refuses key iv cause := by
  by_cases length : key.length = a.size.bytes
  · by_cases bad : a.mode ≠ .ecb ∧ iv.length ≠ a.ivLength
    · exact .inr ⟨_, .iv length bad.1 bad.2⟩
    · have ivLength : a.mode ≠ .ecb → iv.length = a.ivLength := by
        intro looked
        by_contra unfit
        exact bad ⟨looked, unfit⟩
      by_cases unknown : a.mode = .gcmSiv ∧ a.size = .aes192
      · exact .inr ⟨_, .unsupported length (ivLength (by simp [unknown.1])) unknown.1 unknown.2⟩
      · exact .inl ⟨length, ivLength, fun mode size => unknown ⟨mode, size⟩⟩
  · exact .inr ⟨_, .key length⟩

theorem refused (refused : a.Refuses key iv cause) (text whole : Bytes) :
    a.encrypt S key iv text = .error cause ∧ a.decrypt S key iv whole = .error cause := by
  cases refused with
  | key length =>
    have failed : a.checkKey key = .error (.keyLength a.size.bytes key.length) := if_neg length
    rw [encrypt, decrypt, failed]
    exact ⟨rfl, rfl⟩
  | iv length looked ivLength =>
    have failed : a.checkIv iv = .error (.ivLength a.ivLength iv.length) := if_neg ivLength
    rw [encrypt, decrypt, checkKey_bind length, checkKey_bind length]
    cases mode : a.mode with
    | ecb => exact absurd mode looked
    | cbc =>
      simp only [failed]
      exact ⟨rfl, rfl⟩
    | gcmSiv =>
      simp only [failed]
      exact ⟨rfl, rfl⟩
  | unsupported length ivLength mode size =>
    rw [encrypt, decrypt, checkKey_bind length, checkKey_bind length]
    simp only [mode, checkIv_bind ivLength, if_pos size]
    exact ⟨trivial, trivial⟩

/-- In a mode that has blocks, the padding decides what happens to the input. -/
theorem blocks_of_fits (fits : a.Fits key iv) (blocks : a.mode ≠ .gcmSiv) :
    ∃ row unrow : List Block → List Block, (∀ bs, (row bs).length = bs.length) ∧
      (∀ text, a.encrypt S key iv text = a.padding.encryptBlocks row text) ∧
      ∀ padding whole, decrypt S { a with padding := padding } key iv whole =
        padding.decryptBlocks unrow whole := by
  obtain ⟨mode, _, size⟩ := a
  have other (padding : Padding) : key.length = (⟨mode, padding, size⟩ : Algorithm).size.bytes :=
    fits.key
  cases mode with
  | cbc =>
    have ivLength (padding : Padding) :
        iv.length = (⟨.cbc, padding, size⟩ : Algorithm).ivLength := fits.iv (by simp)
    refine ⟨Chain.encrypt (S.aes key) (Block.ofBytes iv),
      Chain.decrypt (S.aes key) (Block.ofBytes iv), Chain.length_encrypt _, fun text => ?_,
      fun padding whole => ?_⟩
    · rw [encrypt, checkKey_bind (other _)]
      exact checkIv_bind (ivLength _) _
    · rw [decrypt, checkKey_bind (other _)]
      exact checkIv_bind (ivLength _) _
  | ecb =>
    refine ⟨Codebook.encrypt (S.aes key), Codebook.decrypt (S.aes key),
      fun _ => List.length_map _, fun text => ?_, fun padding whole => ?_⟩
    · rw [encrypt, checkKey_bind (other _)]
    · rw [decrypt, checkKey_bind (other _)]
  | gcmSiv => exact absurd rfl blocks

/-- What is sealed is the text, whatever the padding says. -/
theorem seals_of_fits (fits : a.Fits key iv) (mode : a.mode = .gcmSiv) :
    (∀ text, a.encrypt S key iv text = .ok (GcmSiv.sealed (GcmSiv.keys S.aes key iv) text)) ∧
      ∀ whole cause, a.decrypt S key iv whole = .error cause ↔ cause = .authentication ∧
        ∀ text, whole ≠ GcmSiv.sealed (GcmSiv.keys S.aes key iv) text := by
  have ivLength := fits.iv (by simp [mode])
  have known := fits.known mode
  constructor
  · intro text
    rw [encrypt, checkKey_bind fits.key]
    simp only [mode, checkIv_bind ivLength, if_neg known]
  · intro whole cause
    rw [decrypt, checkKey_bind fits.key]
    have opens (text : Bytes) : GcmSiv.open? (GcmSiv.keys S.aes key iv) whole = some text ↔
        whole = GcmSiv.sealed (GcmSiv.keys S.aes key iv) text := GcmSiv.open?_iff _
    simp only [mode, checkIv_bind ivLength, if_neg known, ne_eq, ← opens]
    cases GcmSiv.open? (GcmSiv.keys S.aes key iv) whole with
    | some text => simp
    | none => simp [eq_comm (a := Error.authentication)]

theorem Fits.unrefused (fits : a.Fits key iv) : ¬ a.Refuses key iv cause := by
  intro refused
  cases refused with
  | key length => exact length fits.key
  | iv length looked ivLength => exact ivLength (fits.iv looked)
  | unsupported length ivLength mode size => exact fits.known mode size

theorem encrypt_error_iff :
    a.encrypt S key iv text = .error cause ↔ a.EncryptRefuses key iv text cause := by
  constructor
  · intro failed
    rcases fits_or_refuses a key iv with fits | ⟨cause', bad⟩
    · by_cases mode : a.mode = .gcmSiv
      · simp [(seals_of_fits fits mode).1] at failed
      · obtain ⟨row, unrow, -, encrypts, -⟩ := blocks_of_fits (S := S) fits mode
        rw [encrypts, Padding.encryptBlocks_error_iff] at failed
        obtain ⟨padding, length, rfl⟩ := failed
        exact .unaligned fits mode padding length
    · obtain rfl := Except.error.inj (failed.symm.trans (refused bad text []).1)
      exact .material bad
  · intro bad
    cases bad with
    | material bad => exact (refused bad text []).1
    | unaligned fits mode padding length =>
      obtain ⟨row, unrow, -, encrypts, -⟩ := blocks_of_fits (S := S) fits mode
      rw [encrypts, Padding.encryptBlocks_error_iff]
      exact ⟨padding, length, rfl⟩

theorem decrypt_error_iff :
    a.decrypt S key iv whole = .error cause ↔ a.DecryptRefuses S key iv whole cause := by
  constructor
  · intro failed
    rcases fits_or_refuses a key iv with fits | ⟨cause', bad⟩
    · by_cases mode : a.mode = .gcmSiv
      · obtain ⟨rfl, forged⟩ := ((seals_of_fits fits mode).2 whole cause).mp failed
        apply DecryptRefuses.authentication fits mode
        intro text encrypted
        rw [(seals_of_fits fits mode).1] at encrypted
        exact forged text (Except.ok.inj encrypted).symm
      · obtain ⟨row, unrow, -, -, decrypts⟩ := blocks_of_fits (S := S) fits mode
        have undone := decrypts a.padding whole
        rw [failed] at undone
        rcases Padding.decryptBlocks_error_iff.mp undone.symm with
          ⟨rfl, length⟩ | ⟨rfl, padded, length, filled, unpadded⟩
        · exact .malformed fits mode length
        · apply DecryptRefuses.padding fits mode padded length filled
          intro text
          rw [decrypts]
          exact unpadded text
    · obtain rfl := Except.error.inj (failed.symm.trans (refused bad [] whole).2)
      exact .material bad
  · intro bad
    cases bad with
    | material bad => exact (refused bad [] whole).2
    | malformed fits mode length =>
      obtain ⟨row, unrow, -, -, decrypts⟩ := blocks_of_fits (S := S) fits mode
      apply (decrypts a.padding whole).trans
      exact Padding.decryptBlocks_error_iff.mpr (.inl ⟨rfl, length⟩)
    | padding fits mode padded length filled unpadded =>
      obtain ⟨row, unrow, -, -, decrypts⟩ := blocks_of_fits (S := S) fits mode
      simp only [decrypts] at unpadded
      apply (decrypts a.padding whole).trans
      exact Padding.decryptBlocks_error_iff.mpr (.inr ⟨rfl, padded, length, filled, unpadded⟩)
    | authentication fits mode forged =>
      apply ((seals_of_fits fits mode).2 whole .authentication).mpr
      refine ⟨rfl, fun text same => forged text ?_⟩
      rw [(seals_of_fits fits mode).1, same]

theorem length_of_encrypt (encrypted : a.encrypt S key iv text = .ok whole) :
    whole.length = a.encryptedLength text.length := by
  rcases fits_or_refuses a key iv with fits | ⟨cause, bad⟩
  · by_cases mode : a.mode = .gcmSiv
    · rw [(seals_of_fits fits mode).1] at encrypted
      obtain rfl := Except.ok.inj encrypted
      simp [encryptedLength, mode, GcmSiv.length_sealed]
    · obtain ⟨row, unrow, lengths, encrypts, -⟩ := blocks_of_fits (S := S) fits mode
      rw [encrypts] at encrypted
      rw [encryptedLength, if_neg mode]
      exact Padding.length_encryptBlocks lengths encrypted
  · rw [(refused bad text []).1] at encrypted
    cases encrypted

theorem length_chained {size : KeySize}
    (encrypted : encrypt S ⟨.cbc, .counted, size⟩ key iv text = .ok whole) :
    whole.length = 16 * (text.length / 16 + 1) :=
  length_of_encrypt encrypted

/-- With a proper key and initialisation vector, what is not decrypted is not made of whole blocks,
or not padded. -/
theorem error_of_chained {size : KeySize} (proper : key.length = size.bytes)
    (block : iv.length = 16)
    (failed : decrypt S ⟨.cbc, .counted, size⟩ key iv whole = .error cause) :
    cause = .malformed ∨ cause = .padding := by
  have fits : Fits ⟨.cbc, .counted, size⟩ key iv := ⟨proper, fun _ => block, by simp⟩
  cases decrypt_error_iff.mp failed with
  | material refused => exact absurd refused fits.unrefused
  | malformed => exact .inl rfl
  | padding => exact .inr rfl
  | authentication _ mode => simp at mode

/-- Each complaint is made exactly under its condition. A text that is not complained of is
encrypted to a string of the length that was known before, and a codebook does the same with every
initialisation vector. (No bound is set to the length of a sealed text; the standard has one at two to
the thirty-six bytes.) -/
theorem refusals_exact (S : Suite) (a : Algorithm) (key iv : Bytes) :
    (∀ text cause, a.encrypt S key iv text = .error cause ↔ a.EncryptRefuses key iv text cause) ∧
    (∀ whole cause, a.decrypt S key iv whole = .error cause ↔
      a.DecryptRefuses S key iv whole cause) ∧
    (∀ text, (¬ ∃ cause, a.EncryptRefuses key iv text cause) ↔ ∃ whole,
      a.encrypt S key iv text = .ok whole ∧ whole.length = a.encryptedLength text.length) ∧
    (a.mode = .ecb → ∀ other, a.encrypt S key other = a.encrypt S key iv ∧
      a.decrypt S key other = a.decrypt S key iv) := by
  refine ⟨fun _ _ => encrypt_error_iff, fun _ _ => decrypt_error_iff, fun text => ?_, ?_⟩
  · constructor
    · intro fine
      cases encrypted : a.encrypt S key iv text with
      | error cause => exact absurd ⟨cause, encrypt_error_iff.mp encrypted⟩ fine
      | ok whole => exact ⟨whole, rfl, length_of_encrypt encrypted⟩
    · rintro ⟨whole, encrypted, -⟩ ⟨cause, bad⟩
      rw [encrypt_error_iff.mpr bad] at encrypted
      cases encrypted
  · intro mode other
    constructor
    · funext text
      simp only [encrypt, mode]
    · funext whole
      simp only [decrypt, mode]

/-- A padded ciphertext of no blocks is malformed. -/
example : aes256Cbc.decrypt Suite.standard (List.replicate 32 1) (List.replicate 16 0) [] =
    .error .malformed := rfl

end Algorithm

end KeyService.Symmetric
