import KeyService.LocalText.Scheme
import KeyService.Proofs.Bytes.Base64
import KeyService.Proofs.Program.Asks
import KeyService.Proofs.Program.Attempt
import KeyService.Proofs.Symmetric.Inverse
import KeyService.Proofs.Text.Pieces
import KeyService.Proofs.Text.Utf8

/-! Texts that a scheme encrypts and decrypts.
Each layer of a ciphertext has one spelling: the header, the point between the parts, the
symbols of the parts, what the cipher makes of the text, and the text's bytes. So a scheme
decrypts its own ciphertexts and no other strings. -/
namespace KeyService.LocalText.Scheme

variable {S : Suite} {keys : Keys} {text whole : String} {events : List Event}

theorem part_ok {encoded : String} {bs : Bytes} :
    part encoded = .ok bs ↔ encoded = Base64.urlSafe.encode bs := by
  rw [← Base64.Form.decode?_iff Base64.Form.urlSafe_proper, part]
  cases Base64.urlSafe.decode? encoded <;> simp

theorem body_ok {header rest : String} : body header whole = .ok rest ↔ whole = header ++ rest := by
  rw [← Text.after?_iff, body]
  cases Text.after? whole header <;> simp

theorem toText_ok {bs : Bytes} : toText bs = .ok text ↔ bs = Bytes.ofText text := by
  rw [← Bytes.text?_iff, toText]
  cases Bytes.text? bs <;> simp

theorem gives_searchable :
    ((searchable S).encrypt keys text).run.Gives events (.ok whole) ↔
      events = [] ∧ ∃ encrypted, Symmetric.Algorithm.aes256Cbc.encrypt S keys.dataKey keys.iv
        (Bytes.ofText text) = .ok encrypted ∧ whole = "v1." ++ Base64.urlSafe.encode encrypted := by
  simp only [searchable, Program.gives_except_ok, Attempt.bind_ok, Attempt.mapError_ok,
    Attempt.pure_ok, @eq_comm _ whole]

theorem searchable_decrypt_ok :
    (searchable S).decrypt keys whole = .ok text ↔
      ∃ encrypted, whole = "v1." ++ Base64.urlSafe.encode encrypted ∧
        Symmetric.Algorithm.aes256Cbc.decrypt S keys.dataKey keys.iv encrypted =
          .ok (Bytes.ofText text) := by
  simp only [searchable, Attempt.bind_ok, Attempt.mapError_ok, body_ok, part_ok, toText_ok,
    exists_eq_right]
  constructor
  · rintro ⟨_, rfl, encrypted, rfl, decrypted⟩
    exact ⟨encrypted, rfl, decrypted⟩
  · rintro ⟨encrypted, rfl, decrypted⟩
    exact ⟨_, rfl, encrypted, rfl, decrypted⟩

theorem searchable_decrypts (inverts : S.AesInverts)
    (encrypted : ((searchable S).encrypt keys text).run.Gives events (.ok whole)) :
    (searchable S).supports whole = true ∧ (searchable S).decrypt keys whole = .ok text := by
  obtain ⟨-, bytes, done, rfl⟩ := gives_searchable.mp encrypted
  exact ⟨Text.startsWith_append "v1." _,
    searchable_decrypt_ok.mpr ⟨bytes, rfl, Symmetric.Algorithm.decrypt_encrypt inverts done⟩⟩

theorem lengths_of_searchable
    (encrypted : ((searchable S).encrypt keys text).run.Gives events (.ok whole)) :
    keys.dataKey.length = 32 ∧ keys.iv.length = 16 := by
  obtain ⟨-, bytes, done, -⟩ := gives_searchable.mp encrypted
  obtain ⟨key, done⟩ := Symmetric.Algorithm.of_checkKey done
  obtain ⟨iv, -⟩ := Symmetric.Algorithm.of_checkIv done
  exact ⟨key, iv⟩

theorem searchable_encrypts (key : keys.dataKey.length = 32) (iv : keys.iv.length = 16)
    (text : String) : ∃ whole, ((searchable S).encrypt keys text).run.Gives [] (.ok whole) := by
  obtain ⟨encrypted, done⟩ : ∃ encrypted, Symmetric.Algorithm.aes256Cbc.encrypt S keys.dataKey
      keys.iv (Bytes.ofText text) = .ok encrypted :=
    Symmetric.Algorithm.encrypts_chained .aes256 key iv _
  exact ⟨_, gives_searchable.mpr ⟨rfl, encrypted, done, rfl⟩⟩

theorem gives_randomised :
    ((randomised S).encrypt keys text).run.Gives events (.ok whole) ↔
      ∃ nonce : RandomBytes 12, events = [⟨.random 12, nonce⟩] ∧ ∃ encrypted,
        Symmetric.Algorithm.aes256GcmSiv.encrypt S keys.dataKey nonce.val (Bytes.ofText text) =
          .ok encrypted ∧ "v2." ++ Base64.urlSafe.encode nonce.val ++ "." ++
            Base64.urlSafe.encode encrypted = whole := by
  simp only [randomised, Program.gives_bind_ok, Program.gives_program_ok, Program.gives_draw,
    Program.gives_except_ok, Attempt.bind_ok, Attempt.mapError_ok, Attempt.pure_ok]
  constructor
  · rintro ⟨_, _, _, rfl, ⟨nonce, rfl, rfl⟩, rfl, encrypted⟩
    exact ⟨nonce, rfl, encrypted⟩
  · rintro ⟨nonce, rfl, encrypted⟩
    exact ⟨_, [_], [], rfl, ⟨nonce, rfl, rfl⟩, rfl, encrypted⟩

/-- Behind the header, the first point is the one between the two parts. -/
theorem parts_eq (nonce encrypted : String) : "v2." ++ nonce ++ "." ++ encrypted =
    "v2." ++ (nonce ++ String.singleton '.' ++ encrypted) := by
  rw [String.append_assoc, String.append_assoc, String.append_assoc]
  rfl

theorem randomised_decrypt_ok :
    (randomised S).decrypt keys whole = .ok text ↔
      ∃ nonce encrypted, nonce.length = 12 ∧ whole = "v2." ++ Base64.urlSafe.encode nonce ++ "." ++
        Base64.urlSafe.encode encrypted ∧
        Symmetric.Algorithm.aes256GcmSiv.decrypt S keys.dataKey nonce encrypted =
          .ok (Bytes.ofText text) := by
  simp only [randomised, Attempt.bind_ok, body_ok, parts_eq]
  constructor
  · rintro ⟨rest, rfl, parted⟩
    split at parted
    · cases parted
    · rename_i first second cut
      obtain ⟨-, rfl⟩ := Text.cut?_iff.mp cut
      obtain ⟨nonce, read, checked⟩ := Attempt.bind_ok.mp parted
      obtain rfl := part_ok.mp read
      split at checked
      · cases checked
      · rename_i proper
        simp only [Attempt.bind_ok, Attempt.mapError_ok, part_ok, toText_ok,
          exists_eq_right] at checked
        obtain ⟨encrypted, rfl, decrypted⟩ := checked
        exact ⟨nonce, encrypted, Decidable.not_not.mp proper, rfl, decrypted⟩
  · rintro ⟨nonce, encrypted, proper, rfl, decrypted⟩
    have cut : Text.cut? '.' (Base64.urlSafe.encode nonce ++ String.singleton '.' ++
        Base64.urlSafe.encode encrypted) =
        some (Base64.urlSafe.encode nonce, Base64.urlSafe.encode encrypted) :=
      Text.cut?_iff.mpr ⟨Base64.Form.pointless_encode nonce, rfl⟩
    refine ⟨_, rfl, ?_⟩
    rw [cut]
    refine Attempt.bind_ok.mpr ⟨nonce, part_ok.mpr rfl, ?_⟩
    rw [if_neg (not_not.mpr proper)]
    simp only [Attempt.bind_ok, Attempt.mapError_ok, part_ok, toText_ok, exists_eq_right]
    exact ⟨encrypted, rfl, decrypted⟩

/-- With keys of the right lengths, the searchable scheme writes one string for a text, and decrypts
to the text that string alone. The other scheme decrypts to a text those strings that it may have
written for it, one for each nonce. -/
theorem decrypt_iff_written (inverts : S.AesInverts) (properKey : keys.dataKey.length = 32)
    (properIv : keys.iv.length = 16) :
    (∀ text, ∃ written, ((searchable S).encrypt keys text).run = .done (.ok written) ∧
      ∀ whole, (searchable S).decrypt keys whole = .ok text ↔ whole = written) ∧
    ∀ text whole, (randomised S).decrypt keys whole = .ok text ↔
      ∃ nonce : RandomBytes 12,
        whole = "v2." ++ Base64.urlSafe.encode nonce.val ++ "." ++ Base64.urlSafe.encode
          (GcmSiv.sealed (GcmSiv.keys S.aes keys.dataKey nonce.val) (Bytes.ofText text)) ∧
        ((randomised S).encrypt keys text).run.Gives [⟨.random 12, nonce⟩] (.ok whole) := by
  constructor
  · intro text
    obtain ⟨encrypted, done⟩ := Symmetric.Algorithm.encrypts_chained (S := S) .aes256 properKey
      properIv (Bytes.ofText text)
    refine ⟨"v1." ++ Base64.urlSafe.encode encrypted,
      Program.leads_nil.mp (gives_searchable.mpr ⟨rfl, encrypted, done, rfl⟩), fun whole => ?_⟩
    simp only [searchable_decrypt_ok, Symmetric.Algorithm.aes256Cbc,
      Symmetric.Algorithm.decrypt_iff_eq inverts done, exists_eq_right]
  · intro text whole
    rw [randomised_decrypt_ok]
    constructor
    · rintro ⟨nonce, encrypted, proper, rfl, decrypted⟩
      obtain rfl := (Symmetric.Algorithm.decrypt_sealing_iff properKey proper).mp decrypted
      exact ⟨⟨nonce, proper⟩, rfl, gives_randomised.mpr ⟨⟨nonce, proper⟩, rfl, _,
        Symmetric.Algorithm.encrypt_sealing properKey proper _, rfl⟩⟩
    · rintro ⟨⟨nonce, proper⟩, rfl, -⟩
      exact ⟨nonce, _, proper, rfl,
        (Symmetric.Algorithm.decrypt_sealing_iff properKey proper).mpr rfl⟩

theorem decrypt_iff_written_standard :
    let keys : Keys := ⟨List.replicate 32 1, List.replicate 16 2⟩
    (∀ text, ∃ written, ((searchable Suite.standard).encrypt keys text).run =
        .done (.ok written) ∧
      ∀ whole, (searchable Suite.standard).decrypt keys whole = .ok text ↔ whole = written) ∧
    ∀ text whole, (randomised Suite.standard).decrypt keys whole = .ok text ↔
      ∃ nonce : RandomBytes 12,
        whole = "v2." ++ Base64.urlSafe.encode nonce.val ++ "." ++ Base64.urlSafe.encode
          (GcmSiv.sealed (GcmSiv.keys Suite.standard.aes keys.dataKey nonce.val)
            (Bytes.ofText text)) ∧
        ((randomised Suite.standard).encrypt keys text).run.Gives [⟨.random 12, nonce⟩]
          (.ok whole) :=
  decrypt_iff_written Suite.standard_aesInverts rfl rfl

end KeyService.LocalText.Scheme
