import KeyService.Proofs.LocalText.Load

/-! Records and the keys in them.
A record gives back the keys that it was made of. Any other record gives keys only if its fields
are spelled as they are in a record that was made, and its wrapped key opens under the root key. If
they are not, the failure names the application and the header that stand in the record. -/
namespace KeyService.LocalText

variable {S : Suite} {r : Record} {secret : Bytes} {keys : Keys}

/-- A record that is in order: three fields in base64, padded and in the one spelling that the bytes
have, and behind the twelve bytes of a nonce what opens under the root key. -/
def Record.Holds (S : Suite) (r : Record) (secret : Bytes) (keys : Keys) : Prop :=
  ∃ salt wrapped, r.rootKeySalt = Base64.standard.encode salt ∧
    r.encryptedDataKey = Base64.standard.encode wrapped ∧
    r.iv = Base64.standard.encode keys.iv ∧ 12 < wrapped.length ∧
    Symmetric.Algorithm.aes256GcmSiv.decrypt S (rootKey secret salt) (wrapped.take 12)
      (wrapped.drop 12) = .ok keys.dataKey

theorem field_iff {field : String} {bs : Bytes} :
    Base64.standard.decode? field = some bs ↔ field = Base64.standard.encode bs :=
  Base64.Form.decode?_iff Base64.Form.standard_proper

theorem Record.Holds.unwrap (holds : r.Holds S secret keys) : r.unwrap S secret = .ok keys := by
  obtain ⟨salt, wrapped, salted, written, initial, long, opened⟩ := holds
  have behind : ¬ wrapped.length ≤ 12 := by omega
  rw [Record.unwrap]
  simp only [field_iff.mpr salted, field_iff.mpr written, field_iff.mpr initial, if_neg behind,
    opened]

/-- A record gives the keys that it holds, or it is reported under its own name. -/
theorem holds_or_reported (S : Suite) (r : Record) (secret : Bytes) :
    (∃ keys, r.Holds S secret keys) ∨
      ∃ reason, r.unwrap S secret = .error (.record r.appId r.markHeader reason) := by
  rw [Record.unwrap]
  -- The steps below rearrange branches only. With the cipher in them, checking that runs the rounds.
  generalize opens : Symmetric.Algorithm.aes256GcmSiv.decrypt S = decrypt
  split
  · exact .inr ⟨_, rfl⟩
  rename_i salt salted
  split
  · exact .inr ⟨_, rfl⟩
  rename_i wrapped written
  split
  · exact .inr ⟨_, rfl⟩
  rename_i iv initial
  split
  · exact .inr ⟨_, rfl⟩
  rename_i long
  split
  · rename_i dataKey opened
    exact .inl ⟨⟨dataKey, iv⟩, salt, wrapped, field_iff.mp salted, field_iff.mp written,
      field_iff.mp initial, Nat.lt_of_not_le long, opens ▸ opened⟩
  · exact .inr ⟨_, rfl⟩

theorem unwrap_iff_holds : r.unwrap S secret = .ok keys ↔ r.Holds S secret keys := by
  constructor
  · intro opened
    rcases holds_or_reported S r secret with ⟨keys', holds⟩ | ⟨reason, reported⟩
    · cases holds.unwrap.symm.trans opened
      exact holds
    · cases reported.symm.trans opened
  · exact Record.Holds.unwrap

/-- Whatever is drawn for it, a record is made and gives back what was drawn, and it has the names
that it was made for. A record with any fields gives keys exactly if it holds them, and if it holds
none, the failure names the record. -/
theorem keys_of_record (S : Suite) :
    (∀ (appId header : String) (secret : Bytes) (keyLength ivLength : Nat) (salt : RandomBytes 16)
      (dataKey : RandomBytes keyLength) (nonce : RandomBytes 12) (iv : RandomBytes ivLength)
      (now : Int64), ∃ r, (Record.create S appId header secret keyLength ivLength).run.Gives
        [⟨.random 16, salt⟩, ⟨.random keyLength, dataKey⟩, ⟨.random 12, nonce⟩,
          ⟨.random ivLength, iv⟩, ⟨.now, now⟩] (.ok r) ∧
        r.name = (appId, header) ∧ r.unwrap S secret = .ok ⟨dataKey.val, iv.val⟩) ∧
    ∀ (r : Record) (secret : Bytes),
      (∀ keys, r.unwrap S secret = .ok keys ↔ r.Holds S secret keys) ∧
      ((¬ ∃ keys, r.Holds S secret keys) →
        ∃ reason, r.unwrap S secret = .error (.record r.appId r.markHeader reason)) := by
  constructor
  · intro appId header secret keyLength ivLength salt dataKey nonce iv now
    obtain ⟨r, wrapped, unwrapped⟩ := unwrap_wrap S appId header secret salt.val nonce.2
      ⟨dataKey.val, iv.val⟩ (Text.dateTime now.toInt)
    have made := gives_create.mpr ⟨salt, dataKey, nonce, iv, now, rfl, wrapped⟩
    exact ⟨r, made, wrap_name wrapped, unwrapped⟩
  · intro r secret
    constructor
    · intro keys
      exact unwrap_iff_holds
    · intro empty
      rcases holds_or_reported S r secret with holds | reported
      · exact absurd holds empty
      · exact reported

end KeyService.LocalText
