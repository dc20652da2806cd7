import KeyService.Payload.Cipher
import KeyService.Proofs.Bytes.Base64
import KeyService.Proofs.Program.Attempt
import KeyService.Proofs.Symmetric.Inverse

/-! Payloads and data keys between the two ends of a session.
Both ends hold the same key and initialisation vector. What one of them writes is what the
other one reads, up to white space around it, and nothing else is read as that. -/
namespace KeyService.Payload

variable {S : Suite} {now : Int64} {s : Exchange.Session} {size : Symmetric.KeySize}
  {key : DataKey} {bs whole : Bytes} {text : String}

/-- A session that payloads can be encrypted in: its key has the length that it names, and its
initialisation vector is one block long. -/
structure Equipped (s : Exchange.Session) (size : Symmetric.KeySize) : Prop where
  keyLength : s.keyLength = size.bits
  key : s.key.length = size.bytes
  iv : s.iv.length = 16

theorem Equipped.sessionCipher (equipped : Equipped s size) :
    sessionCipher s = .ok (algorithm size) := by
  rw [Payload.sessionCipher, equipped.keyLength]
  cases size <;> rfl

theorem checkLive_of_live (live : s.isExpired now = false) : checkLive now s = .ok () := by
  rw [checkLive, live]
  rfl

theorem decode_ok : decode text = .ok bs ↔ Text.trim text = Base64.standard.encode bs := by
  rw [← Base64.Form.decode?_iff Base64.Form.standard_proper, decode]
  cases Base64.standard.decode? (Text.trim text) <;> simp

theorem sizeOf?_bytes (size : Symmetric.KeySize) : sizeOf? size.bytes = some size := by
  cases size <;> rfl

theorem ofBytes_ok : DataKey.ofBytes bs = .ok key ↔ bs = key.bytes := by
  unfold DataKey.ofBytes
  split
  · rename_i size found
    constructor
    · intro made
      rw [← Except.ok.inj made]
    · rintro rfl
      obtain ⟨bytes, size', proper⟩ := key
      obtain rfl : size' = size := by
        rw [proper, sizeOf?_bytes] at found
        exact Option.some.inj found
      rfl
  · rename_i unknown
    refine ⟨nofun, ?_⟩
    rintro rfl
    rw [key.length_bytes, sizeOf?_bytes] at unknown
    cases unknown

theorem wrap_ok (equipped : Equipped s size) (live : s.isExpired now = false) :
    wrap S now s key = .ok text ↔ ∃ whole, (algorithm size).encrypt S s.key s.iv key.bytes =
      .ok whole ∧ Base64.standard.encode whole = text := by
  simp only [wrap, checkLive_of_live live, equipped.sessionCipher, Attempt.ok_bind,
    Attempt.bind_ok, Attempt.mapError_ok, Attempt.pure_ok]

theorem unwrap_ok (equipped : Equipped s size) (live : s.isExpired now = false) :
    unwrap S now s text = .ok key ↔ ∃ whole, Text.trim text = Base64.standard.encode whole ∧
      (algorithm size).decrypt S s.key s.iv whole = .ok key.bytes := by
  simp only [unwrap, checkLive_of_live live, equipped.sessionCipher, Attempt.ok_bind,
    Attempt.bind_ok, Attempt.mapError_ok, decode_ok, ofBytes_ok, exists_eq_right]

theorem encrypt_ok (live : s.isExpired now = false) :
    encrypt S now s key bs = .ok text ↔ ∃ whole, (algorithm key.size).encrypt S key.bytes s.iv bs =
      .ok whole ∧ Base64.standard.encode whole = text := by
  simp only [encrypt, checkLive_of_live live, Attempt.ok_bind, Attempt.bind_ok,
    Attempt.mapError_ok, Attempt.pure_ok]

theorem decrypt_ok (live : s.isExpired now = false) :
    decrypt S now s key text = .ok bs ↔ ∃ whole, Text.trim text = Base64.standard.encode whole ∧
      (algorithm key.size).decrypt S key.bytes s.iv whole = .ok bs := by
  simp only [decrypt, checkLive_of_live live, Attempt.ok_bind, Attempt.bind_ok,
    Attempt.mapError_ok, decode_ok]

/-- Let two live sessions share a key, an initialisation vector and a key length. A data key that
is wrapped in the one is unwrapped in the other from its wrapping, with white space around it, and
from no other text; and so it is for every payload under a data key. -/
theorem payloads_cross (inverts : S.AesInverts) {a b : Exchange.Session}
    (equipped : Equipped a size) (sameKey : b.key = a.key) (sameIv : b.iv = a.iv)
    (sameLength : b.keyLength = a.keyLength) {now later : Int64}
    (live : a.isExpired now = false) (live' : b.isExpired later = false) (key : DataKey) :
    (∃ wrapped, wrap S now a key = .ok wrapped ∧
      ∀ text, unwrap S later b text = .ok key ↔ Text.trim text = wrapped) ∧
    ∀ bs, ∃ payload, Cipher.encrypt S ⟨a, key, .encrypt⟩ now bs = .ok payload ∧
      ∀ text, Cipher.decrypt S ⟨b, key, .decrypt⟩ later text = .ok bs ↔
        Text.trim text = payload := by
  have equipped' : Equipped b size := ⟨sameLength ▸ equipped.keyLength, sameKey ▸ equipped.key,
    sameIv ▸ equipped.iv⟩
  constructor
  · obtain ⟨whole, encrypted⟩ :=
      Symmetric.Algorithm.encrypts_chained (S := S) size equipped.key equipped.iv key.bytes
    refine ⟨_, (wrap_ok equipped live).mpr ⟨whole, encrypted, rfl⟩, fun text => ?_⟩
    simp only [unwrap_ok equipped' live', sameKey, sameIv, algorithm,
      Symmetric.Algorithm.decrypt_iff_eq inverts encrypted, exists_eq_right]
  · intro bs
    obtain ⟨whole, encrypted⟩ :=
      Symmetric.Algorithm.encrypts_chained (S := S) key.size key.length_bytes equipped.iv bs
    refine ⟨_, Attempt.mapError_ok.mpr ((encrypt_ok live).mpr ⟨whole, encrypted, rfl⟩),
      fun text => ?_⟩
    simp only [Cipher.decrypt, Attempt.mapError_ok, decrypt_ok live', sameIv, algorithm,
      Symmetric.Algorithm.decrypt_iff_eq inverts encrypted, exists_eq_right]

/-- Two ends that name each other as peers, read their clocks at different times, and use a data
key that is longer than the session's. -/
theorem payloads_cross_standard :
    let a : Exchange.Session := ⟨"b", "id", List.replicate 16 1, List.replicate 16 2, 128, 100⟩
    let b : Exchange.Session := { a with peer := "a", expireTime := 90 }
    let key : DataKey := ⟨List.replicate 32 3, .aes256, by decide⟩
    (∃ wrapped, wrap Suite.standard 50 a key = .ok wrapped ∧
      ∀ text, unwrap Suite.standard 90 b text = .ok key ↔ Text.trim text = wrapped) ∧
    ∀ bs, ∃ payload, Cipher.encrypt Suite.standard ⟨a, key, .encrypt⟩ 50 bs = .ok payload ∧
      ∀ text, Cipher.decrypt Suite.standard ⟨b, key, .decrypt⟩ 90 text = .ok bs ↔
        Text.trim text = payload := by
  intro a b key
  have equipped : Equipped a .aes128 := ⟨rfl, rfl, rfl⟩
  have live : a.isExpired 50 = false := by decide
  have live' : b.isExpired 90 = false := by decide
  exact payloads_cross (b := b) Suite.standard_aesInverts equipped rfl rfl rfl live live' key

end KeyService.Payload
