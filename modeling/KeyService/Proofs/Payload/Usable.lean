import KeyService.Proofs.Payload.Crossing
import KeyService.Proofs.Symmetric.Refusal

/-! What a session is good for.
As long as a session holds that has a proper key and initialisation vector, everything can be
written in it. What cannot be read in it is a text that was not written in it, or not whole. -/
namespace KeyService.Payload

variable {S : Suite} {now : Int64} {s : Exchange.Session} {size : Symmetric.KeySize}
  {key : DataKey} {bs : Bytes} {text : String} {cause : Failure}

/-- What can be wrong with a text that is read in a session: it is no base64, its bytes are no
whole blocks, they are not padded, or the data key in it has no proper length. -/
inductive Unreadable : Failure → Prop where
  | base64 : Unreadable (.payload .malformed)
  | blocks : Unreadable (.symmetric .malformed)
  | padding : Unreadable (.symmetric .padding)
  | dataKey : Unreadable (.payload .badDataKey)

/-- Every data key is wrapped in the session and every text is encrypted under it; and only
unreadable texts are not unwrapped or decrypted. -/
structure Serves (S : Suite) (now : Int64) (s : Exchange.Session) : Prop where
  wraps : ∀ key, ∃ wrapped, wrap S now s key = .ok wrapped
  encrypts : ∀ key bs, ∃ payload, Cipher.encrypt S ⟨s, key, .encrypt⟩ now bs = .ok payload
  unwraps : ∀ text cause, unwrap S now s text = .error cause → Unreadable cause
  decrypts : ∀ key text refusal, Cipher.decrypt S ⟨s, key, .decrypt⟩ now text = .error refusal →
    ∃ cause, refusal = .failed cause ∧ Unreadable cause

/-- A session with a key of the length that it names, which serves as long as it holds. -/
structure Usable (S : Suite) (s : Exchange.Session) : Prop where
  keyLength : s.keyLength = 128 ∨ s.keyLength = 192 ∨ s.keyLength = 256
  key : s.key.length = s.keyLength.toNat / 8
  iv : s.iv.length = 16
  serves : ∀ now, s.isExpired now = false → Serves S now s

theorem unreadable_of_decode (failed : decode text = .error cause) : Unreadable cause := by
  unfold decode at failed
  split at failed
  · cases failed
  · exact Except.error.inj failed ▸ .base64

theorem unreadable_of_ofBytes (failed : DataKey.ofBytes bs = .error cause) : Unreadable cause := by
  unfold DataKey.ofBytes at failed
  split at failed
  · cases failed
  · exact Except.error.inj failed ▸ .dataKey

theorem unreadable_of_chained {key iv whole : Bytes} (proper : key.length = size.bytes)
    (block : iv.length = 16)
    (failed : ((algorithm size).decrypt S key iv whole).mapError Failure.symmetric = .error cause) :
    Unreadable cause := by
  obtain ⟨cause, undecrypted, rfl⟩ := Attempt.mapError_error.mp failed
  rcases Symmetric.Algorithm.error_of_chained proper block undecrypted with rfl | rfl
  · exact .blocks
  · exact .padding

theorem unreadable_of_unwrap (equipped : Equipped s size) (live : s.isExpired now = false)
    (failed : unwrap S now s text = .error cause) : Unreadable cause := by
  simp only [unwrap, checkLive_of_live live, equipped.sessionCipher, Attempt.ok_bind] at failed
  rcases Attempt.bind_error.mp failed with failed | ⟨whole, -, failed⟩
  · exact unreadable_of_decode failed
  rcases Attempt.bind_error.mp failed with failed | ⟨bs, -, failed⟩
  · exact unreadable_of_chained equipped.key equipped.iv failed
  · exact unreadable_of_ofBytes failed

/-- The length of the session's key does not matter to what is encrypted under a data key. -/
theorem unreadable_of_decrypt (block : s.iv.length = 16) (live : s.isExpired now = false)
    (failed : decrypt S now s key text = .error cause) : Unreadable cause := by
  simp only [decrypt, checkLive_of_live live, Attempt.ok_bind] at failed
  rcases Attempt.bind_error.mp failed with failed | ⟨whole, -, failed⟩
  · exact unreadable_of_decode failed
  · exact unreadable_of_chained key.length_bytes block failed

namespace Equipped

theorem serves (equipped : Equipped s size) (live : s.isExpired now = false) : Serves S now s where
  wraps key := by
    obtain ⟨whole, encrypted⟩ :=
      Symmetric.Algorithm.encrypts_chained (S := S) size equipped.key equipped.iv key.bytes
    exact ⟨_, (wrap_ok equipped live).mpr ⟨whole, encrypted, rfl⟩⟩
  encrypts key bs := by
    obtain ⟨whole, encrypted⟩ :=
      Symmetric.Algorithm.encrypts_chained (S := S) key.size key.length_bytes equipped.iv bs
    exact ⟨_, Attempt.mapError_ok.mpr ((encrypt_ok live).mpr ⟨whole, encrypted, rfl⟩)⟩
  unwraps _ _ failed := unreadable_of_unwrap equipped live failed
  decrypts _ _ _ refused := by
    obtain ⟨cause, failed, rfl⟩ := Attempt.mapError_error.mp refused
    exact ⟨cause, rfl, unreadable_of_decrypt equipped.iv live failed⟩

theorem usable (equipped : Equipped s size) : Usable S s where
  keyLength := by
    rw [equipped.keyLength]
    cases size <;> decide
  key := by
    rw [equipped.key, equipped.keyLength]
    cases size <;> rfl
  iv := equipped.iv
  serves _ live := equipped.serves live

end Equipped

end KeyService.Payload
