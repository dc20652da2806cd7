import KeyService.Proofs.Exchange.Agreement
import KeyService.Proofs.Text.Utf8

/-! What a signature covers.
The id of a session is chosen by the side that answers and may be any text. The other fields
leave no doubt where it ends, so the bytes that are signed belong to one choice of fields. -/
namespace KeyService.Exchange

structure Terms where
  id : String
  expireTime : Int64
  keyLength : UInt16
  initiatorKey : String
  responderKey : String
  token : String
  deriving DecidableEq

namespace Terms

def text (t : Terms) : String :=
  transcript t.id t.expireTime t.keyLength t.initiatorKey t.responderKey t.token

def bytes (t : Terms) : Bytes := Bytes.ofText t.text

/-- No bars but in the id. -/
structure Plain (t : Terms) : Prop where
  initiatorKey : NoBar t.initiatorKey
  responderKey : NoBar t.responderKey
  token : NoBar t.token

theorem eq_of_text {t u : Terms} (plain : t.Plain) (plain' : u.Plain) (same : t.text = u.text) :
    t = u := by
  obtain ⟨id, expireTime, keyLength, initiatorKey, responderKey, token⟩ := t
  obtain ⟨rfl, rfl, rfl, rfl, rfl, rfl⟩ := transcript_fields
    ⟨plain.initiatorKey, plain.responderKey, plain.token⟩
    ⟨plain'.initiatorKey, plain'.responderKey, plain'.token⟩ same
  rfl

end Terms

theorem noBar_of_decode? {text : String} {bs : Bytes}
    (decoded : Base64.standard.decode? text = some bs) : NoBar text := by
  rw [(Base64.Form.decode?_iff Base64.Form.standard_proper).mp decoded]
  exact noBar_encode bs

namespace Terms

/-- Terms without bars in keys and token are told apart by their bytes. There are no bars in a text
that is read as a public key, or that is the base64 of something. -/
theorem bytes_determine (S : Suite) :
    (∀ t u : Terms, t.Plain → u.Plain → (t.bytes = u.bytes ↔ t = u)) ∧
    (∀ text key, Engine.curvePublic S text = .ok key → NoBar text) ∧
    ∀ text bs, Base64.standard.decode? text = some bs → NoBar text := by
  refine ⟨fun t u plain plain' => ⟨fun same => ?_, congrArg bytes⟩, fun text key read => ?_,
    fun text bs decoded => ?_⟩
  · exact eq_of_text plain plain' (Bytes.ofText_inj same)
  · exact Engine.noBar_of_curvePublic read
  · exact noBar_of_decode? decoded

/-- An id may look as if more fields followed. -/
theorem bytes_determine_small : ∃ t u : Terms, t.Plain ∧ u.Plain ∧ t.id = u.id ++ "|1" ∧
    t.expireTime = 128 ∧ u.expireTime = 1 ∧ t.bytes ≠ u.bytes := by
  let t : Terms := ⟨"s|1", 128, 256, "a", "b", "c"⟩
  let u : Terms := ⟨"s", 1, 256, "a", "b", "c"⟩
  have plain : t.Plain := ⟨by simp [t, NoBar], by simp [t, NoBar], by simp [t, NoBar]⟩
  have plain' : u.Plain := ⟨by simp [u, NoBar], by simp [u, NoBar], by simp [u, NoBar]⟩
  have differ : t ≠ u := by decide
  exact ⟨t, u, plain, plain', rfl, rfl, rfl,
    mt (((bytes_determine Suite.small).1 t u plain plain').mp) differ⟩

/-- With a bar in a token, other terms have the same bytes. -/
example : text ⟨"s", 1, 128, "192", "a", "b|c"⟩ = text ⟨"s|1", 128, 192, "a", "b", "c"⟩ := by decide

end Terms

end KeyService.Exchange
