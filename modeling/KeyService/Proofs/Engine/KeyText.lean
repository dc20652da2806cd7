import KeyService.Engine.KeyText
import KeyService.Proofs.Bytes.Base64
import KeyService.Proofs.Curve.Laws
import KeyService.Proofs.Exchange.Transcript
import KeyService.Proofs.Text.Blank

/-! Keys and their texts.
A pair is consistent if its two texts are the two halves of one key. Pairs that are made
here are; what a store holds need not be. -/
namespace KeyService

variable (S : Suite)

/-- The texts of a pair are those of a secret key and of its public half. -/
def KeyPair.Halves (pair : KeyPair) (secret : S.curve.SecretKey) : Prop :=
  Engine.curveSecret S pair.privateKey = .ok secret ∧
    Engine.curvePublic S pair.publicKey = .ok (S.curve.publicOf secret)

def KeyPair.Consistent (pair : KeyPair) : Prop := ∃ secret, pair.Halves S secret

namespace Engine

open Base64 (standard)
open Base64.Form (standard_proper)

variable {S}

theorem ofText_encode {α : Type} {decode? : Bytes → Option α} {document : Bytes} {key : α}
    (read : decode? document = some key) (notBase64 notKey : String) :
    ofText (standard.encode document) notBase64 notKey decode? = .ok key := by
  simp only [ofText, Base64.Form.decode?_encode standard_proper, read]

theorem spelling_of_ofText {α : Type} {decode? : Bytes → Option α} {text notBase64 notKey : String}
    {key : α} (read : ofText text notBase64 notKey decode? = .ok key) :
    ∃ document, text = standard.encode document := by
  unfold ofText at read
  split at read
  · cases read
  · rename_i document known
    exact ⟨document, (Base64.Form.decode?_iff standard_proper).mp known⟩

theorem curvePublic_text (reads : S.curve.ReadsPublic) (secret : S.curve.SecretKey) :
    curvePublic S (curvePublicText S (S.curve.publicOf secret)) = .ok (S.curve.publicOf secret) := by
  rw [curvePublic, curvePublicText, Text.trim_eq_self fun c member =>
    (Base64.Form.clean_encode member).1]
  exact ofText_encode (reads secret) _ _

theorem noBar_of_curvePublic {text : String} {key : S.curve.PublicKey}
    (read : curvePublic S text = .ok key) : Exchange.NoBar text := by
  intro member
  obtain ⟨document, spelled⟩ := spelling_of_ofText read
  have inside := Text.mem_trim member (by decide)
  rw [spelled] at inside
  exact (Base64.Form.clean_encode inside).2 rfl

theorem curvePair_halves (readsPublic : S.curve.ReadsPublic) (readsSecret : S.curve.ReadsSecret)
    (secret : S.curve.SecretKey) : (curvePair S secret).Halves S secret :=
  ⟨ofText_encode (readsSecret secret) _ _, curvePublic_text readsPublic secret⟩

end Engine

end KeyService
