import KeyService.Suite

/-! What the service relies on when it uses RSA.
Each law is about keys that were generated, with a modulus of so many bits. -/
namespace KeyService.RsaScheme

def Generates (R : RsaScheme) (bits : Nat) (secret : R.SecretKey) : Prop :=
  ∃ seed, R.generate bits seed = .ok secret

structure Lawful (R : RsaScheme) (bits : Nat) : Prop where
  readsPublic : ∀ secret, R.Generates bits secret →
    R.decodePublic? (R.encodePublic (R.publicOf secret)) = some (R.publicOf secret)
  readsSecret : ∀ secret, R.Generates bits secret →
    R.decodeSecret? (R.encodeSecret secret) = some secret
  decrypts : ∀ secret seed text whole, R.Generates bits secret →
    R.encrypt? (R.publicOf secret) seed text = some whole → R.decrypt? secret whole = some text
  verifies : ∀ secret message signature, R.Generates bits secret →
    R.sign? secret message = some signature →
      R.verify (R.publicOf secret) message signature = true
  /-- What is signed takes 62 bytes at least, and a smaller modulus has no room for it. -/
  signs : ∀ secret message, R.Generates bits secret → 489 ≤ bits →
    ∃ signature, R.sign? secret message = some signature

end KeyService.RsaScheme
