import KeyService.Suite

/-! What the service relies on when it uses a curve.
Each law is about keys whose secret half somebody holds; nothing is said of other keys. -/
namespace KeyService.CurveScheme

/-- Two parties come to the same secret, each with its own half and the other's public one. -/
def Symmetric (C : CurveScheme) : Prop :=
  ∀ a b : C.SecretKey, C.agree a (C.publicOf b) = C.agree b (C.publicOf a)

def ReadsPublic (C : CurveScheme) : Prop :=
  ∀ secret : C.SecretKey, C.decodePublic? (C.encodePublic (C.publicOf secret)) =
    some (C.publicOf secret)

def ReadsSecret (C : CurveScheme) : Prop :=
  ∀ secret : C.SecretKey, C.decodeSecret? (C.encodeSecret secret) = some secret

def Verifies (C : CurveScheme) : Prop :=
  ∀ (secret : C.SecretKey) (message : Bytes),
    C.verify (C.publicOf secret) message (C.sign secret message) = true

def ReadsPoint (C : CurveScheme) : Prop :=
  ∀ secret : C.SecretKey, C.ofPoint? (C.point (C.publicOf secret)) = some (C.publicOf secret)

/-- A point is written without compression. -/
def PlainPoints (C : CurveScheme) : Prop :=
  ∀ secret : C.SecretKey, (C.point (C.publicOf secret)).length = 65

structure Lawful (C : CurveScheme) : Prop where
  symmetric : C.Symmetric
  verifies : C.Verifies
  readsPublic : C.ReadsPublic
  readsSecret : C.ReadsSecret
  readsPoint : C.ReadsPoint
  plainPoints : C.PlainPoints

end KeyService.CurveScheme
