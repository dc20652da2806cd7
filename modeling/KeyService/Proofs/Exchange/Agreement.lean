import KeyService.Proofs.Exchange.Negotiation
import KeyService.Proofs.Exchange.Response
import KeyService.Proofs.KeyPair.Backend
import KeyService.Proofs.Suite.Small
import KeyService.Proofs.Symmetric.Naming

/-! The keys of the two sides.
The responder derives them from the initiator's public key, the initiator from the one
that it was told is the responder's. What is signed has one reading on either side. -/
namespace KeyService.Exchange

variable {S : Suite}

theorem noBar_encode (bs : Bytes) : NoBar (Base64.standard.encode bs) :=
  fun member => (Base64.Form.clean_encode member).2 rfl

namespace Responder

theorem spelling_of_readToken {text : String} {token : Bytes} (read : readToken text = .ok token) :
    text = Base64.standard.encode token := by
  unfold readToken at read
  split at read
  · cases read
  · rename_i bs decoded
    split at read
    · cases read
    · rw [← Except.ok.inj read]
      exact (Base64.Form.decode?_iff Base64.Form.standard_proper).mp decoded

theorem readKey_iff {text : String} {key : S.curve.PublicKey} :
    readKey S text = .ok key ↔ Engine.curvePublic S text = .ok key := by
  unfold readKey
  cases Engine.curvePublic S text with
  | ok _ => simp [Except.mapError]
  | error cause => simp [Except.mapError]

namespace Settled

variable {r : Responder} {request : Request} {events : List Event} {offer : Offer}
  {first second : KeyPair}

theorem noBar_request (settled : Settled S r request events offer first second) :
    NoBar request.publicKey ∧ NoBar request.token := by
  obtain ⟨secret, initiator, token, -, keyRead, tokenRead, -⟩ := settled.agreed
  refine ⟨Engine.noBar_of_curvePublic (readKey_iff.mp keyRead), ?_⟩
  rw [spelling_of_readToken tokenRead]
  exact noBar_encode token

theorem noBar (settled : Settled S r request events offer first second)
    (consistent : second.Consistent S) :
    NoBar request.publicKey ∧ NoBar offer.publicKey ∧ NoBar request.token := by
  obtain ⟨secret, -, publicRead⟩ := consistent
  refine ⟨settled.noBar_request.1, ?_, settled.noBar_request.2⟩
  rw [settled.publicKey]
  exact Engine.noBar_of_curvePublic publicRead

end Settled

end Responder

namespace Initiator.Prepared

variable {i : Initiator} {url responderKey : String} {id : Option String} {sending : List Event}
  {p : Pending S} {seed : RandomBytes 48} {token : RandomBytes tokenLength}

theorem noBar (prepared : Prepared S i url responderKey id sending p seed token) :
    NoBar p.request.publicKey ∧ NoBar p.request.token := by
  rw [prepared.publicKey, prepared.token]
  exact ⟨noBar_encode _, noBar_encode _⟩

/-- If an offer was made for the public key, the token and the length of a request, its keys are
those that the request's sender would derive with the public key of the pair that was agreed
with. -/
theorem derived_of_settled (symmetric : S.curve.Symmetric) (reads : S.curve.ReadsPublic)
    (prepared : Prepared S i url responderKey id sending p seed token) {r : Responder}
    {request : Request} {events : List Event} {offer : Offer} {first second : KeyPair}
    (settled : Responder.Settled S r request events offer first second)
    {agreed : S.curve.SecretKey} (halves : first.Halves S agreed)
    (sameKey : p.request.publicKey = request.publicKey)
    (sameToken : p.request.token = request.token)
    (sameLength : p.request.keyLength = request.keyLength) :
    deriveKey (S.curve.agree (S.curve.secretOf seed.val) (S.curve.publicOf agreed)) token.val
      p.request.keyLength = .ok (offer.session.key, offer.session.iv) := by
  obtain ⟨secret, initiator, salt, secretRead, keyRead, tokenRead, derived⟩ := settled.agreed
  obtain rfl : secret = agreed := Except.ok.inj (secretRead.symm.trans halves.1)
  have initiatorEq : initiator = S.curve.publicOf (S.curve.secretOf seed.val) := by
    rw [← sameKey, prepared.publicKey, Responder.readKey_iff, Engine.curvePublic_text reads]
      at keyRead
    exact (Except.ok.inj keyRead).symm
  have saltEq : salt = token.val := by
    have spelled := Responder.spelling_of_readToken tokenRead
    rw [← sameToken, prepared.token] at spelled
    have decoded := congrArg Base64.standard.decode? spelled
    rw [Base64.Form.decode?_encode Base64.Form.standard_proper,
      Base64.Form.decode?_encode Base64.Form.standard_proper] at decoded
    exact (Option.some.inj decoded).symm
  rw [initiatorEq, saltEq, symmetric, ← sameLength] at derived
  exact derived

end Initiator.Prepared

theorem checkCipher_of_cbc {request : Request} {algorithm : Symmetric.Algorithm}
    (cbc : algorithm.mode = .cbc) (kind : request.keyExchangeAlgorithm = kindName)
    (named : request.algorithm = algorithm.name)
    (keyLength : request.keyLength = algorithm.size.bits) :
    Responder.checkCipher request = .ok () := by
  have read : Symmetric.Algorithm.ofName request.algorithm request.keyLength = .ok algorithm := by
    rw [named, keyLength, Symmetric.Algorithm.ofName_chained cbc]
  have known : Text.sameLetters request.keyExchangeAlgorithm kindName = true := by
    rw [kind]
    exact beq_self_eq_true _
  simp only [Responder.checkCipher, known, read, cbc, Bool.not_true, Bool.false_eq_true, if_false,
    if_true]

/-- What a session takes is far less than an expansion gives at most. -/
theorem derive?_session (salt material info : Bytes) (size : Symmetric.KeySize) :
    Hkdf.derive? salt material info (size.bytes + 16) =
      some (Hkdf.derive salt material info (size.bytes + 16)) := by
  cases size <;> exact if_neg (by decide)

theorem deriveKey_known {size : Symmetric.KeySize} {bits : UInt16}
    (known : Symmetric.KeySize.ofBits? bits = some size) (shared token : Bytes) :
    let whole := Hkdf.derive token shared (label ++ Bytes.ofNat 2 bits.toNat) (size.bytes + 16)
    deriveKey shared token bits = .ok (whole.take size.bytes, whole.drop size.bytes) := by
  simp only [deriveKey, known, derive?_session]

theorem size_of_deriveKey {shared token key iv : Bytes} {bits : UInt16}
    (derived : deriveKey shared token bits = .ok (key, iv)) : ∃ size : Symmetric.KeySize,
      bits = size.bits ∧ key.length = size.bytes ∧ iv.length = 16 := by
  cases known : Symmetric.KeySize.ofBits? bits with
  | none =>
    rw [deriveKey, known] at derived
    cases derived
  | some size =>
    rw [deriveKey_known known] at derived
    obtain ⟨rfl, rfl⟩ := Prod.mk.inj (Except.ok.inj derived)
    refine ⟨size, Symmetric.KeySize.ofBits?_iff.mp known, ?_, ?_⟩
    · rw [List.length_take, Hkdf.length_derive]
      omega
    · rw [List.length_drop, Hkdf.length_derive]
      omega

theorem cause_of_deriveKey {shared token : Bytes} {bits : UInt16} {cause : Error}
    (failed : deriveKey shared token bits = .error cause) : ∃ what, cause = .unsupported what := by
  cases known : Symmetric.KeySize.ofBits? bits with
  | none =>
    rw [deriveKey, known] at failed
    exact ⟨_, (Except.error.inj failed).symm⟩
  | some size => cases (deriveKey_known known shared token).symm.trans failed

theorem deriveKey_ne_derivation (shared token : Bytes) (bits : UInt16) :
    deriveKey shared token bits ≠ .error .derivation := by
  intro failed
  obtain ⟨_, ⟨⟩⟩ := cause_of_deriveKey failed

theorem deriveKey_size (shared token : Bytes) (size : Symmetric.KeySize) :
    ∃ key iv, deriveKey shared token size.bits = .ok (key, iv) :=
  ⟨_, _, deriveKey_known (Symmetric.KeySize.ofBits?_iff.mpr rfl) shared token⟩

theorem append_of_deriveKey {shared token key iv : Bytes} {size : Symmetric.KeySize}
    (derived : deriveKey shared token size.bits = .ok (key, iv)) :
    Hkdf.derive token shared (label ++ Bytes.ofNat 2 size.bits.toNat) (size.bytes + 16) =
      key ++ iv := by
  rw [deriveKey_known (Symmetric.KeySize.ofBits?_iff.mpr rfl)] at derived
  obtain ⟨rfl, rfl⟩ := Prod.mk.inj (Except.ok.inj derived)
  exact (List.take_append_drop _ _).symm

namespace Initiator

variable {i : Initiator} {url responderKey : String} {id : Option String}

theorem prepared_of_draws {responder : S.curve.PublicKey}
    (read : Engine.curvePublic S responderKey = .ok responder)
    (onEndpoint : i.endpoint.check url = .ok ()) (id : Option String) (seed : RandomBytes 48)
    (token : RandomBytes tokenLength) (timestamp : Int64) :
    ∃ p : Pending S, p.request.timestamp = timestamp ∧
      Prepared S i url responderKey id
        [⟨.random 48, seed⟩, ⟨.random tokenLength, token⟩, ⟨.now, timestamp⟩] p seed token := by
  obtain ⟨key, iv, derived⟩ := deriveKey_size
    (S.curve.agree (S.curve.secretOf seed.val) responder) token.val i.algorithm.size
  let request : Request :=
    { publicKey := Engine.curvePublicText S (S.curve.publicOf (S.curve.secretOf seed.val)),
      keyExchangeAlgorithm := kindName, keyLength := i.algorithm.size.bits,
      algorithm := i.algorithm.name, token := Base64.standard.encode token.val, timestamp,
      keyPairId := id }
  exact ⟨⟨request, responder, key, iv⟩, rfl, rfl, Responder.readKey_iff.mpr read, onEndpoint,
    derived, rfl, rfl, rfl, rfl, rfl, rfl⟩

namespace Prepared

variable {sending : List Event} {p : Pending S} {seed : RandomBytes 48}
  {token : RandomBytes tokenLength} {r : Responder}

theorem readToken (prepared : Prepared S i url responderKey id sending p seed token) :
    Responder.readToken p.request.token = .ok token.val := by
  unfold Responder.readToken
  rw [prepared.token, Base64.Form.decode?_encode Base64.Form.standard_proper]
  simp only
  rw [if_neg (by rw [token.property]; exact Nat.lt_irrefl _)]

theorem checkCipher (prepared : Prepared S i url responderKey id sending p seed token)
    (cbc : i.algorithm.mode = .cbc) : Responder.checkCipher p.request = .ok () :=
  checkCipher_of_cbc cbc prepared.kind prepared.algorithm prepared.keyLength

/-- A responder of the curve settles for a request that was made by the rules, whatever its
look-ups obtain. -/
theorem settled (reads : S.curve.ReadsPublic)
    (prepared : Prepared S i url responderKey id sending p seed token)
    (cbc : i.algorithm.mode = .cbc) (elliptic : r.engine.algorithm = .elliptic)
    {first second : KeyPair} {secret : S.curve.SecretKey} (halves : first.Halves S secret)
    {events one two : List Event} {now ending : Int64} {drawn : RandomBytes 16} {offer : Offer}
    (trace : Responder.Trace S r p.request events offer first second now ending drawn one two)
    (derived : deriveKey
      (S.curve.agree secret (S.curve.publicOf (S.curve.secretOf seed.val))) token.val
      p.request.keyLength = .ok (offer.session.key, offer.session.iv))
    (publicKey : offer.publicKey = second.publicKey)
    (peer : offer.session.peer = p.request.publicKey)
    (keyLength : offer.session.keyLength = p.request.keyLength) :
    Responder.Settled S r p.request events offer first second where
  elliptic := elliptic
  cipher := prepared.checkCipher cbc
  trace := ⟨now, ending, drawn, one, two, trace⟩
  agreed := ⟨secret, S.curve.publicOf (S.curve.secretOf seed.val), token.val, halves.1,
    by rw [prepared.publicKey, Responder.readKey_iff, Engine.curvePublic_text reads],
    prepared.readToken, derived⟩
  publicKey := publicKey
  peer := peer
  keyLength := keyLength

theorem responder_eq {pair : KeyPair} {secret : S.curve.SecretKey}
    (prepared : Prepared S i url pair.publicKey id sending p seed token)
    (halves : pair.Halves S secret) : p.responder = S.curve.publicOf secret := by
  have read := Responder.readKey_iff.mp prepared.responder
  rw [halves.2] at read
  exact (Except.ok.inj read).symm

theorem accept_answer (verifies : S.curve.Verifies) {pair : KeyPair} {secret : S.curve.SecretKey}
    (prepared : Prepared S i url pair.publicKey id sending p seed token)
    (halves : pair.Halves S secret) (offer : Offer) (publicKey : offer.publicKey = pair.publicKey)
    (keyLength : offer.session.keyLength = p.request.keyLength) :
    accept S p (offer.answer p.request
      (S.curve.sign secret (Bytes.ofText (offer.text p.request)))) =
      .ok ⟨offer.publicKey, offer.session.id, p.key, p.iv, p.request.keyLength,
        offer.session.expireTime⟩ := by
  refine accept_iff.mpr ⟨⟨?_, keyLength, ?_⟩, rfl⟩
  · change Engine.curvePublic S offer.publicKey = _
    rw [publicKey, halves.2, prepared.responder_eq halves]
  · refine ⟨_, Base64.Form.decode?_encode Base64.Form.standard_proper _, ?_⟩
    rw [prepared.responder_eq halves]
    exact verifies secret _

def offer (r : Responder) (p : Pending S) (pair : KeyPair) (drawn : RandomBytes 16)
    (ending : Int64) : Offer :=
  ⟨pair.publicKey, ⟨p.request.publicKey, Text.uuid drawn.val, p.key, p.iv, p.request.keyLength,
    later ending (millis r.sessionSeconds)⟩⟩

theorem settled_of_found (symmetric : S.curve.Symmetric) (reads : S.curve.ReadsPublic)
    {pair : KeyPair} {secret : S.curve.SecretKey}
    (prepared : Prepared S i url pair.publicKey id sending p seed token)
    (cbc : i.algorithm.mode = .cbc) (elliptic : r.engine.algorithm = .elliptic)
    (halves : pair.Halves S secret) (family : pair.algorithm = r.engine.algorithm.family)
    {now : Int64} (timely : r.checkClock now p.request.timestamp = .ok ()) (drawn : RandomBytes 16)
    (ending : Int64) :
    Responder.Settled S r p.request
      (⟨.now, now⟩ :: Responder.reports now p.request.timestamp ++
        [⟨.findPair (p.request.keyPairId.getD r.engine.defaultId), .ok pair⟩,
          ⟨.findPair (p.request.keyPairId.getD r.engine.defaultId), .ok pair⟩,
          ⟨.random 16, drawn⟩, ⟨.now, ending⟩]) (offer r p pair drawn ending) pair pair := by
  have found := Engine.gives_resolve.mpr
    ⟨(.there : Engine.Obtains S r.engine (p.request.keyPairId.getD r.engine.defaultId) pair _),
      family⟩
  have derived : deriveKey (S.curve.agree secret
      (S.curve.publicOf (S.curve.secretOf seed.val))) token.val p.request.keyLength =
      .ok (p.key, p.iv) := by
    rw [symmetric, ← prepared.responder_eq halves, prepared.derived]
  exact prepared.settled reads cbc elliptic halves ⟨by simp, found, found, timely, rfl, rfl⟩ derived
    rfl rfl rfl

/-- A responder that finds the pair its request is meant for answers in time. -/
theorem answered (symmetric : S.curve.Symmetric) (reads : S.curve.ReadsPublic)
    {pair : KeyPair} {secret : S.curve.SecretKey}
    (prepared : Prepared S i url pair.publicKey id sending p seed token)
    (cbc : i.algorithm.mode = .cbc) (elliptic : r.engine.algorithm = .elliptic)
    (halves : pair.Halves S secret) (family : pair.algorithm = r.engine.algorithm.family)
    {now : Int64} (timely : r.checkClock now p.request.timestamp = .ok ()) (drawn : RandomBytes 16)
    (ending : Int64) :
    (Responder.respond S r p.request).run.Gives
      (⟨.now, now⟩ :: Responder.reports now p.request.timestamp ++
        [⟨.findPair (id.getD r.engine.defaultId), .ok pair⟩,
          ⟨.findPair (id.getD r.engine.defaultId), .ok pair⟩, ⟨.random 16, drawn⟩, ⟨.now, ending⟩,
          ⟨.findPair (id.getD r.engine.defaultId), .ok pair⟩,
          ⟨.keepSession (offer r p pair drawn ending).session, ()⟩])
      (.ok ((offer r p pair drawn ending).answer p.request
        (S.curve.sign secret (Bytes.ofText ((offer r p pair drawn ending).text p.request))))) := by
  have settled :=
    prepared.settled_of_found symmetric reads cbc elliptic halves family timely drawn ending
  have found := Engine.gives_resolve.mpr
    ⟨(.there : Engine.Obtains S r.engine (p.request.keyPairId.getD r.engine.defaultId) pair _),
      family⟩
  rw [← prepared.keyPairId]
  exact Responder.gives_respond.mpr
    ⟨_, _, _, pair, pair, pair, secret, by simp, settled, found, halves.1, rfl⟩

end Prepared

end Initiator

namespace Small

open Suite (small)

def initiator : Initiator := ⟨⟨"/exchange"⟩, ⟨.cbc, .counted, .aes128⟩⟩

def responder : Responder := ⟨⟨.elliptic, "default"⟩, 3600, 300⟩

def pair (secret : UInt8) : KeyPair := Engine.curvePair small secret

theorem halves (secret : UInt8) : (pair secret).Halves small secret :=
  Engine.curvePair_halves Suite.small_readsPublic Suite.small_readsSecret secret

def seed : RandomBytes 48 := ⟨List.replicate 48 4, List.length_replicate⟩

def token : RandomBytes tokenLength := ⟨List.replicate 16 1, List.length_replicate⟩

def drawn : RandomBytes 16 := ⟨List.replicate 16 7, List.length_replicate⟩

def stocked (pair : KeyPair) : Table String KeyPair := Table.empty.insert "default" pair

theorem find_stocked (pair : KeyPair) :
    KeyPair.Backend.memory.find (stocked pair) "default" = .ok pair := by
  simp only [KeyPair.Backend.memory, stocked, Table.find?_insert, if_true]
  rfl

theorem pair_of_stocked {pair pair' : KeyPair} {id : String}
    (found : KeyPair.Backend.memory.find (stocked pair) id = .ok pair') : pair = pair' := by
  simp only [KeyPair.Backend.memory, stocked, Table.find?_insert] at found
  split at found
  · exact Except.ok.inj found
  · cases found

theorem prepared (secret : UInt8) : ∃ p : Pending small, p.request.timestamp = 0 ∧
    Initiator.Prepared small initiator "/exchange" (pair secret).publicKey none
      [⟨.random 48, seed⟩, ⟨.random tokenLength, token⟩, ⟨.now, 0⟩] p seed token :=
  Initiator.prepared_of_draws (halves secret).2 rfl none seed token 0

theorem timely {request : Request} (made : request.timestamp = 0) :
    responder.checkClock 0 request.timestamp = .ok () := by
  rw [made]
  rfl

theorem unreported {request : Request} (made : request.timestamp = 0) :
    Responder.reports 0 request.timestamp = [] := by
  rw [made]
  rfl

end Small

end KeyService.Exchange
