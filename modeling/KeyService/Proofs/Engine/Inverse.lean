import KeyService.Proofs.Engine.Search
import KeyService.Proofs.Program.Assures
import KeyService.Proofs.Rsa.Laws
import KeyService.Proofs.Suite.Small
import KeyService.Proofs.Symmetric.Inverse

/-! Operations that undo each other.
An engine looks its pair up anew for every operation. As long as it finds the same pair, made by an
engine of its algorithm, what it encrypts it can decrypt, what it signs it accepts, and it comes to
one secret with whoever holds another such pair. -/
namespace KeyService

/-- The primitives keep the laws that engines of an algorithm rely on. -/
def Suite.Lawful (S : Suite) : Engine.Algorithm → Prop
  | .elliptic => S.curve.Lawful
  | .rsa bits => S.rsa.Lawful bits

namespace Engine

namespace Ecies

open Symmetric.Algorithm (encrypt_sealing decrypt_sealing_iff)

variable {S : Suite} {secret oneTime : S.curve.SecretKey} {nonce text whole : Bytes}

theorem length_key (shared point : Bytes) : (key shared point).length = 32 := Hkdf.length_derive ..

theorem encrypt_eq (recipient : S.curve.PublicKey) (oneTime : S.curve.SecretKey)
    (proper : nonce.length = 12) (text : Bytes) :
    encrypt S recipient oneTime nonce text =
      .ok (S.curve.point (S.curve.publicOf oneTime) ++ nonce ++ GcmSiv.sealed (GcmSiv.keys S.aes
        (key (S.curve.agree oneTime recipient) (S.curve.point (S.curve.publicOf oneTime))) nonce)
        text) := by
  simp only [encrypt, encrypt_sealing (length_key _ _) proper]

variable (lawful : S.curve.Lawful)

include lawful

theorem length_encrypt {recipient : S.curve.PublicKey} (proper : nonce.length = 12)
    (sent : encrypt S recipient oneTime nonce text = .ok whole) :
    whole.length = 65 + 12 + text.length + 16 := by
  rw [encrypt_eq recipient oneTime proper] at sent
  obtain rfl := Except.ok.inj sent
  have point := lawful.plainPoints oneTime
  simp only [List.length_append, GcmSiv.length_sealed]
  omega

/-- The recipient finds the parts at their places, and comes to the same key. -/
theorem decrypt_encrypt (proper : nonce.length = 12)
    (sent : encrypt S (S.curve.publicOf secret) oneTime nonce text = .ok whole) :
    decrypt S secret whole = .ok text := by
  have long := length_encrypt lawful proper sent
  rw [encrypt_eq _ oneTime proper] at sent
  generalize pointed : S.curve.point (S.curve.publicOf oneTime) = point at sent
  have sized : point.length = 65 := pointed ▸ lawful.plainPoints oneTime
  have read : S.curve.ofPoint? point = some (S.curve.publicOf oneTime) :=
    pointed ▸ lawful.readsPoint oneTime
  generalize body : GcmSiv.sealed _ text = sealed at sent
  obtain rfl := Except.ok.inj sent
  have front : (point ++ nonce ++ sealed).take 65 = point := by simp [← sized]
  have back : (point ++ nonce ++ sealed).drop 65 = nonce ++ sealed := by simp [← sized]
  have second : (nonce ++ sealed).take 12 = nonce := by simp [← proper]
  have third : (nonce ++ sealed).drop 12 = sealed := by simp [← proper]
  have opened : Symmetric.Algorithm.aes256GcmSiv.decrypt S
      (key (S.curve.agree secret (S.curve.publicOf oneTime)) point) nonce sealed = .ok text := by
    rw [decrypt_sealing_iff (length_key _ _) proper, lawful.symmetric secret oneTime]
    exact body.symm
  have enough : ¬ (point ++ nonce ++ sealed).length < 77 := by omega
  simp only [decrypt, if_neg enough, front, back, read, second, third, opened]

end Ecies

open Program (Assures Succeeds assures_after assures_draw assures_except_bind assures_pure
  assures_put assures_true succeeds_bind succeeds_except succeeds_except_bind succeeds_program
  succeeds_pure)

variable {S : Suite} {e : Engine} {id : Option String} {pair : KeyPair} {text message : Bytes}

/-- Whoever looks under an id finds a pair. -/
def Shows (name : String) (pair : KeyPair) (event : Event) : Prop :=
  ∀ answer, event = ⟨.findPair name, answer⟩ → answer = .ok pair

theorem resolve_succeeds (family : pair.algorithm = e.algorithm.family) :
    Succeeds (Shows (id.getD e.defaultId) pair) (resolve S e id) (· = pair) := by
  have looked : Assures (Shows (id.getD e.defaultId) pair)
      (Program.getPair (id.getD e.defaultId)) (· = .ok pair) :=
    assures_put fun answer shown => shown answer rfl
  unfold resolve
  apply succeeds_bind
  · apply succeeds_bind (succeeds_program looked)
    rintro _ rfl
    exact succeeds_pure (Q := (· = pair)) rfl
  · rintro _ rfl
    exact succeeds_except (checkFamily_iff.mpr ⟨rfl, family⟩) rfl

variable {α : Type} {f : KeyPair → Act α}

theorem assures_resolved {Q : Except Error α → Prop}
    (family : pair.algorithm = e.algorithm.family)
    (rest : Assures (Shows (id.getD e.defaultId) pair) (f pair).run Q) :
    Assures (Shows (id.getD e.defaultId) pair) (resolve S e id >>= f).run Q := by
  refine assures_after (resolve_succeeds family) fun found same => ?_
  rw [same]
  exact rest

theorem publicKey_succeeds (family : pair.algorithm = e.algorithm.family) :
    Succeeds (Shows (id.getD e.defaultId) pair) (publicKey S e id) (· = pair.publicKey) :=
  assures_resolved family (succeeds_pure rfl)

theorem verify_succeeds {signature : Bytes} {b : Bool}
    (family : pair.algorithm = e.algorithm.family)
    (checked : e.verifyWith S pair.publicKey message signature = .ok b) :
    Succeeds (Shows (id.getD e.defaultId) pair) (verify S e id message signature) (· = b) :=
  assures_resolved family (succeeds_except checked rfl)

section

variable {secret : S.curve.SecretKey} (halves : pair.Halves S secret)
  (elliptic : e.algorithm = .elliptic) (family : pair.algorithm = e.algorithm.family)

include halves elliptic family

theorem encrypt_elliptic (lawful : S.curve.Lawful) :
    Succeeds (Shows (id.getD e.defaultId) pair) (encrypt S e id text) fun whole =>
      whole.length = 65 + 12 + text.length + 16 ∧ Ecies.decrypt S secret whole = .ok text := by
  refine assures_resolved family ?_
  unfold encryptWith
  rw [elliptic]
  apply succeeds_except_bind halves.2
  apply succeeds_bind (succeeds_program assures_draw)
  intro seed _
  apply succeeds_bind (succeeds_program assures_draw)
  intro nonce proper
  have sent := Ecies.encrypt_eq (S := S) (S.curve.publicOf secret) (S.curve.secretOf seed) proper
    text
  apply succeeds_except sent
  exact ⟨Ecies.length_encrypt lawful proper sent, Ecies.decrypt_encrypt lawful proper sent⟩

theorem decrypt_elliptic {whole : Bytes} (opens : Ecies.decrypt S secret whole = .ok text) :
    Succeeds (Shows (id.getD e.defaultId) pair) (decrypt S e id whole) (· = text) := by
  have done : (curveSecret S pair.privateKey >>= fun secret => Ecies.decrypt S secret whole) =
      .ok text := by
    rw [halves.1]
    exact opens
  refine assures_resolved family ?_
  rw [elliptic]
  exact succeeds_except done rfl

theorem sign_elliptic :
    Succeeds (Shows (id.getD e.defaultId) pair) (sign S e id message)
      (· = S.curve.sign secret message) := by
  refine assures_resolved family ?_
  rw [elliptic]
  exact succeeds_except_bind halves.1 (succeeds_pure rfl)

theorem agree_elliptic (peer : S.curve.PublicKey) :
    Succeeds (Shows (id.getD e.defaultId) pair) (agree S e id peer)
      (· = S.curve.agree secret peer) := by
  unfold agree
  rw [elliptic]
  refine assures_resolved family ?_
  exact succeeds_except_bind halves.1 (succeeds_pure rfl)

omit family in
theorem verifyWith_elliptic (verifies : S.curve.Verifies) (message : Bytes) :
    e.verifyWith S pair.publicKey message (S.curve.sign secret message) = .ok true := by
  simp only [verifyWith, elliptic, halves.2]
  exact congrArg Except.ok (verifies secret message)

end

/-- The texts of a pair are those of a secret key of RSA and of its public half. -/
def RsaHalves (S : Suite) (pair : KeyPair) (secret : S.rsa.SecretKey) : Prop :=
  rsaSecret S pair.privateKey = .ok secret ∧
    rsaPublic S pair.publicKey = .ok (S.rsa.publicOf secret)

theorem rsaPair_halves {bits : Nat} {secret : S.rsa.SecretKey} (lawful : S.rsa.Lawful bits)
    (generated : S.rsa.Generates bits secret) : RsaHalves S (rsaPair S bits secret) secret := by
  constructor
  · exact ofText_encode (lawful.readsSecret secret generated) _ _
  · rw [rsaPublic, rsaPair, Text.trim_eq_self fun c member => (Base64.Form.clean_encode member).1]
    exact ofText_encode (lawful.readsPublic secret generated) _ _

section

variable {bits : Nat} {secret : S.rsa.SecretKey} (halves : RsaHalves S pair secret)
  (rsa : e.algorithm = .rsa bits) (family : pair.algorithm = e.algorithm.family)

include halves rsa family

theorem encrypt_rsa :
    Assures (Shows (id.getD e.defaultId) pair) (encrypt S e id text).run fun r =>
      ∀ whole, r = .ok whole →
        ∃ seed, S.rsa.encrypt? (S.rsa.publicOf secret) seed text = some whole := by
  refine assures_resolved family ?_
  unfold encryptWith
  rw [rsa]
  refine assures_except_bind halves.2 (assures_after (succeeds_program assures_true) ?_)
  intro seed _
  split
  · rename_i whole sent
    refine assures_pure fun whole' same => ⟨seed, ?_⟩
    cases same
    exact sent
  · refine assures_pure fun whole' failed => ?_
    cases failed

theorem decrypt_rsa {whole : Bytes} (opens : S.rsa.decrypt? secret whole = some text) :
    Succeeds (Shows (id.getD e.defaultId) pair) (decrypt S e id whole) (· = text) := by
  refine assures_resolved family ?_
  rw [rsa]
  apply succeeds_except_bind halves.1
  rw [opens]
  exact succeeds_pure rfl

theorem sign_rsa :
    Assures (Shows (id.getD e.defaultId) pair) (sign S e id message).run
      (· = (S.rsa.sign? secret message).elim (.error .signing) .ok) := by
  refine assures_resolved family ?_
  rw [rsa]
  refine assures_except_bind halves.1 ?_
  cases signed : S.rsa.sign? secret message <;> exact assures_pure rfl

omit family in
theorem verifyWith_rsa {signature : Bytes}
    (verifies : S.rsa.verify (S.rsa.publicOf secret) message signature = true) :
    e.verifyWith S pair.publicKey message signature = .ok true := by
  simp only [verifyWith, rsa, halves.2]
  exact congrArg Except.ok verifies

end

theorem Fresh.family (made : Fresh S e pair) : pair.algorithm = e.algorithm.family := by
  obtain ⟨drawing, given⟩ := made
  exact (gives_fresh given).2 pair rfl

theorem Fresh.halves (made : Fresh S e pair) (elliptic : e.algorithm = .elliptic)
    (lawful : S.curve.Lawful) : ∃ secret, pair.Halves S secret := by
  obtain ⟨drawing, given⟩ := made
  rw [elliptic] at given
  obtain ⟨seed, -, rfl⟩ := gives_fresh_elliptic.mp given
  exact ⟨_, curvePair_halves lawful.readsPublic lawful.readsSecret _⟩

theorem Fresh.rsaHalves {bits : Nat} (made : Fresh S e pair) (rsa : e.algorithm = .rsa bits)
    (lawful : S.rsa.Lawful bits) :
    ∃ secret, S.rsa.Generates bits secret ∧ RsaHalves S pair secret := by
  obtain ⟨drawing, given⟩ := made
  rw [rsa] at given
  obtain ⟨seed, rest, -, given₁⟩ := Program.gives_draw_bind.mp given
  split at given₁
  · rename_i secret generated
    obtain ⟨-, rfl⟩ := Program.gives_pure_ok.mp given₁
    exact ⟨secret, ⟨_, generated⟩, rsaPair_halves lawful ⟨_, generated⟩⟩
  · cases (Program.gives_pure.mp given₁).2

/-- What the operations under one id have to do with each other, as long as they find the same
pair. -/
structure Inverts (S : Suite) (e : Engine) (id : Option String) (pair : KeyPair) : Prop where
  /-- What is encrypted is decrypted again. -/
  decrypts : ∀ text, Assures (Shows (id.getD e.defaultId) pair) (encrypt S e id text).run fun r =>
    ∀ whole, r = .ok whole →
      Succeeds (Shows (id.getD e.defaultId) pair) (decrypt S e id whole) (· = text)
  /-- On the curve everything can be encrypted. -/
  encrypts : e.algorithm = .elliptic → ∀ text,
    Succeeds (Shows (id.getD e.defaultId) pair) (encrypt S e id text) fun whole =>
      whole.length = 65 + 12 + text.length + 16
  /-- What is signed is accepted, by whoever is told the public key. -/
  verifies : ∀ message,
    Assures (Shows (id.getD e.defaultId) pair) (sign S e id message).run fun r =>
    ∀ signature, r = .ok signature →
      Succeeds (Shows (id.getD e.defaultId) pair) (verify S e id message signature) (· = true) ∧
      Succeeds (Shows (id.getD e.defaultId) pair) (publicKey S e id) fun text =>
        e.verifyWith S text message signature = .ok true
  /-- Everything can be signed, on the curve and with all but the smallest keys of RSA. -/
  signs : (∀ bits, e.algorithm = .rsa bits → 489 ≤ bits) → ∀ message,
    Succeeds (Shows (id.getD e.defaultId) pair) (sign S e id message) fun _ => True
  /-- Two engines of the curve that tell each other their public keys agree on a secret. -/
  agrees : e.algorithm = .elliptic → ∀ (e' : Engine) (id' : Option String) (pair' : KeyPair),
    e'.algorithm = .elliptic → Fresh S e' pair' → ∃ key key' shared,
      Succeeds (Shows (id.getD e.defaultId) pair) (publicKey S e id)
        (fun text => curvePublic S text = .ok key) ∧
      Succeeds (Shows (id'.getD e'.defaultId) pair') (publicKey S e' id')
        (fun text => curvePublic S text = .ok key') ∧
      Succeeds (Shows (id.getD e.defaultId) pair) (agree S e id key') (· = shared) ∧
      Succeeds (Shows (id'.getD e'.defaultId) pair') (agree S e' id' key) (· = shared)

theorem inverts_elliptic (elliptic : e.algorithm = .elliptic) (lawful : S.curve.Lawful)
    (made : Fresh S e pair) (id : Option String) : Inverts S e id pair := by
  obtain ⟨secret, halves⟩ := made.halves elliptic lawful
  have family := made.family
  constructor
  · intro text
    refine Assures.mono (encrypt_elliptic halves elliptic family lawful) ?_
    rintro _ ⟨whole, rfl, -, opens⟩ _ ⟨⟩
    exact decrypt_elliptic halves elliptic family opens
  · intro _ text
    apply (encrypt_elliptic halves elliptic family lawful).mono
    exact fun whole sent => sent.1
  · intro message
    refine Assures.mono (sign_elliptic halves elliptic family) ?_
    rintro _ ⟨_, rfl, rfl⟩ _ ⟨⟩
    have checked := verifyWith_elliptic halves elliptic lawful.verifies message
    constructor
    · exact verify_succeeds family checked
    · apply (publicKey_succeeds family).mono
      rintro _ rfl
      exact checked
  · intro _ message
    apply (sign_elliptic halves elliptic family).mono
    exact fun _ _ => trivial
  · intro _ e' id' pair' elliptic' made'
    obtain ⟨secret', halves'⟩ := made'.halves elliptic' lawful
    have family' := made'.family
    refine ⟨S.curve.publicOf secret, S.curve.publicOf secret', S.curve.agree secret
      (S.curve.publicOf secret'), ?_, ?_, ?_, ?_⟩
    · apply (publicKey_succeeds family).mono
      rintro _ rfl
      exact halves.2
    · apply (publicKey_succeeds family').mono
      rintro _ rfl
      exact halves'.2
    · exact agree_elliptic halves elliptic family _
    · rw [lawful.symmetric]
      exact agree_elliptic halves' elliptic' family' _

theorem inverts_rsa {bits : Nat} (rsa : e.algorithm = .rsa bits) (lawful : S.rsa.Lawful bits)
    (made : Fresh S e pair) (id : Option String) : Inverts S e id pair := by
  obtain ⟨secret, generated, halves⟩ := made.rsaHalves rsa lawful
  have family := made.family
  have uncurved : e.algorithm ≠ .elliptic := by simp [rsa]
  constructor
  · intro text
    refine Assures.mono (encrypt_rsa halves rsa family) ?_
    intro r sent whole same
    obtain ⟨seed, encrypted⟩ := sent whole same
    exact decrypt_rsa halves rsa family (lawful.decrypts secret seed text whole generated encrypted)
  · intro elliptic
    exact absurd elliptic uncurved
  · intro message
    refine Assures.mono (sign_rsa halves rsa family) ?_
    rintro _ rfl signature same
    have signed : S.rsa.sign? secret message = some signature := by
      cases known : S.rsa.sign? secret message with
      | some signature' =>
        rw [known] at same
        exact congrArg some (Except.ok.inj same)
      | none =>
        rw [known] at same
        cases same
    have checked := verifyWith_rsa halves rsa
      (lawful.verifies secret message signature generated signed)
    constructor
    · exact verify_succeeds family checked
    · apply (publicKey_succeeds family).mono
      rintro _ rfl
      exact checked
  · intro large message
    obtain ⟨signature, signed⟩ := lawful.signs secret message generated (large bits rsa)
    refine Assures.mono (sign_rsa halves rsa family) ?_
    rintro _ rfl
    rw [signed]
    exact ⟨signature, rfl, trivial⟩
  · intro elliptic
    exact absurd elliptic uncurved

theorem operations_invert (lawful : S.Lawful e.algorithm) (made : Fresh S e pair)
    (id : Option String) : Inverts S e id pair := by
  cases known : e.algorithm with
  | elliptic =>
    rw [known] at lawful
    exact inverts_elliptic known lawful made id
  | rsa bits =>
    rw [known] at lawful
    exact inverts_rsa known lawful made id

open Suite (long long_curve_lawful long_rsa_lawful)

/-- An engine of the curve and one of RSA, each with a pair that it made. -/
theorem operations_invert_long :
    Inverts long ⟨.elliptic, "default"⟩ none (curvePair long (3 : UInt8)) ∧
      Inverts long ⟨.rsa 2048, "default"⟩ (some "other") (rsaPair long 2048 ()) := by
  constructor
  · refine operations_invert (e := ⟨.elliptic, "default"⟩) long_curve_lawful ?_ none
    let seed : RandomBytes 48 := ⟨List.replicate 48 3, List.length_replicate⟩
    exact ⟨_, gives_fresh_elliptic.mpr ⟨seed, rfl, rfl⟩⟩
  · refine operations_invert (e := ⟨.rsa 2048, "default"⟩) (long_rsa_lawful 2048) ?_ (some "other")
    let seed : RandomBytes 64 := ⟨List.replicate 64 3, List.length_replicate⟩
    exact ⟨[⟨.random 64, seed⟩], .ask (.refl _)⟩

end Engine

end KeyService
