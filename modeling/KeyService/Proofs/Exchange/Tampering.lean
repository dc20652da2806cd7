import KeyService.Proofs.Exchange.Authentication
import KeyService.Proofs.Exchange.Causes

/-! Answers that were changed on their way.
The signature of an answer covers its id, its end, its key length and its public key, with the
request's key and token. The name of the cipher is not covered and is not looked at: both sides
have it from the request. -/
namespace KeyService.Exchange.Initiator

variable {S : Suite} {r : Responder} {request : Request} {responder : S.curve.PublicKey}
  {events : List Event} {honest response : Response}

/-- The signature of an answer verifies for nothing but what the answer says. -/
def Binds (S : Suite) (request : Request) (responder : S.curve.PublicKey)
    (honest : Response) : Prop :=
  ∀ signature message, Base64.standard.decode? honest.signature = some signature →
    S.curve.verify responder message signature = true →
    message = Bytes.ofText (covered request honest)

/-- A transcript that was signed can be read in one way only. -/
theorem fields_of_covered (given : (Responder.respond S r request).run.Gives events (.ok honest))
    (readable : ∃ key, Engine.curvePublic S honest.publicKey = .ok key)
    (verified : Verified S request responder response)
    (same : covered request response = covered request honest) :
    response.publicKey = honest.publicKey ∧ response.sessionId = honest.sessionId ∧
      response.expireTime = honest.expireTime ∧ response.keyLength = honest.keyLength := by
  obtain ⟨offer, settling, signing, first, second, third, secret, -, settled, -⟩ :=
    Responder.gives_respond.mp given
  obtain ⟨key, read⟩ := readable
  obtain ⟨initiatorBars, tokenBars⟩ := settled.noBar_request
  obtain ⟨ids, times, lengths, -, keys, -⟩ := transcript_fields
    ⟨initiatorBars, Engine.noBar_of_curvePublic verified.publicKey, tokenBars⟩
    ⟨initiatorBars, Engine.noBar_of_curvePublic read, tokenBars⟩ same
  exact ⟨keys, ids, times, lengths⟩

/-- Whoever changes an answer but for the name of its cipher has it refused, and the name makes no
difference. What is accepted names the responder's key and the length that was asked for. -/
theorem tampered_refused (given : (Responder.respond S r request).run.Gives events (.ok honest))
    (readable : ∃ key, Engine.curvePublic S honest.publicKey = .ok key)
    (binds : Binds S request responder honest)
    (signature : response.signature = honest.signature) :
    (response ≠ { honest with algorithm := response.algorithm } →
      ∃ detail, verify S request responder response = .error (.verification detail)) ∧
    (response = { honest with algorithm := response.algorithm } →
      verify S request responder response = verify S request responder honest) ∧
    (verify S request responder response = .ok () →
      Engine.curvePublic S response.publicKey = .ok responder ∧
        response.keyLength = request.keyLength) := by
  refine ⟨fun changed => ?_, fun renamed => ?_, fun accepted => ?_⟩
  · cases judged : verify S request responder response with
    | error cause =>
      obtain ⟨detail, rfl⟩ := cause_of_verify judged
      exact ⟨detail, rfl⟩
    | ok _ =>
      have verified := verify_iff.mp judged
      obtain ⟨bytes, decoded, good⟩ := verified.signed
      have texts := Bytes.ofText_inj (binds bytes _ (signature ▸ decoded) good)
      obtain ⟨keys, ids, times, lengths⟩ := fields_of_covered given readable verified texts
      refine absurd ?_ changed
      cases response
      cases keys
      cases ids
      cases times
      cases lengths
      cases signature
      rfl
  · rw [renamed]
    rfl
  · have verified := verify_iff.mp accepted
    exact ⟨verified.publicKey, verified.keyLength⟩

open Suite (small)

theorem binds_sign {secret : UInt8}
    (signed : honest.signature = Base64.standard.encode
      (small.curve.sign secret (Bytes.ofText (covered request honest)))) (responder : UInt8) :
    Binds small request responder honest := by
  intro signature message decoded good
  rw [signed, Base64.Form.decode?_encode Base64.Form.standard_proper] at decoded
  obtain rfl := Option.some.inj decoded
  exact (List.cons.inj (eq_of_beq good)).2.symm

theorem small_answered : ∃ (p : Pending small) (events : List Event) (honest : Response),
    (Responder.respond small Small.responder p.request).run.Gives events (.ok honest) ∧
    (∃ key, Engine.curvePublic small honest.publicKey = .ok key) ∧
    Binds small p.request p.responder honest ∧ honest.expireTime = 3600000 ∧
    honest.algorithm = "AES/CBC/PKCS5Padding" ∧ p.request.algorithm = "AES/CBC/PKCS5Padding" ∧
    verify small p.request p.responder honest = .ok () := by
  obtain ⟨p, timestamp, prepared⟩ := Small.prepared 3
  have given := prepared.answered Suite.small_symmetric Suite.small_readsPublic rfl rfl
    (Small.halves 3) rfl (Small.timely timestamp) Small.drawn 0
  obtain ⟨verified, -⟩ := accept_iff.mp <| prepared.accept_answer Suite.small_verifies
    (Small.halves 3) (Prepared.offer Small.responder p (Small.pair 3) Small.drawn 0) rfl rfl
  refine ⟨p, _, _, given, ⟨_, verified.publicKey⟩, ?_, rfl, prepared.algorithm,
    prepared.algorithm, verify_iff.mpr verified⟩
  apply binds_sign
  rfl

theorem tampered_refused_small : ∃ (p : Pending small) (events : List Event)
    (honest response : Response),
    (Responder.respond small Small.responder p.request).run.Gives events (.ok honest) ∧
    (∃ key, Engine.curvePublic small honest.publicKey = .ok key) ∧
    Binds small p.request p.responder honest ∧ response.signature = honest.signature ∧
    verify small p.request p.responder honest = .ok () ∧
    response = { honest with expireTime := Int64.maxValue } ∧
    ∃ detail, verify small p.request p.responder response = .error (.verification detail) := by
  obtain ⟨p, events, honest, given, readable, binds, expires, -, -, accepted⟩ := small_answered
  let response : Response := { honest with expireTime := Int64.maxValue }
  have unchanged : response.signature = honest.signature := rfl
  refine ⟨p, events, honest, response, given, readable, binds, unchanged, accepted, rfl,
    (tampered_refused given readable binds unchanged).1 ?_⟩
  intro same
  have times : Int64.maxValue = honest.expireTime := congrArg Response.expireTime same
  rw [expires] at times
  exact absurd times (by decide)

/-- An answer that names another cipher than the request is accepted. -/
theorem renamed_accepted : ∃ (p : Pending small) (events : List Event)
    (honest response : Response),
    (Responder.respond small Small.responder p.request).run.Gives events (.ok honest) ∧
    (∃ key, Engine.curvePublic small honest.publicKey = .ok key) ∧
    Binds small p.request p.responder honest ∧ response.signature = honest.signature ∧
    response.algorithm ≠ honest.algorithm ∧ response.algorithm ≠ p.request.algorithm ∧
    verify small p.request p.responder response = .ok () := by
  obtain ⟨p, events, honest, given, readable, binds, -, named, requested, accepted⟩ :=
    small_answered
  have other : "AES/ECB/PKCS5Padding" ≠ "AES/CBC/PKCS5Padding" := by decide
  exact ⟨p, events, honest, { honest with algorithm := "AES/ECB/PKCS5Padding" }, given, readable,
    binds, rfl, named ▸ other, requested ▸ other, accepted⟩

end KeyService.Exchange.Initiator
