import KeyService.Exchange.Handshake
import KeyService.Proofs.Engine.KeyText
import KeyService.Proofs.Program.Trace

/-! What stands behind a session that the initiating side keeps.
A handshake sends one request, and only an answer that passes every check gives a
session. The session's keys were derived before the request was sent. -/
namespace KeyService.Exchange

variable {S : Suite} {i : Initiator} {url responderKey : String} {id : Option String}
  {events : List Event}

namespace Initiator

/-- A request, and the keys that its sender remembers, come from a secret key and a token that were
drawn for it. -/
structure Prepared (S : Suite) (i : Initiator) (url responderKey : String) (id : Option String)
    (events : List Event) (p : Pending S) (seed : RandomBytes 48)
    (token : RandomBytes tokenLength) : Prop where
  events : events = [⟨.random 48, seed⟩, ⟨.random tokenLength, token⟩, ⟨.now, p.request.timestamp⟩]
  responder : Responder.readKey S responderKey = .ok p.responder
  endpoint : i.endpoint.check url = .ok ()
  derived : deriveKey (S.curve.agree (S.curve.secretOf seed.val) p.responder) token.val
    p.request.keyLength = .ok (p.key, p.iv)
  publicKey : p.request.publicKey =
    Engine.curvePublicText S (S.curve.publicOf (S.curve.secretOf seed.val))
  kind : p.request.keyExchangeAlgorithm = kindName
  keyLength : p.request.keyLength = i.algorithm.size.bits
  algorithm : p.request.algorithm = i.algorithm.name
  token : p.request.token = Base64.standard.encode token.val
  keyPairId : p.request.keyPairId = id

theorem gives_prepare {p : Pending S} :
    (i.prepare S url responderKey id).run.Gives events (.ok p) ↔
      ∃ seed token, Prepared S i url responderKey id events p seed token := by
  unfold prepare
  simp only [Program.gives_except_bind_ok, Program.gives_draw_bind, Program.gives_time_bind,
    Program.gives_pure_ok]
  constructor
  · rintro ⟨responder, read, _, endpoint, seed, _, rfl, token, _, rfl, ⟨key, iv⟩, derived, timestamp,
      _, rfl, rfl, rfl⟩
    exact ⟨seed, token, rfl, read, endpoint, derived, rfl, rfl, rfl, rfl, rfl, rfl⟩
  · rintro ⟨seed, token, rfl, read, endpoint, derived, keyEq, kindEq, lengthEq, algorithmEq, tokenEq,
      idEq⟩
    obtain ⟨⟨publicKey, kind, keyLength, algorithm, tokenText, timestamp, keyPairId⟩, responder, key,
      iv⟩ := p
    subst keyEq kindEq lengthEq algorithmEq tokenEq idEq
    exact ⟨responder, read, (), endpoint, seed, _, rfl, token, _, rfl, (key, iv), derived, timestamp,
      [], rfl, rfl, rfl⟩

/-- An answer to a request is good if it names the responder's key and the length asked for, and
its signature covers the transcript. -/
structure Verified (S : Suite) (request : Request) (responder : S.curve.PublicKey)
    (response : Response) : Prop where
  publicKey : Engine.curvePublic S response.publicKey = .ok responder
  keyLength : response.keyLength = request.keyLength
  signed : ∃ signature, Base64.standard.decode? response.signature = some signature ∧
    S.curve.verify responder (Bytes.ofText (covered request response)) signature = true

theorem verify_iff {request : Request} {responder : S.curve.PublicKey} {response : Response} :
    verify S request responder response = .ok () ↔ Verified S request responder response := by
  constructor
  · intro passed
    unfold verify at passed
    cases read : Engine.curvePublic S response.publicKey with
    | error cause =>
      rw [read] at passed
      cases passed
    | ok echoed =>
      rw [read] at passed
      change (if echoed ≠ responder then _ else _) = _ at passed
      split at passed
      · cases passed
      · rename_i sameKey
        split at passed
        · cases passed
        · rename_i sameLength
          split at passed
          · cases passed
          · rename_i signature decoded
            split at passed
            · rename_i good
              exact ⟨by rw [read, Decidable.not_not.mp sameKey], Decidable.not_not.mp sameLength,
                signature, decoded, good⟩
            · cases passed
  · rintro ⟨read, sameLength, signature, decoded, good⟩
    unfold verify
    rw [read, decoded]
    change (if responder ≠ responder then _ else _) = _
    rw [if_neg (not_not_intro rfl), if_neg (not_not_intro sameLength)]
    exact if_pos good

theorem accept_iff {p : Pending S} {response : Response} {session : Session} :
    accept S p response = .ok session ↔
      Verified S p.request p.responder response ∧
        session = ⟨response.publicKey, response.sessionId, p.key, p.iv, p.request.keyLength,
          response.expireTime⟩ := by
  rw [← verify_iff, accept]
  cases verify S p.request p.responder response with
  | error cause => simp [bind, Except.bind]
  | ok _ => simp [bind, Except.bind, pure, Except.pure, eq_comm]

end Initiator

namespace Handshake

variable {h h' : Handshake}

theorem gives_request {p : Pending S} :
    (request S i h url responderKey id).Gives events (.ok p, h') ↔
      h = .init ∧ h' = .requested ∧
        (i.prepare S url responderKey id).run.Gives events (.ok p) := by
  cases h with
  | init =>
    unfold request
    rw [Program.gives_bind]
    constructor
    · rintro ⟨result, before, after, rfl, prepared, given⟩
      cases result with
      | ok p' =>
        obtain ⟨rfl, same⟩ := Program.gives_pure.mp given
        obtain ⟨result, rfl⟩ := Prod.mk.inj same
        rw [List.append_nil, ← result]
        exact ⟨rfl, rfl, prepared⟩
      | error cause => exact nomatch (Prod.mk.inj (Program.gives_pure.mp given).2).1
    · rintro ⟨-, rfl, prepared⟩
      exact ⟨.ok p, events, [], (List.append_nil _).symm, prepared,
        Program.gives_pure.mpr ⟨rfl, rfl⟩⟩
  | _ =>
    -- A handshake that was begun before refuses at once.
    constructor
    · intro given
      exact nomatch (Prod.mk.inj (Program.gives_pure.mp given).2).1
    · rintro ⟨⟨⟩, -⟩

theorem gives_receive {p : Pending S} {answer : Except Error Response} {session : Session} :
    (receive S p answer).Gives events (.ok session, h') ↔
      h' = .negotiated ∧ events = [⟨.keepSession session, ()⟩] ∧
        ∃ response, answer = .ok response ∧ Initiator.accept S p response = .ok session := by
  unfold receive
  constructor
  · intro given
    cases outcome : answer.bind (Initiator.accept S p) with
    | error cause =>
      rw [outcome] at given
      exact nomatch (Prod.mk.inj (Program.gives_pure.mp given).2).1
    | ok kept =>
      rw [outcome] at given
      obtain ⟨_, before, after, rfl, keeping, ended⟩ := Program.gives_bind.mp given
      obtain ⟨rfl, same⟩ := Program.gives_pure.mp ended
      rw [Program.gives_setSession] at keeping
      obtain ⟨result, rfl⟩ := Prod.mk.inj same
      obtain rfl : kept = session := Except.ok.inj result
      cases answer with
      | error cause => exact nomatch outcome
      | ok response =>
        rw [Except.bind] at outcome
        exact ⟨rfl, by rw [keeping, List.append_nil], response, rfl, outcome⟩
  · rintro ⟨rfl, rfl, response, rfl, accepted⟩
    rw [Except.bind, accepted]
    exact Program.gives_bind.mpr ⟨(), _, [], rfl, Program.gives_setSession.mpr rfl,
      Program.gives_pure.mpr ⟨rfl, rfl⟩⟩

theorem gives_negotiate {session : Session} :
    (negotiate S i h url responderKey id).Gives events (.ok session, h') ↔
      h = .init ∧ h' = .negotiated ∧ ∃ p seed token before response,
        Initiator.Prepared S i url responderKey id before p seed token ∧
        events = before ++ [⟨.exchange url p.request, .ok response⟩, ⟨.keepSession session, ()⟩] ∧
        Initiator.accept S p response = .ok session := by
  unfold negotiate
  rw [Program.gives_bind]
  constructor
  · rintro ⟨⟨pending, h₁⟩, before, after, rfl, requested, given⟩
    cases pending with
    | error cause => exact nomatch (Prod.mk.inj (Program.gives_pure.mp given).2).1
    | ok p =>
      obtain ⟨answer, sending, receiving, rfl, sent, received⟩ := Program.gives_bind.mp given
      rw [Program.gives_send] at sent
      obtain ⟨rfl, rfl, response, rfl, accepted⟩ := gives_receive.mp received
      obtain ⟨rfl, -, prepares⟩ := gives_request.mp requested
      obtain ⟨seed, token, prepared⟩ := Initiator.gives_prepare.mp prepares
      exact ⟨rfl, rfl, p, seed, token, before, response, prepared, by rw [sent]; rfl, accepted⟩
  · rintro ⟨rfl, rfl, p, seed, token, before, response, prepared, rfl, accepted⟩
    refine ⟨(.ok p, .requested), before, _, rfl, ?_, ?_⟩
    · exact gives_request.mpr ⟨rfl, rfl, Initiator.gives_prepare.mpr ⟨seed, token, prepared⟩⟩
    · exact Program.gives_bind.mpr ⟨.ok response, [_], _, rfl, Program.gives_send.mpr rfl,
        gives_receive.mpr ⟨rfl, rfl, response, rfl, accepted⟩⟩

end Handshake

end KeyService.Exchange
