import KeyService.Proofs.Exchange.Skew
import KeyService.Proofs.KeyPair.Failing

/-! What a call of a responder leaves behind.
It answers and keeps one session, or it fails and keeps none. What it keeps, what it answers and
what it signs are the same, and were made with the one pair that the store has under the id of the
request. -/
namespace KeyService.Exchange.Responder

variable {σ ι : Type} {S : Suite} {B : KeyPair.Backend σ} {valid : σ → Prop} {r : Responder}
  {request : Request} {events : List Event} {s s' : Stores σ} {i : ι}

/-- A session is kept as it is answered and signed. -/
structure Completed (S : Suite) (B : KeyPair.Backend σ) (r : Responder) (request : Request)
    (s s' : Stores σ) (response : Response) (pair : KeyPair) (secret : S.curve.SecretKey)
    (initiator : S.curve.PublicKey) (token : Bytes) (session : Session) : Prop where
  held : B.find s'.pairs (request.keyPairId.getD r.engine.defaultId) = .ok pair
  publicKey : pair.publicKey = response.publicKey
  secretRead : Engine.curveSecret S pair.privateKey = .ok secret
  keyRead : Engine.curvePublic S request.publicKey = .ok initiator
  tokenRead : Base64.standard.decode? request.token = some token
  sessions : s'.sessions.entries = (response.sessionId, session) ::
    s.sessions.entries.filter fun e => e.1 ≠ response.sessionId && !e.2.isExpired s.now
  peer : session.peer = request.publicKey
  id : session.id = response.sessionId
  keys : deriveKey (S.curve.agree secret initiator) token request.keyLength =
    .ok (session.key, session.iv)
  sessionLength : session.keyLength = request.keyLength
  keyLength : response.keyLength = request.keyLength
  algorithm : response.algorithm = request.algorithm
  sessionEnd : session.expireTime = response.expireTime
  expireTime : response.expireTime.toInt =
    min (s.now.toInt + min (r.sessionSeconds.toMillis : Int) Int64.maxValue.toInt)
      Int64.maxValue.toInt
  /-- The clock does not show a time before the epoch. -/
  saturated : 0 ≤ s.now →
    response.expireTime.toInt =
      min (s.now.toInt + r.sessionSeconds.toMillis) Int64.maxValue.toInt
  lasts : s.now ≤ response.expireTime
  signature : response.signature = Base64.standard.encode (S.curve.sign secret (Bytes.ofText
    (transcript response.sessionId response.expireTime response.keyLength request.publicKey
      response.publicKey request.token)))

theorem entries_keep_filter (t : SessionStore) (now : Int64) (session : Session) :
    (t.keep now session).entries =
      (session.id, session) ::
        t.entries.filter fun e => e.1 ≠ session.id && !e.2.isExpired now := by
  change _ :: List.filter _ (List.filter _ _) = _
  rw [List.filter_filter]

theorem le_later (now : Int64) (span : Seconds) : now ≤ later now (millis span) := by
  have := Int.natCast_nonneg span.toMillis
  have := toInt_bounds now
  rw [Int64.le_iff_toInt_le, toInt_later, toInt_max]
  omega

theorem toInt_later_of_epoch {now : Int64} (epoch : 0 ≤ now) (span : Seconds) :
    (later now (millis span)).toInt = min (now.toInt + span.toMillis) Int64.maxValue.toInt := by
  have := toInt_of_epoch epoch
  rw [toInt_later, toInt_max]
  omega

/-- All three look-ups of a call that succeeds obtained the pair that is there in the end. -/
theorem same_of_there {settling signing : List Event} {offer : Offer}
    {first second third : KeyPair} (settled : Settled S r request settling offer first second)
    (found : (r.engine.resolve S request.keyPairId).run.Gives signing (.ok third))
    (there : ∀ name pair, Sees name pair (settling ++ signing) → B.find s'.pairs name = .ok pair) :
    first = third ∧ second = third ∧
      B.find s'.pairs (request.keyPairId.getD r.engine.defaultId) = .ok third := by
  obtain ⟨now, ending, drawn, one, two, trace⟩ := settled.trace
  have held {part : List Event} {pair : KeyPair} (inside : ∀ e ∈ part, e ∈ settling ++ signing)
      (looked : (r.engine.resolve S request.keyPairId).run.Gives part (.ok pair)) :
      B.find s'.pairs (request.keyPairId.getD r.engine.defaultId) = .ok pair :=
    there _ _ ((Engine.gives_resolve.mp looked).1.sees.mono inside)
  have heldFirst := held (fun e member => by simp [trace.events, member]) trace.first
  have heldSecond := held (fun e member => by simp [trace.events, member]) trace.second
  have heldThird := held (fun e member => List.mem_append_right _ member) found
  exact ⟨Except.ok.inj (heldFirst.symm.trans heldThird),
    Except.ok.inj (heldSecond.symm.trans heldThird), heldThird⟩

theorem decode_of_readToken {text : String} {token : Bytes} (read : readToken text = .ok token) :
    Base64.standard.decode? text = some token := by
  rw [spelling_of_readToken read]
  exact Base64.Form.decode?_encode Base64.Form.standard_proper token

/-- An offer that was made with one pair, signed with it and kept. -/
theorem completed_of_settled {settling : List Event} {offer : Offer} {pair : KeyPair}
    {secret : S.curve.SecretKey} (settled : Settled S r request settling offer pair pair)
    (read : Engine.curveSecret S pair.privateKey = .ok secret)
    (held : B.find s'.pairs (request.keyPairId.getD r.engine.defaultId) = .ok pair)
    (ends : offer.session.expireTime = later s.now (millis r.sessionSeconds))
    (kept : s'.sessions = s.sessions.keep s.now offer.session) :
    ∃ initiator token, Completed S B r request s s'
      (offer.answer request (S.curve.sign secret (Bytes.ofText (offer.text request)))) pair secret
      initiator token offer.session := by
  obtain ⟨secret', initiator, token, read', keyRead, tokenRead, derived⟩ := settled.agreed
  obtain rfl := Except.ok.inj (read.symm.trans read')
  have expireTime := congrArg Int64.toInt ends
  refine ⟨initiator, token, {
    held
    publicKey := settled.publicKey.symm
    secretRead := read
    keyRead := readKey_iff.mp keyRead
    tokenRead := decode_of_readToken tokenRead
    sessions := kept ▸ entries_keep_filter ..
    peer := settled.peer
    id := rfl
    keys := derived
    sessionLength := settled.keyLength
    keyLength := settled.keyLength
    algorithm := rfl
    sessionEnd := rfl
    expireTime := expireTime.trans (toInt_later ..)
    saturated := fun epoch => expireTime.trans (toInt_later_of_epoch epoch _)
    lasts := ?_
    signature := rfl }⟩
  change s.now ≤ offer.session.expireTime
  rw [ends]
  exact le_later ..

/-- A call that fails leaves the sessions as they are, and one that succeeds adds the session that
it answers with. Either of them may have made the default pair, where that was missing, and nothing
else becomes of the pairs. -/
theorem respond_all_or_nothing (isMap : B.IsMap valid) {result : Except Error Response}
    (given : (respond S r request).run.Gives events result)
    (calls : Steps (Stores.Call B) i s events s') (inside : valid s.pairs) :
    (s'.pairs = s.pairs ∨ Engine.Created S B r.engine request.keyPairId s.pairs s'.pairs) ∧
    (∀ cause, result = .error cause → s'.sessions = s.sessions) ∧
    (∀ response, result = .ok response → ∃ pair secret initiator token session,
      Completed S B r request s s' response pair secret initiator token session) := by
  refine ⟨Stores.pairs_of_calls isMap respond_careful given calls inside Stores.missing_nil, ?_, ?_⟩
  · rintro cause rfl
    exact Stores.sessions_eq_of_calls calls (kept_of_failed given)
  · rintro response rfl
    have spared := Stores.spares_of_rule (Stores.Call.spares isMap) respond_careful given calls
      inside fun _ member => absurd member List.not_mem_nil
    obtain ⟨offer, settling, signing, first, second, third, secret, rfl, settled, found, read,
      rfl⟩ := gives_respond.mp given
    obtain ⟨rfl, rfl, held⟩ := same_of_there settled found fun name pair sees =>
      spared.there name pair (sees.mono fun e member => List.mem_append_left _ member)
    obtain ⟨now, ending, drawn, one, two, trace⟩ := settled.trace
    obtain rfl : ending = s.now := Stores.reading_of_calls calls (by simp [trace.events])
    have kept := Stores.sessions_keep_of_calls calls (kept_of_settled settled found)
    obtain ⟨initiator, token, completed⟩ :=
      completed_of_settled settled read held trace.expireTime kept
    exact ⟨second, secret, initiator, token, offer.session, completed⟩

open Suite (small)
open KeyPair.Backend (memory)

def lapsed : Session := ⟨"peer", "over", [], [], 128, -1⟩

def smallStores : Stores (Table String KeyPair) :=
  ⟨0, Small.stocked (Small.pair 3), Table.empty.insert "over" lapsed⟩

/-- The pair is there, so it stays, and of the sessions only the new one is left. -/
theorem respond_all_or_nothing_small : ∃ (p : Pending small) (events : List Event)
    (s' : Stores (Table String KeyPair)) (response : Response) (session : Session),
    (respond small Small.responder p.request).run.Gives events (.ok response) ∧
    Steps (Stores.Call memory) () smallStores events s' ∧ s'.pairs = smallStores.pairs ∧
    s'.sessions.entries = [(response.sessionId, session)] ∧
    session.expireTime = response.expireTime ∧ response.expireTime.toInt = 3600000 := by
  obtain ⟨p, timestamp, prepared⟩ := Small.prepared 3
  have given := prepared.answered Suite.small_symmetric Suite.small_readsPublic rfl rfl
    (Small.halves 3) rfl (Small.timely timestamp) Small.drawn 0
  rw [Small.unreported timestamp] at given
  have looked : Stores.Call memory smallStores ()
      ⟨.findPair "default", .ok (Small.pair 3)⟩ smallStores :=
    .answered (Stores.Step.found (Small.find_stocked _) 0) rfl
  have read : Stores.Call memory smallStores () ⟨.now, 0⟩ smallStores :=
    .answered (.time smallStores () 0) rfl
  have drew : Stores.Call memory smallStores () ⟨.random 16, Small.drawn⟩ smallStores :=
    .answered (.other 0 trivial) rfl
  let kept := (Initiator.Prepared.offer Small.responder p (Small.pair 3) Small.drawn 0).session
  have keeps : Stores.Call memory smallStores () ⟨.keepSession kept, ()⟩ _ :=
    .answered (.keepSession smallStores () 0 kept) rfl
  have calls : Steps (Stores.Call memory) () smallStores _ _ :=
    .cons read (.cons looked (.cons looked (.cons drew (.cons read (.cons looked
      (.cons keeps (.nil _)))))))
  obtain ⟨-, -, completes⟩ :=
    respond_all_or_nothing KeyPair.Backend.memory_isMap given calls trivial
  obtain ⟨pair, secret, initiator, token, session, completed⟩ := completes _ rfl
  have left := completed.sessions
  refine ⟨p, _, _, _, session, given, calls, rfl, left, completed.sessionEnd, ?_⟩
  exact completed.saturated (by decide)

end KeyService.Exchange.Responder
