import KeyService.Proofs.Exchange.Agreement
import KeyService.Proofs.Program.Pool
import KeyService.Proofs.Text.Utf8

/-! Key exchanges over a network that nobody trusts.
Handshakes and answering calls run side by side. What a call is asked and what a
handshake is answered is up to the network: it may lose a message, repeat it, hand it to
somebody else, or write one of its own. A session that a handshake comes to is still one
that a call kept, if signatures cannot be forged. -/
namespace KeyService.Exchange

structure Attempt where
  initiator : Initiator
  stage : Handshake
  url : String
  responderKey : String
  keyPairId : Option String

/-- A request that is answered. It is whatever the network made of a request, or its own. -/
structure Call where
  responder : Responder
  request : Request

namespace Network

variable {H R : Type}

abbrev Result : H ⊕ R → Type
  | .inl _ => Except Error Session × Handshake
  | .inr _ => Except Error Response

def parties (S : Suite) (attempts : H → Attempt) (calls : R → Call) :
    Pool (Result (H := H) (R := R))
  | .inl h => Handshake.negotiate S (attempts h).initiator (attempts h).stage (attempts h).url
      (attempts h).responderKey (attempts h).keyPairId
  | .inr r => (Responder.respond S (calls r).responder (calls r).request).run

/-- Whatever is asked, any answer will do: the network and the clocks are not trusted. -/
def anything {ι : Type} : Unit → ι → Event → Unit → Prop := fun _ _ _ _ => True

def sent (events : List Event) : List Request :=
  events.filterMap fun e => match e.1 with
    | .exchange _ request => some request
    | _ => none

def Signed (S : Suite) (c : Call) (events : List Event) (key : S.curve.PublicKey)
    (message : Bytes) : Prop :=
  ∃ offer settling signing rest pair secret, events = settling ++ signing ++ rest ∧
    (Responder.settle S c.responder c.request).run.Gives settling (.ok offer) ∧
    (Engine.resolve S c.responder.engine c.request.keyPairId).run.Gives signing (.ok pair) ∧
    Engine.curveSecret S pair.privateKey = .ok secret ∧ S.curve.publicOf secret = key ∧
    message = Bytes.ofText (offer.text c.request)

variable [DecidableEq H] [DecidableEq R]

/-- A signature that a handshake is given is good under the key that the handshake trusts only for
what an answering call has signed. A signature leaves a call with its answer, so the call has
ended. -/
def Unforged (S : Suite) (attempts : H → Attempt) (calls : R → Call) (history : History (H ⊕ R))
    (pool : Pool (Result (H := H) (R := R))) : Prop :=
  ∀ h url request response signature key message,
    (.inl h, ⟨.exchange url request, .ok response⟩) ∈ history →
    Base64.standard.decode? response.signature = some signature →
    Responder.readKey S (attempts h).responderKey = .ok key →
    S.curve.verify key message signature = true →
    ∃ r answer, pool (.inr r) = .done (.ok answer) ∧
      Signed S (calls r) (own (.inr r) history) key message

/-- While a call runs, the pairs that it comes to see are consistent, and there is one for each
id. -/
structure Steady (S : Suite) (events : List Event) : Prop where
  consistent : ∀ {id pair}, Sees id pair events → pair.Consistent S
  single : ∀ {id pair pair'}, Sees id pair events → Sees id pair' events → pair = pair'

variable {S : Suite} {attempts : H → Attempt} {calls : R → Call} {history : History (H ⊕ R)}
  {pool : Pool (Result (H := H) (R := R))}

/-- A call that has ended kept the session of the offer that it signed. The pair that it agreed
with is the one it signed with. -/
theorem kept_of_signed (run : Run anything (parties S attempts calls) () history pool ()) {r : R}
    {answer : Response} (ended : pool (.inr r) = .done (.ok answer))
    (steady : Steady S (own (.inr r) history)) {key : S.curve.PublicKey} {message : Bytes}
    (signed : Signed S (calls r) (own (.inr r) history) key message) :
    ∃ offer settling first second secret,
      (.inr r, ⟨.keepSession offer.session, ()⟩) ∈ history ∧
      message = Bytes.ofText (offer.text (calls r).request) ∧
      Responder.Settled S (calls r).responder (calls r).request settling offer first second ∧
      second.Consistent S ∧ first.Halves S secret ∧ S.curve.publicOf secret = key ∧
      Sees ((calls r).request.keyPairId.getD (calls r).responder.engine.defaultId) first
        (own (.inr r) history) := by
  have gives : (Responder.respond S (calls r).responder (calls r).request).run.Gives _ _ :=
    run.gives ended
  obtain ⟨offer, settling, signing, first, second, third, secret, whole, settled, found, read, -⟩ :=
    Responder.gives_respond.mp gives
  obtain ⟨offer', settling', signing', rest, third', secret', whole', settled', found', read',
    keyEq, messageEq⟩ := signed
  have same : settling ++ (signing ++ [⟨.keepSession offer.session, ()⟩]) =
      settling' ++ (signing' ++ rest) := by
    rw [← List.append_assoc, ← whole, whole', List.append_assoc]
  -- The call's own trace can be cut in one way only, so what was signed is what it offered.
  have settling_gives := Responder.gives_settle.mpr ⟨first, second, settled⟩
  obtain ⟨rfl, tail, offerEq⟩ := settling_gives.unique settled' same
  obtain ⟨-, -, thirdEq⟩ := found.unique found' tail
  cases offerEq
  cases thirdEq
  obtain ⟨now, ending, drawn, one, two, trace⟩ := settled.trace
  have inside : ∀ part ∈ [one, two, signing], ∀ e ∈ part, e ∈ own (.inr r) history := by
    intro part member e belongs
    rw [whole, trace.events]
    simp only [List.mem_cons, List.not_mem_nil, or_false] at member
    rcases member with rfl | rfl | rfl <;> simp [belongs]
  have seesFirst := (Engine.gives_resolve.mp trace.first).1.sees.mono (inside one (by simp))
  have seesSecond := (Engine.gives_resolve.mp trace.second).1.sees.mono (inside two (by simp))
  have seesThird := (Engine.gives_resolve.mp found).1.sees.mono (inside signing (by simp))
  obtain rfl := steady.single seesThird seesFirst
  obtain ⟨secret₁, halves⟩ := steady.consistent seesFirst
  obtain rfl : secret' = secret₁ := Except.ok.inj (read'.symm.trans halves.1)
  refine ⟨offer, settling, third, second, secret', ?_, messageEq, settled,
    steady.consistent seesSecond, halves, keyEq, seesFirst⟩
  rw [← mem_own, whole]
  simp

/-- Whenever a handshake comes to a session, some answering call kept a session with the same id,
key, initialisation vector, length and end, for the very public key that the handshake sent, and
made it with a pair of the public key that the handshake was told to expect. -/
theorem session_authentic (symmetric : S.curve.Symmetric) (reads : S.curve.ReadsPublic)
    (run : Run anything (parties S attempts calls) () history pool ())
    (steady : ∀ r, Steady S (own (.inr r) history))
    (unforged : Unforged S attempts calls history pool)
    {h : H} {session : Session} {stage : Handshake}
    (ended : pool (.inl h) = .done (.ok session, stage)) :
    ∃ request r stored pair key, sent (own (.inl h) history) = [request] ∧
      (.inr r, ⟨.keepSession stored, ()⟩) ∈ history ∧ stored.peer = request.publicKey ∧
      stored.id = session.id ∧ stored.key = session.key ∧ stored.iv = session.iv ∧
      stored.keyLength = session.keyLength ∧ stored.expireTime = session.expireTime ∧
      Sees ((calls r).request.keyPairId.getD (calls r).responder.engine.defaultId) pair
        (own (.inr r) history) ∧
      Engine.curvePublic S pair.publicKey = .ok key ∧
      Responder.readKey S (attempts h).responderKey = .ok key := by
  have gives : (Handshake.negotiate S _ _ _ _ _).Gives _ _ := run.gives ended
  obtain ⟨-, -, p, seed, token, before, response, prepared, whole, accepted⟩ :=
    Handshake.gives_negotiate.mp gives
  obtain ⟨⟨publicRead, sameLength, signature, decoded, good⟩, rfl⟩ :=
    Initiator.accept_iff.mp accepted
  have delivered : (.inl h, ⟨.exchange (attempts h).url p.request, .ok response⟩) ∈ history := by
    rw [← mem_own, whole]
    simp
  obtain ⟨r, answer, answered, signed⟩ :=
    unforged h _ _ _ _ _ _ delivered decoded prepared.responder good
  obtain ⟨offer, settling, first, second, secret, kept, messageEq, settled, consistent, halves,
    keyEq, sees⟩ := kept_of_signed run answered (steady r) signed
  -- The two texts are equal, so everything that the keys depend on is.
  obtain ⟨idEq, timeEq, lengthEq, initiatorEq, -, tokenEq⟩ :=
    transcript_fields ⟨prepared.noBar.1, Engine.noBar_of_curvePublic publicRead, prepared.noBar.2⟩
      (settled.noBar consistent) (Bytes.ofText_inj messageEq)
  have derived := prepared.derived_of_settled symmetric reads settled halves initiatorEq tokenEq
    (by rw [← sameLength, lengthEq, settled.keyLength])
  rw [keyEq, prepared.derived] at derived
  obtain ⟨keys, ivs⟩ := Prod.mk.inj (Except.ok.inj derived)
  refine ⟨p.request, r, offer.session, first, p.responder, ?_, kept, ?_, idEq.symm, keys.symm,
    ivs.symm, ?_, timeEq.symm, sees, keyEq ▸ halves.2, prepared.responder⟩
  · rw [whole, prepared.events]
    rfl
  · rw [settled.peer, initiatorEq]
  · rw [← lengthEq, sameLength]

section

open Suite (small)

theorem steps_anything {ι : Type} (i : ι) (events : List Event) :
    Steps anything i () events () := .idle fun _ _ => trivial

def smallAttempt : Attempt :=
  ⟨Small.initiator, .init, "/exchange", (Small.pair 3).publicKey, none⟩

def answering (pair : KeyPair) (session : Session) : List Event :=
  [⟨.now, 0⟩, ⟨.findPair "default", .ok pair⟩, ⟨.findPair "default", .ok pair⟩,
    ⟨.random 16, Small.drawn⟩, ⟨.now, 0⟩, ⟨.findPair "default", .ok pair⟩,
    ⟨.keepSession session, ()⟩]

theorem steady_answering (secret : UInt8) (session : Session) :
    Steady small (answering (Small.pair secret) session) := by
  have only : ∀ {id pair}, Sees id pair (answering (Small.pair secret) session) →
      pair = Small.pair secret := by
    intro id pair sees
    rcases sees with looked | made
    · obtain ⟨-, same⟩ : id = "default" ∧ pair = Small.pair secret := by
        simpa [answering] using looked
      exact same
    · simp [answering] at made
  exact ⟨fun sees => only sees ▸ ⟨_, Small.halves secret⟩,
    fun sees sees' => (only sees).trans (only sees').symm⟩

def smallOffer (p : Pending small) : Offer :=
  Initiator.Prepared.offer Small.responder p (Small.pair 3) Small.drawn 0

def smallAnswer (p : Pending small) : Response :=
  (smallOffer p).answer p.request
    (small.curve.sign (3 : UInt8) (Bytes.ofText ((smallOffer p).text p.request)))

/-- What the handshake comes to. -/
def smallSession (p : Pending small) : Session :=
  ⟨(smallOffer p).publicKey, (smallOffer p).session.id, p.key, p.iv, p.request.keyLength,
    (smallOffer p).session.expireTime⟩

def making : List Event :=
  [⟨.random 48, Small.seed⟩, ⟨.random tokenLength, Small.token⟩, ⟨.now, 0⟩]

def receiving (p : Pending small) : List Event :=
  [⟨.exchange "/exchange" p.request, .ok (smallAnswer p)⟩, ⟨.keepSession (smallSession p), ()⟩]

theorem small_parts : ∃ (p : Pending small) (middle : Program (Except Error Session × Handshake)),
    (parties small (fun _ : Unit => smallAttempt) (fun _ : Unit => ⟨Small.responder, p.request⟩)
      (.inl ())).Leads making middle ∧
    (parties small (fun _ : Unit => smallAttempt) (fun _ : Unit => ⟨Small.responder, p.request⟩)
      (.inr ())).Gives (answering (Small.pair 3) (smallOffer p).session) (.ok (smallAnswer p)) ∧
    middle.Leads (receiving p) (.done (.ok (smallSession p), .negotiated)) ∧
    Signed small ⟨Small.responder, p.request⟩ (answering (Small.pair 3) (smallOffer p).session)
      (small.curve.publicOf (3 : UInt8)) (Bytes.ofText ((smallOffer p).text p.request)) := by
  obtain ⟨p, timestamp, prepared⟩ := Small.prepared 3
  have settled := prepared.settled_of_found Suite.small_symmetric Suite.small_readsPublic rfl rfl
    (Small.halves 3) rfl (Small.timely timestamp) Small.drawn 0
  have found : (Engine.resolve small Small.responder.engine p.request.keyPairId).run.Gives
      [⟨.findPair "default", .ok (Small.pair 3)⟩] (.ok (Small.pair 3)) := by
    rw [prepared.keyPairId]
    exact Engine.gives_resolve.mpr ⟨.there, rfl⟩
  rw [prepared.keyPairId, Small.unreported timestamp] at settled
  have responded : (Responder.respond small Small.responder p.request).run.Gives
      (answering (Small.pair 3) (smallOffer p).session) (.ok (smallAnswer p)) :=
    Responder.gives_respond.mpr ⟨smallOffer p, _, _, Small.pair 3, Small.pair 3, Small.pair 3,
      (3 : UInt8), rfl, settled, found, (Small.halves 3).1, rfl⟩
  have accepted : Initiator.accept small p (smallAnswer p) = .ok (smallSession p) :=
    prepared.accept_answer Suite.small_verifies (Small.halves 3) (smallOffer p) rfl rfl
  obtain ⟨middle, asks, receives⟩ := Program.leads_append.mp <| Handshake.gives_negotiate.mpr
    ⟨rfl, rfl, p, _, _, _, _, prepared, rfl, accepted⟩
  exact ⟨p, middle, asks, responded, receives, smallOffer p, _, _,
    [⟨.keepSession (smallOffer p).session, ()⟩], Small.pair 3, (3 : UInt8), rfl,
    Responder.gives_settle.mpr ⟨_, _, settled⟩, found, (Small.halves 3).1, rfl, rfl⟩

theorem run_of_parts {σ : Type} {rule : σ → Unit ⊕ Unit → Event → σ → Prop} {a : Attempt} {c : Call}
    {origin asked answered ended : σ} {before between after : List Event}
    {middle : Program (Except Error Session × Handshake)} {answer : Except Error Response}
    {result : Except Error Session × Handshake}
    (asks : (parties S (fun _ : Unit => a) (fun _ : Unit => c) (.inl ())).Leads before middle)
    (responds : (parties S (fun _ : Unit => a) (fun _ : Unit => c) (.inr ())).Gives between answer)
    (receives : middle.Leads after (.done result))
    (first : Steps rule (.inl ()) origin before asked)
    (second : Steps rule (.inr ()) asked between answered)
    (third : Steps rule (.inl ()) answered after ended) :
    ∃ pool, Run rule (parties S (fun _ : Unit => a) fun _ : Unit => c) origin
        (before.map (.inl (), ·) ++ between.map (.inr (), ·) ++ after.map (.inl (), ·)) pool ended ∧
      pool (.inl ()) = .done result ∧ pool (.inr ()) = .done answer := by
  have begun : Run rule (parties S (fun _ : Unit => a) fun _ : Unit => c) origin [] _ origin :=
    .start
  have sent := begun.extend asks first
  have replied := sent.extend (i := .inr ())
    (by rw [Function.update_of_ne (by simp)]; exact responds) second
  have whole := replied.extend (i := .inl ())
    (by rw [Function.update_of_ne (by simp), Function.update_self]; exact receives) third
  refine ⟨_, whole, Function.update_self .., ?_⟩
  exact (Function.update_of_ne (by simp) ..).trans (Function.update_self ..)

theorem small_exchange : ∃ (p : Pending small) (offer : Offer) (session : Session)
    (history : History (Unit ⊕ Unit)) (pool : Pool (Result (H := Unit) (R := Unit))),
    Run anything (parties small (fun _ => smallAttempt) fun _ => ⟨Small.responder, p.request⟩) ()
      history pool () ∧
    pool (.inl ()) = .done (.ok session, .negotiated) ∧
    (∃ response, pool (.inr ()) = .done (.ok response)) ∧
    own (.inr ()) history = answering (Small.pair 3) offer.session ∧
    (∀ url request response, ⟨.exchange url request, .ok response⟩ ∈ own (.inl ()) history →
      response = offer.answer p.request
        (small.curve.sign (3 : UInt8) (Bytes.ofText (offer.text p.request)))) ∧
    Signed small ⟨Small.responder, p.request⟩ (answering (Small.pair 3) offer.session)
      (small.curve.publicOf (3 : UInt8)) (Bytes.ofText (offer.text p.request)) := by
  obtain ⟨p, middle, asks, responds, receives, signed⟩ := small_parts
  obtain ⟨pool, run, ended, answered⟩ := run_of_parts asks responds receives
    (steps_anything _ _) (steps_anything _ _) (steps_anything _ _)
  refine ⟨p, smallOffer p, smallSession p, _, pool, run, ended, ⟨_, answered⟩, ?_, ?_, signed⟩
  · simp only [own_append, own_part, reduceCtorEq, if_true, if_false, List.append_nil]
    rfl
  · simp only [own_append, own_part, reduceCtorEq, if_true, if_false, List.append_nil]
    intro url request given member
    obtain ⟨-, same⟩ := by simpa [making, receiving] using member
    exact same

theorem session_authentic_small : ∃ (p : Pending small) (session stored : Session)
    (request : Request) (history : History (Unit ⊕ Unit))
    (pool : Pool (Result (H := Unit) (R := Unit))),
    Run anything (parties small (fun _ => smallAttempt) fun _ => ⟨Small.responder, p.request⟩) ()
      history pool () ∧
    pool (.inl ()) = .done (.ok session, .negotiated) ∧
    sent (own (.inl ()) history) = [request] ∧ (.inr (), ⟨.keepSession stored, ()⟩) ∈ history ∧
    stored.peer = request.publicKey ∧ stored.id = session.id ∧ stored.key = session.key ∧
    stored.iv = session.iv := by
  obtain ⟨p, offer, session, history, pool, run, ended, ⟨answer, answered⟩, calls, given, signed⟩ :=
    small_exchange
  have steady : ∀ r : Unit, Steady small (own (.inr r) history) := by
    intro r
    rw [calls]
    exact steady_answering 3 offer.session
  have unforged : Unforged small (fun _ : Unit => smallAttempt)
      (fun _ : Unit => ⟨Small.responder, p.request⟩) history pool := by
    intro h url request response signature key message delivered decoded read good
    rw [given _ _ _ (mem_own.mpr delivered)] at decoded
    obtain rfl := Option.some.inj
      ((Base64.Form.decode?_encode Base64.Form.standard_proper _).symm.trans decoded)
    obtain ⟨keyEq, messageEq⟩ := List.cons.inj (eq_of_beq good)
    subst keyEq messageEq
    rw [← calls] at signed
    exact ⟨(), answer, answered, signed⟩
  obtain ⟨request, r, stored, _, _, sentEq, kept, peer, ids, keys, ivs, -⟩ :=
    session_authentic Suite.small_symmetric Suite.small_readsPublic run steady unforged ended
  exact ⟨p, session, stored, request, history, pool, run, ended, sentEq, kept, peer, ids, keys, ivs⟩

end

end Network

end KeyService.Exchange
