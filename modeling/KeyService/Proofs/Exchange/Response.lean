import KeyService.Exchange.Responder
import KeyService.Proofs.Engine.Resolve

/-! What stands behind an answer.
A responder that has answered looked its pair up three times: for the agreement, for
the public key that it answers with, and for the signature. Nothing makes the three
agree, so each is named apart. -/
namespace KeyService.Exchange.Responder

variable {S : Suite} {r : Responder} {request : Request} {events : List Event}

theorem gives_byEngine {α : Type} {work : Engine.Act α} {a : α} :
    (byEngine work).run.Gives events (.ok a) ↔ work.run.Gives events (.ok a) := by
  unfold byEngine
  simp only [ExceptT.run_mk, Program.gives_bind, Program.gives_pure]
  constructor
  · rintro ⟨result, before, _, rfl, worked, rfl, same⟩
    cases result with
    | ok b =>
      cases same
      rwa [List.append_nil]
    | error cause => cases same
  · intro worked
    exact ⟨.ok a, events, [], (List.append_nil _).symm, worked, rfl, rfl⟩

theorem gives_publicKey {id : Option String} {text : String} :
    (publicKey S r id).run.Gives events (.ok text) ↔
      ∃ pair, (Engine.resolve S r.engine id).run.Gives events (.ok pair) ∧
        pair.publicKey = text := by
  unfold publicKey
  rw [gives_byEngine, Engine.gives_publicKey]

/-- What is reported of the difference of two clocks, and of its size. -/
def reports (now timestamp : Int64) : List Event :=
  Program.outside (now.toInt - timestamp.toInt) ++
    Program.outside (now - timestamp).toInt.natAbs

theorem mem_reports {now timestamp : Int64} {e : Event} (member : e ∈ reports now timestamp) :
    e = ⟨.overflow, ()⟩ := by
  rcases List.mem_append.mp member with first | second
  · exact Program.mem_outside first
  · exact Program.mem_outside second

theorem gives_compare {now timestamp : Int64} {u : Unit} :
    (compare now timestamp).Gives events u ↔ events = reports now timestamp := by
  unfold compare reports
  simp only [Program.gives_bind, Program.gives_within]
  constructor
  · rintro ⟨_, _, _, rfl, rfl, rfl⟩
    rfl
  · rintro rfl
    exact ⟨(), _, _, rfl, rfl, rfl⟩

theorem asks_compare {P : Question → Prop} (fits : P .overflow) (now timestamp : Int64) :
    (compare now timestamp).Asks P :=
  Program.asks_bind (Program.asks_within fits) fun _ _ _ => Program.asks_within fits

theorem gives_validate {result : Except Error Unit} :
    (r.validate request).run.Gives events result ↔
      (∃ cause, checkCipher request = .error cause ∧ events = [] ∧ .error cause = result) ∨
      checkCipher request = .ok () ∧
        ∃ now, events = ⟨.now, now⟩ :: reports now request.timestamp ∧
          r.checkClock now request.timestamp = result := by
  have clocked : (liftM Program.time >>= fun now => liftM (compare now request.timestamp) >>= fun _ =>
      liftM (r.checkClock now request.timestamp) : Act Unit).run.Gives events result ↔
      ∃ now, events = ⟨.now, now⟩ :: reports now request.timestamp ∧
        r.checkClock now request.timestamp = result := by
    simp only [↓Program.gives_time_bind, Program.gives_program_bind, gives_compare]
    constructor
    · rintro ⟨now, _, rfl, _, _, rest, rfl, rfl, checked⟩
      obtain ⟨rfl, same⟩ := Program.gives_pure.mp checked
      exact ⟨now, congrArg _ (List.append_nil _), same⟩
    · rintro ⟨now, rfl, same⟩
      exact ⟨now, _, rfl, (), _, [], (List.append_nil _).symm, rfl,
        Program.gives_pure.mpr ⟨rfl, same⟩⟩
  unfold validate
  cases checkCipher request with
  | error cause =>
    constructor
    · intro given
      obtain ⟨rfl, same⟩ := Program.gives_pure.mp given
      exact .inl ⟨cause, rfl, rfl, same⟩
    · rintro (⟨_, ⟨⟩, rfl, same⟩ | ⟨⟨⟩, -⟩)
      exact Program.gives_pure.mpr ⟨rfl, same⟩
  | ok _ =>
    constructor
    · exact fun given => .inr ⟨rfl, clocked.mp given⟩
    · rintro (⟨_, ⟨⟩, -⟩ | ⟨-, timed⟩)
      exact clocked.mpr timed

theorem gives_validate_ok {u : Unit} :
    (r.validate request).run.Gives events (.ok u) ↔
      checkCipher request = .ok () ∧
        ∃ now, events = ⟨.now, now⟩ :: reports now request.timestamp ∧
          r.checkClock now request.timestamp = .ok () := by
  simp [gives_validate]

/-- The trace of an offer: a look at the clock, and what is reported of it, a look-up for the
agreement, another one for the public key, the draw of an id, and the clock again. -/
structure Trace (S : Suite) (r : Responder) (request : Request) (events : List Event)
    (offer : Offer) (first second : KeyPair) (now ending : Int64) (drawn : RandomBytes 16)
    (one two : List Event) : Prop where
  events : events = ⟨.now, now⟩ :: reports now request.timestamp ++ one ++ two ++
    [⟨.random 16, drawn⟩, ⟨.now, ending⟩]
  first : (Engine.resolve S r.engine request.keyPairId).run.Gives one (.ok first)
  second : (Engine.resolve S r.engine request.keyPairId).run.Gives two (.ok second)
  clock : r.checkClock now request.timestamp = .ok ()
  id : offer.session.id = Text.uuid drawn.val
  expireTime : offer.session.expireTime = later ending (millis r.sessionSeconds)

/-- An offer is made of the pairs that two look-ups obtained: its keys with the first, its public
key with the second. -/
structure Settled (S : Suite) (r : Responder) (request : Request) (events : List Event)
    (offer : Offer) (first second : KeyPair) : Prop where
  elliptic : r.engine.algorithm = .elliptic
  cipher : checkCipher request = .ok ()
  trace : ∃ now ending drawn one two,
    Trace S r request events offer first second now ending drawn one two
  agreed : ∃ secret initiator token, Engine.curveSecret S first.privateKey = .ok secret ∧
    readKey S request.publicKey = .ok initiator ∧ readToken request.token = .ok token ∧
    deriveKey (S.curve.agree secret initiator) token request.keyLength =
      .ok (offer.session.key, offer.session.iv)
  publicKey : offer.publicKey = second.publicKey
  peer : offer.session.peer = request.publicKey
  keyLength : offer.session.keyLength = request.keyLength

theorem gives_settle {offer : Offer} :
    (settle S r request).run.Gives events (.ok offer) ↔
      ∃ first second, Settled S r request events offer first second := by
  unfold settle
  simp only [↓Program.gives_except_bind_ok, ↓Program.gives_time_bind, ↓Program.gives_draw_bind,
    Program.gives_bind_ok, Program.gives_pure_ok, gives_validate_ok, gives_byEngine, Engine.gives_agree,
    gives_publicKey]
  constructor
  · rintro ⟨_, _, _, rfl, ⟨cipher, now, rfl, timely⟩, initiator, keyRead, token, tokenRead, shared,
      one, _, rfl, ⟨elliptic, first, secret, found, secretRead, rfl⟩, text, two, _, rfl,
      ⟨second, foundAgain, rfl⟩, ⟨key, iv⟩, derived, drawn, _, rfl, ending, _, rfl, rfl, rfl⟩
    refine ⟨first, second, elliptic, cipher, ⟨now, ending, drawn, one, two, ?_⟩,
      ⟨secret, initiator, token, secretRead, keyRead, tokenRead, derived⟩, rfl, rfl, rfl⟩
    exact ⟨by simp, found, foundAgain, timely, rfl, rfl⟩
  · rintro ⟨first, second, elliptic, cipher, ⟨now, ending, drawn, one, two, trace⟩,
      ⟨secret, initiator, token, secretRead, keyRead, tokenRead, derived⟩, keyEq, peerEq, lengthEq⟩
    obtain ⟨rfl, found, foundAgain, timely, idEq, endEq⟩ := trace
    obtain ⟨publicKey, peer, id, key, iv, keyLength, expireTime⟩ := offer
    subst keyEq peerEq lengthEq idEq endEq
    exact ⟨(), _, one ++ two ++ _, by simp, ⟨cipher, now, rfl, timely⟩, initiator, keyRead, token,
      tokenRead, _, one, _, List.append_assoc one two _,
      ⟨elliptic, first, secret, found, secretRead, rfl⟩, _, two, _, rfl, ⟨second, foundAgain, rfl⟩,
      (key, iv), derived, drawn, _, rfl, ending, [], rfl, rfl, rfl⟩

theorem gives_respond {response : Response} :
    (respond S r request).run.Gives events (.ok response) ↔
      ∃ offer settling signing first second third secret,
        events = settling ++ signing ++ [⟨.keepSession offer.session, ()⟩] ∧
        Settled S r request settling offer first second ∧
        (Engine.resolve S r.engine request.keyPairId).run.Gives signing (.ok third) ∧
        Engine.curveSecret S third.privateKey = .ok secret ∧
        response =
          offer.answer request (S.curve.sign secret (Bytes.ofText (offer.text request))) := by
  unfold respond
  simp only [Program.gives_bind_ok, gives_settle, gives_byEngine, Program.gives_program_ok,
    Program.gives_setSession, Program.gives_pure_ok]
  constructor
  · rintro ⟨offer, settling, _, rfl, ⟨first, second, settled⟩, signature, signing, _, rfl, signed, _,
      _, _, rfl, rfl, rfl, rfl⟩
    obtain ⟨third, secret, found, read, rfl⟩ := (Engine.gives_sign settled.elliptic).mp signed
    exact ⟨offer, settling, signing, first, second, third, secret, by simp, settled, found, read, rfl⟩
  · rintro ⟨offer, settling, signing, first, second, third, secret, rfl, settled, found, read, rfl⟩
    exact ⟨offer, settling, _, List.append_assoc _ _ _, ⟨first, second, settled⟩, _, signing, _, rfl,
      (Engine.gives_sign settled.elliptic).mpr ⟨third, secret, found, read, rfl⟩, (), [_], [], rfl,
      rfl, rfl, rfl⟩

theorem kept_of_respond {response : Response}
    (given : (respond S r request).run.Gives events (.ok response)) {name : String} {pair : KeyPair}
    (member : ⟨.keepPair name pair, .ok ()⟩ ∈ events) :
    ∃ secret, pair = Engine.curvePair S secret := by
  obtain ⟨offer, settling, signing, first, second, third, secret, rfl, settled, found, -, -⟩ :=
    gives_respond.mp given
  obtain ⟨now, ending, drawn, one, two, trace⟩ := settled.trace
  have kept {part : List Event} {used : KeyPair}
      (looked : (Engine.resolve S r.engine request.keyPairId).run.Gives part (.ok used))
      (inside : ⟨.keepPair name pair, .ok ()⟩ ∈ part) : ∃ secret, pair = Engine.curvePair S secret :=
    (Engine.gives_resolve.mp looked).1.kept settled.elliptic inside
  have parts : ⟨.keepPair name pair, .ok ()⟩ ∈ one ∨ ⟨.keepPair name pair, .ok ()⟩ ∈ two ∨
      ⟨.keepPair name pair, .ok ()⟩ ∈ signing := by
    have other : ⟨.keepPair name pair, .ok ()⟩ ∉ reports now request.timestamp :=
      fun reported => nomatch mem_reports reported
    simpa [trace.events, other] using member
  rcases parts with inside | inside | inside
  · exact kept trace.first inside
  · exact kept trace.second inside
  · exact kept found inside

end KeyService.Exchange.Responder
