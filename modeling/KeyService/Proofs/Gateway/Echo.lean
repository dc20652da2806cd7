import KeyService.Proofs.Exchange.Completion
import KeyService.Proofs.Exchange.Usable
import KeyService.Proofs.Gateway.Connection
import KeyService.Proofs.Gateway.Envelope
import KeyService.Proofs.Payload.Posting

/-! An echo comes back as it was sent.
The caller posts a text in its copy of a session. The gateway reads it in its own copy and
posts it once more, under another data key, and the caller reads that. -/
namespace KeyService

open Program (Assures Succeeds)

namespace Exchange

variable {S : Suite} {s : Session}

/-- A session that some responder has settled. -/
def Negotiated (S : Suite) (s : Session) : Prop :=
  ∃ (r : Responder) (request : Request) (events : List Event) (offer : Offer),
    (Responder.settle S r request).run.Gives events (.ok offer) ∧ offer.session = s

theorem Negotiated.equipped (negotiated : Negotiated S s) : ∃ size, Payload.Equipped s size := by
  obtain ⟨r, request, events, offer, given, rfl⟩ := negotiated
  obtain ⟨first, second, settled⟩ := Responder.gives_settle.mp given
  exact settled.equipped

theorem Negotiated.visible (negotiated : Negotiated S s) : Text.Visible s.id := by
  obtain ⟨r, request, events, offer, given, rfl⟩ := negotiated
  obtain ⟨first, second, settled⟩ := Responder.gives_settle.mp given
  obtain ⟨now, ending, drawn, one, two, trace⟩ := settled.trace
  rw [trace.id]
  exact Text.visible_uuid _

end Exchange

namespace Gateway

open Http (Headers Request Response)
open Payload (Equipped Posted Twins During Looks)

variable {S : Suite} {size : Symmetric.KeySize} {served copy : Exchange.Session}
  {key : Payload.DataKey} {text : Bytes} {wrapped payload : String} {r : Request}

theorem echo_succeeds (inverts : S.AesInverts) (equipped : Equipped served size)
    (twins : Twins served copy) (posted : Posted S copy size key text wrapped payload) :
    Succeeds (During served) (echo S served.id wrapped payload) fun reply =>
      ∃ key' wrapped' payload', reply = (wrapped', payload') ∧
        Posted S served size key' text wrapped' payload' := by
  have found : Succeeds (During served) (ofExchange (ExceptT.mk (Program.getSession served.id)))
      (· = served) :=
    Program.succeeds_mapError _ (Program.assures_put fun _ told => ⟨served, told rfl, rfl⟩)
  refine Program.succeeds_bind found ?_
  rintro _ rfl
  refine Payload.timed_succeeds (a := key) (Payload.during_within _) ?_ ?_
  · exact fun now live => posted.unwrap inverts twins.symm equipped live
  refine Payload.timed_succeeds (a := text) (Payload.during_within _) ?_ ?_
  · exact fun now live => posted.decrypt inverts twins.symm live
  exact Payload.post_succeeds (Payload.during_within _) equipped ⟨rfl, rfl, rfl, rfl, rfl⟩

theorem echo_looks (id wrapped payload : String) : (echo S id wrapped payload).run.Asks Looks := by
  have found : (ofExchange (ExceptT.mk (Program.getSession id))).Asks Looks :=
    Program.asks_bind (Program.asks_put trivial) fun _ _ _ => Program.asks_pure _
  refine Program.asks_act_bind found fun _ session _ => ?_
  refine Payload.timed_looks _ fun key => ?_
  refine Payload.timed_looks _ fun text => ?_
  exact Payload.post_looks

theorem contentText_ok (body : r.body = Bytes.ofText payload) (fits : r.body.length ≤ maxContent) :
    contentText r = .ok payload := by
  have whole : content r = .ok (Bytes.ofText payload) := by
    rw [content, if_neg (Nat.not_lt.mpr fits), body]
  simp only [contentText, whole, bind, Except.bind, Utf8.read_ofText]
  rfl

theorem header_ok {name value : String} (found : r.headers.find? name = some (Bytes.ofText value))
    (visible : Text.Visible value) : header r name = .ok value := by
  simp only [header, found, Text.text?_ofText visible]

/-- A request that carries a posted text in a session. -/
structure Carries (r : Request) (id wrapped payload : String) : Prop where
  content : contentText r = .ok payload
  session : header r sessionHeader = .ok id
  dataKey : header r dataKeyHeader = .ok wrapped

theorem secureEcho_assures (inverts : S.AesInverts) (equipped : Equipped served size)
    (twins : Twins served copy) (posted : Posted S copy size key text wrapped payload)
    (carries : Carries r served.id wrapped payload) :
    Assures (During served) (secureEcho S r) fun response => ∃ key' wrapped' payload',
      Posted S served size key' text wrapped' payload' ∧
      response = (success Json.Codec.text payload').withHeader dataKeyHeader wrapped' := by
  simp only [secureEcho, carries.content, carries.session, carries.dataKey]
  refine Program.assures_bind (echo_succeeds inverts equipped twins posted) fun reply done => ?_
  obtain ⟨_, rfl, key', wrapped', payload', rfl, posted'⟩ := done
  exact Program.assures_pure ⟨key', wrapped', payload', posted', rfl⟩

theorem secureEcho_looks (r : Request) : (secureEcho S r).Asks Looks := by
  unfold secureEcho
  split
  · exact Program.asks_pure _
  · split
    · exact Program.asks_pure _
    · exact Program.asks_pure _
    · refine Program.asks_bind (echo_looks _ _ _) fun _ reply _ => ?_
      split <;> exact Program.asks_pure _

/-- The call that carries a posted text. -/
def echoCall (url id wrapped payload : String) : Call where
  method := "POST"
  url := url
  headers := [(sessionHeader, Bytes.ofText id), (dataKeyHeader, Bytes.ofText wrapped)]
  body := Bytes.ofText payload

theorem echoCall_eq (url : String) (s : Exchange.Session) (text : Bytes) :
    Client.echoCall S url s text = Payload.post S s text (echoCall url s.id) := rfl

theorem plain_echoCall (url id wrapped payload : String) :
    Plain (echoCall url id wrapped payload).headers := by
  have session : Text.sameLetters sessionHeader exchangeHeader = false ∧
      Text.sameLetters sessionHeader "accept-encoding" = false := by decide
  have dataKey : Text.sameLetters dataKeyHeader exchangeHeader = false ∧
      Text.sameLetters dataKeyHeader "accept-encoding" = false := by decide
  intro h member
  rcases List.mem_cons.mp member with rfl | member
  · exact session
  · obtain rfl := List.mem_singleton.mp member
    exact dataKey

variable {g : Gateway} {responder : Exchange.Responder} {cipher : LocalText.Cipher}
  {negotiationPath publicKeyPath base : String} {added : Headers}

def echoPath : String := "/secure/echo"

theorem addressed_echoPath : Addressed echoPath :=
  addressed_of_rooted (by decide) (by decide) (by decide) (by decide)

/-- The request that a call with a posted text becomes. -/
def echoRequest (base : String) (added : Headers) (id wrapped payload : String) : Request :=
  delivered (echoCall (base ++ echoPath) id wrapped payload) ⟨echoPath, none⟩ added

theorem connection_echo
    (built : ofPaths responder cipher negotiationPath publicKeyPath = .ok g) (plain : Plain added)
    (id wrapped payload : String) :
    connection S g base added (echoCall (base ++ echoPath) id wrapped payload) = (do
      return .ok (← secureEcho S (echoRequest base added id wrapped payload))) := by
  have planned : (echoPath, Route.secureEcho) ∈ Router.plan negotiationPath publicKeyPath := by
    simp [Router.plan, echoPath]
  have own := plain_echoCall (base ++ echoPath) id wrapped payload
  rw [connection_of_route built planned addressed_echoPath plain rfl
    (List.mem_singleton_self _) own.uncoded (.inl own.unmarked)]
  simp only [serve, bind_assoc, pure_bind]
  rfl

theorem carries_echoRequest {id : String} (visible : Text.Visible id)
    (posted : Posted S served size key text wrapped payload)
    (fits : Payload.postedLength text ≤ maxContent) :
    Carries (echoRequest base added id wrapped payload) id wrapped payload := by
  have others : Text.sameLetters sessionHeader dataKeyHeader = false := by decide
  have same : Text.sameLetters sessionHeader sessionHeader = true ∧
      Text.sameLetters dataKeyHeader dataKeyHeader = true := by decide
  refine ⟨contentText_ok rfl ?_, header_ok ?_ visible, header_ok ?_ posted.visible.1⟩
  · exact posted.length.trans_le fits
  · simp [echoRequest, delivered, echoCall, Headers.find?, same]
  · simp [echoRequest, delivered, echoCall, Headers.find?, same, others]

theorem readEcho_success (visible : Text.Visible wrapped) (payload : String) :
    Client.readEcho ((success Json.Codec.text payload).withHeader dataKeyHeader wrapped) =
      .ok (payload, wrapped) := by
  have parsed := parse_body_success Json.Codec.text_lossless payload
  have own : Text.sameLetters "content-type" dataKeyHeader = false ∧
      Text.sameLetters dataKeyHeader dataKeyHeader = true := by decide
  have named : ((success Json.Codec.text payload).withHeader dataKeyHeader wrapped).headers.find?
      dataKeyHeader = some (Bytes.ofText wrapped) := by
    simp [success, envelope, Response.ofText, Response.withHeader, Headers.find?, own]
  have isSuccess : (Envelope.success payload).isSuccess = true := rfl
  simp only [Client.readEcho, body_withHeader, parsed, isSuccess, if_true, named, Option.bind_some,
    Text.text?_ofText visible]
  rfl

theorem client_succeeds (inverts : S.AesInverts)
    (built : ofPaths responder cipher negotiationPath publicKeyPath = .ok g) (plain : Plain added)
    (equipped : Equipped served size) (visible : Text.Visible served.id) (twins : Twins served copy)
    (fits : Payload.postedLength text ≤ maxContent) :
    Succeeds (During served)
      (Client.secureEcho S (connection S g base added) (base ++ echoPath) copy text) (· = text) := by
  unfold Client.secureEcho
  rw [echoCall_eq]
  refine Program.succeeds_bind (Program.succeeds_adapt _
    (Payload.post_succeeds (Payload.during_within _) (twins.equipped equipped) twins)) ?_
  rintro _ ⟨key, wrapped, payload, rfl, posted⟩
  rw [connection_echo built plain]
  have carries : Carries (echoRequest base added served.id wrapped payload) served.id wrapped
      payload := carries_echoRequest visible posted fits
  rw [twins.id]
  have answered : Assures (During served) (do
      return Except.ok (← secureEcho S (echoRequest base added served.id wrapped payload)) :
        Program (Except String Response)) fun told => ∃ key' wrapped' payload',
      Posted S served size key' text wrapped' payload' ∧ told =
        .ok ((success Json.Codec.text payload').withHeader dataKeyHeader wrapped') := by
    refine Program.assures_bind (secureEcho_assures inverts equipped twins posted carries) ?_
    rintro _ ⟨key', wrapped', payload', posted', rfl⟩
    exact Program.assures_pure ⟨key', wrapped', payload', posted', rfl⟩
  refine Program.succeeds_bind (Program.succeeds_program answered) ?_
  rintro _ ⟨key', wrapped', payload', posted', rfl⟩
  refine Program.succeeds_except_bind (readEcho_success posted'.visible.1 payload') ?_
  refine Payload.timed_succeeds (a := key') (Payload.during_within _) ?_ ?_
  · intro now live
    exact Attempt.mapError_ok.mpr
      (posted'.unwrap inverts twins (twins.equipped equipped) (twins.live live))
  refine Program.succeeds_bind (Program.succeeds_program (Payload.assures_time (Payload.during_within _))) fun now live => ?_
  have decrypted := posted'.decrypt inverts twins (twins.live live)
  exact Program.succeeds_except (Attempt.mapError_ok.mpr decrypted) rfl

theorem client_looks
    (built : ofPaths responder cipher negotiationPath publicKeyPath = .ok g) (plain : Plain added) :
    (Client.secureEcho S (connection S g base added) (base ++ echoPath) copy text).run.Asks
      Looks := by
  unfold Client.secureEcho
  rw [echoCall_eq]
  refine Program.asks_act_bind (Program.asks_adapt _ Payload.post_looks) fun events call given => ?_
  obtain ⟨wrapped, payload, rfl⟩ := Payload.made_of_post (Program.gives_adapt_ok.mp given)
  rw [connection_echo built plain]
  have answered := Program.asks_bind (secureEcho_looks (S := S) (echoRequest base added copy.id wrapped payload))
    fun _ response _ => Program.asks_pure (Except.ok response : Except String Response)
  refine Program.asks_act_bind (Program.asks_program answered) fun _ told _ => ?_
  split
  · exact Program.asks_pure _
  · refine Program.asks_act_bind (Program.asks_except _) fun _ reply _ => ?_
    refine Payload.timed_looks _ fun key => ?_
    refine Program.asks_act_bind (Program.asks_program (Program.asks_put trivial)) fun _ now _ => ?_
    exact Program.asks_except _

end Gateway

namespace Exchange.Host

open Payload (During Looks)

variable {σ : Type} {B : KeyPair.Backend σ} {c : Chance} {h h' : Host σ} {events : List Event}
  {s : Session}

theorem look_step {question : Question} {answer : question.Answer} (looks : Looks question)
    (told : (alone B c).answer question h = (answer, h')) : h' = h.tick ∧
      ∀ s : Session, h.sessions.find? s.id = some s → s.isExpired (c.clock h.ticks) = false →
        During s ⟨question, answer⟩ := by
  rw [alone, Surroundings.answer_ofAnswers] at told
  cases question with
  | now =>
    obtain ⟨rfl, rfl⟩ := Prod.mk.inj told
    exact ⟨rfl, fun s _ live => live⟩
  | random count =>
    obtain ⟨rfl, rfl⟩ := Prod.mk.inj told
    exact ⟨rfl, fun s _ _ => trivial⟩
  | findSession id =>
    obtain ⟨rfl, rfl⟩ := Prod.mk.inj told
    refine ⟨rfl, fun s there live same => ?_⟩
    rw [same, SessionStore.get, there]
    simp only [live, Bool.false_eq_true, if_false]
  | _ => exact looks.elim

theorem ticks_le (answers : (alone B c).Answers h events h') (looks : ∀ e ∈ events, Looks e.1) :
    h.ticks ≤ h'.ticks := by
  refine answers.keeps (h.ticks ≤ ·.ticks) (fun e member s s' told early => ?_) (Nat.le_refl _)
  obtain ⟨rfl, -⟩ := look_step (looks e member) told
  exact Nat.le_succ_of_le early

/-- A host that has a session shows it to those who look, for as long as it lives. -/
theorem during_of_looks (answers : (alone B c).Answers h events h')
    (looks : ∀ e ∈ events, Looks e.1) (there : h.sessions.find? s.id = some s)
    (live : ∀ n, h.ticks ≤ n → n < h'.ticks → s.isExpired (c.clock n) = false) :
    ∀ e ∈ events, During s e := by
  induction answers with
  | nil => exact fun _ member => absurd member List.not_mem_nil
  | @cons h h₁ h' question answer events told rest ih =>
    have others : ∀ e ∈ events, Looks e.1 := fun e member => looks e (List.mem_cons_of_mem _ member)
    obtain ⟨rfl, shown⟩ := look_step (looks _ List.mem_cons_self) told
    have before : h.ticks < h'.ticks := ticks_le rest others
    intro e member
    rcases List.mem_cons.mp member with rfl | member
    · exact shown s there (live _ (Nat.le_refl _) before)
    · exact ih others there (fun n after => live n (Nat.le_of_lt after)) e member

end Exchange.Host

namespace Gateway

open Exchange (Host Negotiated)
open Http (Headers)
open Payload (Twins)

variable {S : Suite} {σ : Type} {B : KeyPair.Backend σ} {c : Exchange.Chance} {h h' : Host σ}
  {g : Gateway} {responder : Exchange.Responder} {cipher : LocalText.Cipher}
  {negotiationPath publicKeyPath base : String} {added : Headers}
  {served copy : Exchange.Session} {text : Bytes}

/-- Let a gateway have a session that was negotiated, and let a caller have the other copy of it.
Whatever random bytes both of them draw, and whatever times their clocks show before the session is
over, the caller who asks for an echo is given its own text, if the gateway takes as much at once. -/
theorem echo_over_http (inverts : S.AesInverts)
    (built : ofPaths responder cipher negotiationPath publicKeyPath = .ok g) (plain : Plain added)
    (negotiated : Negotiated S served) (there : h.sessions.find? served.id = some served)
    (twins : Twins served copy) (fits : Payload.postedLength text ≤ maxContent)
    {result : Except Client.EchoError Bytes}
    (ran : (Client.secureEcho S (connection S g base added) (base ++ echoPath) copy text).run.run
      (Host.alone B c) h = (result, h'))
    (live : ∀ n, h.ticks ≤ n → n < h'.ticks → served.isExpired (c.clock n) = false) :
    result = .ok text := by
  obtain ⟨size, equipped⟩ := negotiated.equipped
  obtain ⟨events, given, answers⟩ := Program.gives_of_run (w := Host.alone B c)
    (Client.secureEcho S (connection S g base added) (base ++ echoPath) copy text).run h
  rw [ran] at given answers
  have looks := (client_looks built plain).gives given
  have during := Host.during_of_looks answers looks there live
  obtain ⟨_, rfl, rfl⟩ :=
    client_succeeds inverts built plain equipped negotiated.visible twins fits events _ given during
  rfl

open Exchange.Small (chance pair drawn)

/-- A session that both sides have after an exchange, and a text that no characters are written as. -/
theorem echo_over_http_small : ∃ (g : Gateway) (p : Exchange.Pending Suite.small)
    (offer : Exchange.Offer) (signature : Bytes) (copy : Exchange.Session)
    (h h' : Host (Table String KeyPair)),
    ofPaths Exchange.Small.responder (.ofSchemes "app" [] (LocalText.Scheme.standard Suite.small))
      "/exchange" "/key" = .ok g ∧
    Negotiated Suite.small offer.session ∧
    h.sessions.find? offer.session.id = some offer.session ∧
    Exchange.Initiator.accept Suite.small p (offer.answer p.request signature) = .ok copy ∧
    (Client.secureEcho Suite.small (connection Suite.small g "http://gateway" [])
      ("http://gateway" ++ echoPath) copy [0xFF, 0x00]).run.run
        (Host.alone KeyPair.Backend.memory chance) h = (.ok [0xFF, 0x00], h') := by
  obtain ⟨g, built⟩ := ofPaths_small Exchange.Small.responder
    (.ofSchemes "app" [] (LocalText.Scheme.standard Suite.small))
  obtain ⟨p, made, prepared⟩ := Exchange.Small.prepared 3
  let offer := Exchange.Initiator.Prepared.offer Exchange.Small.responder p (pair 3) drawn 0
  have halves := Exchange.Small.halves 3
  have settled := prepared.settled_of_found Suite.small_symmetric Suite.small_readsPublic rfl rfl
    halves rfl (Exchange.Small.timely made) drawn 0
  have negotiated : Negotiated Suite.small offer.session :=
    ⟨_, _, _, offer, Exchange.Responder.gives_settle.mpr ⟨_, _, settled⟩, rfl⟩
  have accepted := prepared.accept_answer Suite.small_verifies halves offer rfl rfl
  let h : Host (Table String KeyPair) :=
    ⟨0, .empty, Table.empty.insert offer.session.id offer.session⟩
  have there : h.sessions.find? offer.session.id = some offer.session := by
    simp only [h, Table.find?_insert, if_true]
  have ending : decide (Exchange.later 0 (Exchange.millis 3600) < 0) = false := by decide
  have live (n : Nat) : offer.session.isExpired (chance.clock n) = false := ending
  have plain : Plain [] := fun _ member => absurd member List.not_mem_nil
  refine ⟨g, p, offer, _, _, h, _, built, negotiated, there, accepted, Prod.ext ?_ rfl⟩
  exact echo_over_http (fun _ _ _ _ => rfl) built plain negotiated there
    ⟨rfl, rfl, rfl, rfl, rfl⟩ (by decide) Prod.mk.eta.symm fun n _ _ => live n

end Gateway

end KeyService
