import KeyService.Proofs.Gateway.Exchange
import KeyService.Proofs.Gateway.Handlers
import KeyService.Proofs.Gateway.Stores

/-! A gateway through many requests.
Requests are served one after the other, over stores that nobody else writes to. Each is an
interval of the run: what was kept before it is there after it, and so are the keys that the
local cipher has loaded. -/
namespace KeyService.Gateway

open Exchange (SessionStore)
open Http (Request Response)

variable {σ : Type}

/-- A request, with the gateway and its stores before and after it. -/
structure Visit (σ : Type) where
  request : Request
  before : Gateway
  stores : Stores σ
  events : List Event
  response : Response
  after : Gateway
  left : Stores σ

namespace Visit

def route? (v : Visit σ) : Option Route := v.before.dispatch? v.request

/-- A visit goes as the gateway and its stores say. -/
structure Happens (S : Suite) (B : KeyPair.Backend σ) (v : Visit σ) : Prop where
  gives : (handle S v.before v.request).Gives v.events (v.response, v.after)
  steps : Steps (Stores.Step B) () v.stores v.events v.left

/-- An exchange succeeds on a visit: it goes where exchanges are accepted, its body reads as a
request, and the responder answers it. -/
structure Exchanges (S : Suite) (v : Visit σ) (request : Exchange.Request)
    (response : Exchange.Response) : Prop where
  reached : v.route? = some .negotiate
  read : contentJson Exchange.Request.codec v.request = .ok request
  responded : (v.before.responder.respond S request).run.Gives v.events (.ok response)

/-- The session of a response is added: it is the only one that was kept, it is new, and of the others
those have gone that were over at the time. -/
structure Adds (v : Visit σ) (response : Exchange.Response) (session : Exchange.Session) : Prop where
  kept : SessionStore.kept v.events = [session]
  named : session.id = response.sessionId
  ends : session.expireTime = response.expireTime
  new : v.stores.sessions.find? session.id = none
  entries : v.left.sessions.entries = (session.id, session) ::
    v.stores.sessions.entries.filter fun e => !e.2.isExpired v.left.now

/-- An answer tells that a public key is the one under an id: it was asked for, or it is part of an
exchange with the pair of this id. -/
inductive Tells (v : Visit σ) : (id text : String) → Prop where
  | publicKey {id : Option String} {text : String} : v.route? = some .publicKey →
      namedPair v.request = .ok id → v.response.status = 200 →
      v.response.body = (success Json.Codec.text text).body →
      Tells v (id.getD v.before.engine.defaultId) text
  | exchange {request : Exchange.Request} {response : Exchange.Response} :
      v.route? = some .negotiate → contentJson Exchange.Request.codec v.request = .ok request →
      v.response.status = 200 →
      v.response.body = (success Exchange.Response.codec response).body →
      Tells v (request.keyPairId.getD v.before.engine.defaultId) response.publicKey

structure Healthy (v : Visit σ) : Prop where
  reached : v.route? = some .health
  status : v.response.status = 200

end Visit

/-- A visit goes on from a gateway and its stores, and leaves them to the next one. -/
inductive Visit.Passes (S : Suite) (B : KeyPair.Backend σ) :
    Gateway × Stores σ → Unit → Visit σ → Gateway × Stores σ → Prop where
  | mk {v : Visit σ} : v.Happens S B → Passes S B (v.before, v.stores) () v (v.after, v.left)

/-- Visits one after the other, from a gateway and its stores to what becomes of them. -/
abbrev Day (S : Suite) (B : KeyPair.Backend σ) :
    Gateway × Stores σ → List (Visit σ) → Gateway × Stores σ → Prop := Steps (Visit.Passes S B) ()

/-- No session that is kept has the id of another one, or of one that was there at first. -/
structure Fresh (t : SessionStore) (visits : List (Visit σ)) : Prop where
  distinct : ((SessionStore.kept (visits.flatMap Visit.events)).map Exchange.Session.id).Nodup
  unused : ∀ session ∈ SessionStore.kept (visits.flatMap Visit.events),
    t.find? session.id = none

/-- What is so on every day. -/
structure Framed (S : Suite) (B : KeyPair.Backend σ) (visits : List (Visit σ)) : Prop where
  added : ∀ v ∈ visits, ∀ request response, v.Exchanges S request response →
    ∃ session, v.Adds response session
  idle : ∀ v ∈ visits, (¬ ∃ request response, v.Exchanges S request response) →
    v.left.sessions = v.stores.sessions
  pairs : ∀ v ∈ visits, ∀ id pair, B.find v.stores.pairs id = .ok pair →
    B.find v.left.pairs id = .ok pair
  keys : ∀ v ∈ visits, v.before.cipher.Stays v.after.cipher
  told : ∀ v ∈ visits, ∀ v' ∈ visits, ∀ id text text', v.Tells id text → v'.Tells id text' →
    text = text'
  health : ∀ earlier v later, visits = earlier ++ v :: later → v.Healthy →
    ∀ v' ∈ later, v'.route? = some .health → v'.Healthy

variable {S : Suite} {B : KeyPair.Backend σ} {valid : σ → Prop} {v : Visit σ}
  {visits : List (Visit σ)} {x y : Gateway × Stores σ} {route : Route}

namespace Visit.Happens

theorem served (happens : v.Happens S B) (reached : v.route? = some route) :
    ∃ inner, (serve S v.before v.request route).Gives v.events (inner, v.after) ∧
      presented v.request inner = v.response := (gives_handle reached).mp happens.gives

theorem unserved (happens : v.Happens S B) (unreached : v.route? = none) :
    v.events = [] ∧ v.after = v.before := by
  obtain ⟨response, same⟩ := handle_of_undispatched (S := S) unreached
  have given := happens.gives
  rw [same] at given
  obtain ⟨none, answered⟩ := Program.gives_pure.mp given
  exact ⟨none, (Prod.mk.inj answered).2.symm⟩

theorem lasts (happens : v.Happens S B) : Lasts v.before v.after := handle_lasts happens.gives

theorem spares (isMap : B.IsMap valid) (happens : v.Happens S B) (quiet : Quiet v.before)
    (inside : valid v.stores.pairs) : Stores.Spares B valid v.stores v.events v.left := by
  have free : Stores.Free B [] v.stores := fun _ member => absurd member List.not_mem_nil
  cases reached : v.route? with
  | none =>
    have given : (pure () : Program Unit).Gives v.events () :=
      Program.gives_pure.mpr ⟨(happens.unserved reached).1, rfl⟩
    have careful : (pure () : Program Unit).Careful (fun _ => True) [] := Program.careful_pure _
    exact Stores.spares_of_careful isMap careful given happens.steps inside free
  | some route =>
    obtain ⟨inner, served, -⟩ := happens.served reached
    exact Stores.spares_of_careful isMap (serve_careful quiet _ route) served happens.steps inside
      free

theorem told (isMap : B.IsMap valid) (happens : v.Happens S B) (quiet : Quiet v.before)
    (inside : valid v.stores.pairs) {id text : String} (tells : v.Tells id text) :
    ∃ pair, B.find v.left.pairs id = .ok pair ∧ pair.publicKey = text := by
  have spares := happens.spares isMap quiet inside
  cases tells with
  | publicKey reached named status body =>
    obtain ⟨inner, served, answered⟩ := happens.served reached
    rw [← answered] at status body
    obtain ⟨pair, sees, same⟩ := publicKey_told served named status body
    exact ⟨pair, spares.there _ pair sees, same⟩
  | exchange reached read status body =>
    obtain ⟨inner, served, answered⟩ := happens.served reached
    rw [← answered] at status body
    obtain ⟨pair, sees, same⟩ := negotiate_told served read status body
    exact ⟨pair, spares.there _ pair sees, same⟩

theorem healthy_iff (happens : v.Happens S B) (reached : v.route? = some .health) :
    v.Healthy ↔ v.before.cipher.isReady = true ∧
      ∃ pair, B.find v.stores.pairs v.before.engine.defaultId = .ok pair := by
  obtain ⟨inner, served, answered⟩ := happens.served reached
  obtain ⟨found, count, events, ok⟩ := health_ok served
  have steps := happens.steps
  rw [events] at steps
  have looked : B.find v.stores.pairs v.before.engine.defaultId = found := by
    cases steps with
    | cons step _ => exact step.looked
  rw [looked, ← ok, ← status_presented v.request, answered]
  exact ⟨fun healthy => healthy.status, fun status => ⟨reached, status⟩⟩

theorem exchanged (happens : v.Happens S B) {request : Exchange.Request}
    {response : Exchange.Response} (exchanges : v.Exchanges S request response) :
    ∃ session, SessionStore.kept v.events = [session] ∧ session.id = response.sessionId ∧
      session.expireTime = response.expireTime ∧
      v.left.sessions = v.stores.sessions.keep v.left.now session := by
  obtain ⟨before, session, events, none, named, ends⟩ :=
    Exchange.Responder.keeps_last exchanges.responded
  have steps := happens.steps
  rw [events] at steps
  refine ⟨session, ?_, named, ends, Stores.sessions_keep steps none⟩
  rw [events, SessionStore.kept_append, none]
  rfl

theorem unexchanged (happens : v.Happens S B) (quiet : Quiet v.before)
    (none : ¬ ∃ request response, v.Exchanges S request response) :
    SessionStore.kept v.events = [] := by
  cases reached : v.route? with
  | none =>
    rw [(happens.unserved reached).1]
    rfl
  | some route =>
    obtain ⟨inner, served, -⟩ := happens.served reached
    by_cases other : route = .negotiate
    · subst other
      cases read : contentJson Exchange.Request.codec v.request with
      | error u =>
        rw [gives_negotiate_unread served read]
        rfl
      | ok request =>
        obtain ⟨⟨result, responded, -⟩, -⟩ := (gives_serve_negotiate read).mp served
        cases result with
        | error cause => exact Exchange.Responder.kept_of_failed responded
        | ok response => exact absurd ⟨request, response, reached, read, responded⟩ none
    · have careful := serve_careful_of_other (S := S) quiet v.request other
      exact Exchange.Responder.kept_of_sessionless careful.asks served

theorem idle (happens : v.Happens S B) (quiet : Quiet v.before)
    (none : ¬ ∃ request response, v.Exchanges S request response) :
    v.left.sessions = v.stores.sessions :=
  Stores.sessions_eq happens.steps (happens.unexchanged quiet none)

end Visit.Happens

/-- What a gateway and its stores have, they have later. -/
structure Later (B : KeyPair.Backend σ) (g : Gateway) (s : Stores σ) (g' : Gateway)
    (s' : Stores σ) : Prop where
  gateway : Lasts g g'
  pairs : ∀ id pair, B.find s.pairs id = .ok pair → B.find s'.pairs id = .ok pair

namespace Day

theorem split {earlier later : List (Visit σ)} (day : Day S B x (earlier ++ v :: later) y) :
    Day S B x earlier (v.before, v.stores) ∧ v.Happens S B ∧
      Day S B (v.after, v.left) later y := by
  obtain ⟨_, _, before, ⟨happens⟩, after⟩ := Steps.split day
  exact ⟨before, happens, after⟩

theorem lasts (isMap : B.IsMap valid) (day : Day S B x visits y) (quiet : Quiet x.1)
    (inside : valid x.2.pairs) : Quiet y.1 ∧ valid y.2.pairs ∧ Later B x.1 x.2 y.1 y.2 := by
  refine Steps.keeps (fun z => Quiet z.1 ∧ valid z.2.pairs ∧ Later B x.1 x.2 z.1 z.2) day ?_
    ⟨quiet, inside, .refl _, fun _ _ there => there⟩
  rintro v - _ _ ⟨happens⟩ ⟨quiet', inside', early⟩
  have spares := happens.spares isMap quiet' inside'
  refine ⟨happens.lasts.quiet quiet', spares.valid, early.gateway.trans happens.lasts, ?_⟩
  exact fun id pair there => spares.stays id pair (early.pairs id pair there)

theorem unused (isMap : B.IsMap valid) (day : Day S B x visits y) (quiet : Quiet x.1)
    (inside : valid x.2.pairs) {id : String} (absent : x.2.sessions.find? id = none)
    (other : id ∉ (SessionStore.kept (visits.flatMap Visit.events)).map Exchange.Session.id) :
    y.2.sessions.find? id = none := by
  induction day with
  | nil => exact absent
  | @cons x _ y v rest passes _ ih =>
    obtain ⟨happens⟩ := passes
    rw [List.flatMap_cons, SessionStore.kept_append, List.map_append, List.mem_append] at other
    obtain ⟨first, others⟩ := not_or.mp other
    have spares := happens.spares isMap quiet inside
    refine ih (happens.lasts.quiet quiet) spares.valid ?_ others
    by_cases exchanged : ∃ request response, v.Exchanges S request response
    · obtain ⟨request, response, exchanges⟩ := exchanged
      obtain ⟨session, kept, -, -, keeps⟩ := happens.exchanged exchanges
      rw [keeps]
      refine SessionStore.find?_keep_of_ne ?_ absent _
      rintro rfl
      exact first (by simp [kept])
    · rw [happens.idle quiet exchanged]
      exact absent

variable (isMap : B.IsMap valid) (day : Day S B x visits y) (quiet : Quiet x.1)
  (inside : valid x.2.pairs)

include isMap day quiet inside

theorem adds (fresh : Fresh x.2.sessions visits) (member : v ∈ visits)
    {request : Exchange.Request} {response : Exchange.Response}
    (exchanges : v.Exchanges S request response) : ∃ session, v.Adds response session := by
  obtain ⟨earlier, later, rfl⟩ := List.append_of_mem member
  obtain ⟨before, happens, -⟩ := day.split
  obtain ⟨session, kept, named, ends, keeps⟩ := happens.exchanged exchanges
  have all : SessionStore.kept ((earlier ++ v :: later).flatMap Visit.events) =
      SessionStore.kept (earlier.flatMap Visit.events) ++
        session :: SessionStore.kept (later.flatMap Visit.events) := by
    rw [List.flatMap_append, List.flatMap_cons, SessionStore.kept_append, SessionStore.kept_append,
      kept]
    rfl
  obtain ⟨distinct, absent⟩ := fresh
  rw [all] at distinct absent
  have other : session.id ∉
      (SessionStore.kept (earlier.flatMap Visit.events)).map Exchange.Session.id := by
    rw [List.map_append, List.map_cons] at distinct
    exact fun again => (List.nodup_append.mp distinct).2.2 _ again _ List.mem_cons_self rfl
  have new := before.unused isMap quiet inside (absent session (by simp)) other
  refine ⟨session, kept, named, ends, new, ?_⟩
  rw [keeps, SessionStore.entries_keep_of_new new]

theorem visited (member : v ∈ visits) : v.Happens S B ∧ Quiet v.before ∧ valid v.stores.pairs ∧
    Later B v.after v.left y.1 y.2 := by
  obtain ⟨earlier, later, rfl⟩ := List.append_of_mem member
  obtain ⟨before, happens, after⟩ := day.split
  obtain ⟨quiet', inside', -⟩ := before.lasts isMap quiet inside
  have spares := happens.spares isMap quiet' inside'
  obtain ⟨-, -, rest⟩ := after.lasts isMap (happens.lasts.quiet quiet') spares.valid
  exact ⟨happens, quiet', inside', rest⟩

theorem told (member : v ∈ visits) {id text : String} (tells : v.Tells id text) :
    ∃ pair, B.find y.2.pairs id = .ok pair ∧ pair.publicKey = text := by
  obtain ⟨happens, quiet', inside', rest⟩ := day.visited isMap quiet inside member
  obtain ⟨pair, there, same⟩ := happens.told isMap quiet' inside' tells
  exact ⟨pair, rest.pairs id pair there, same⟩

theorem healthy {earlier later : List (Visit σ)} (cut : visits = earlier ++ v :: later)
    (healthy : v.Healthy) {v' : Visit σ} (member : v' ∈ later) (reached : v'.route? = some .health) :
    v'.Healthy := by
  subst cut
  obtain ⟨before, happens, after⟩ := day.split
  obtain ⟨quiet₁, inside₁, -⟩ := before.lasts isMap quiet inside
  obtain ⟨ready, pair, there⟩ := (happens.healthy_iff healthy.reached).mp healthy
  have spares := happens.spares isMap quiet₁ inside₁
  have quiet₂ := happens.lasts.quiet quiet₁
  obtain ⟨between, rest, rfl⟩ := List.append_of_mem member
  obtain ⟨before', happens', -⟩ := after.split
  obtain ⟨-, -, meanwhile⟩ := before'.lasts isMap quiet₂ spares.valid
  have all := happens.lasts.trans meanwhile.gateway
  refine (happens'.healthy_iff reached).mpr ⟨all.cipher.isReady ready, pair, ?_⟩
  rw [all.engine]
  exact meanwhile.pairs _ pair (spares.stays _ pair there)

/-- On every day, whatever is requested and in whatever order: where an exchange succeeds its session
is added and those that are over go, and nowhere else do the sessions change. No pair is ever
replaced or taken away, and no key that is loaded. So all that is told of a public key is the same,
and a gateway that was well once is well from then on. -/
theorem framed (fresh : Fresh x.2.sessions visits) : Framed S B visits where
  added v member request response exchanges := day.adds isMap quiet inside fresh member exchanges
  idle v member none := by
    obtain ⟨happens, quiet', -⟩ := day.visited isMap quiet inside member
    exact happens.idle quiet' none
  pairs v member id pair there := by
    obtain ⟨happens, quiet', inside', -⟩ := day.visited isMap quiet inside member
    exact (happens.spares isMap quiet' inside').stays id pair there
  keys v member := by
    obtain ⟨happens, -⟩ := day.visited isMap quiet inside member
    exact happens.lasts.cipher
  told v member v' member' id text text' tells tells' := by
    obtain ⟨pair, there, same⟩ := day.told isMap quiet inside member tells
    obtain ⟨pair', there', same'⟩ := day.told isMap quiet inside member' tells'
    obtain rfl := Except.ok.inj (there.symm.trans there')
    exact same.symm.trans same'
  health earlier v later cut healthy v' member reached :=
    day.healthy isMap quiet inside cut healthy member reached

end Day

end KeyService.Gateway

namespace KeyService

namespace Exchange.Host

variable {σ ι : Type} {B : KeyPair.Backend σ} {c : Chance} {h h' : Host σ} {events : List Event}

def stores (h : Host σ) (now : Int64) : Stores σ := ⟨now, h.pairs, h.sessions⟩

theorem step_of_answer {question : Question} {answer : question.Answer}
    (told : (alone B c).answer question h = (answer, h')) (now : Int64) (i : ι) :
    ∃ later, Stores.Step B (h.stores now) i ⟨question, answer⟩ (h'.stores later) := by
  rw [alone, Surroundings.answer_ofAnswers] at told
  cases question with
  | keepPair id pair =>
    simp only [Host.answer] at told
    split at told
    · rename_i pairs kept
      obtain ⟨rfl, rfl⟩ := Prod.mk.inj told
      exact ⟨now, .keepPair now kept⟩
    · rename_i cause failed
      obtain ⟨rfl, rfl⟩ := Prod.mk.inj told
      exact ⟨now, .refusePair now failed⟩
  | now =>
    obtain ⟨rfl, rfl⟩ := Prod.mk.inj told
    exact ⟨_, .time _ i _⟩
  | findPair id =>
    obtain ⟨rfl, rfl⟩ := Prod.mk.inj told
    exact ⟨now, .findPair _ i now id⟩
  | findSession id =>
    obtain ⟨rfl, rfl⟩ := Prod.mk.inj told
    exact ⟨_, .findSession _ i _ id⟩
  | keepSession session =>
    obtain ⟨rfl, rfl⟩ := Prod.mk.inj told
    exact ⟨_, .keepSession _ i _ session⟩
  | countSessions =>
    obtain ⟨rfl, rfl⟩ := Prod.mk.inj told
    exact ⟨now, .countSessions _ i now⟩
  | _ =>
    obtain ⟨rfl, rfl⟩ := Prod.mk.inj told
    exact ⟨now, .other now trivial⟩

theorem steps_of_answers (answers : (alone B c).Answers h events h') (now : Int64) (i : ι) :
    ∃ later, Steps (Stores.Step B) i (h.stores now) events (h'.stores later) := by
  induction answers generalizing now with
  | nil h => exact ⟨now, .nil _⟩
  | cons told _ ih =>
    obtain ⟨between, step⟩ := step_of_answer told now i
    obtain ⟨later, steps⟩ := ih between
    exact ⟨later, .cons step steps⟩

end Exchange.Host

namespace Gateway

open Exchange (Host)

variable {S : Suite} {σ : Type}

/-- Whatever is requested of a gateway on a host, the host can serve it all. -/
theorem exists_day (B : KeyPair.Backend σ) (c : Exchange.Chance) (requests : List Http.Request)
    (g : Gateway) (h : Host σ) (now : Int64) : ∃ visits y,
      visits.map Visit.request = requests ∧ Day S B (g, h.stores now) visits y := by
  induction requests generalizing g h now with
  | nil => exact ⟨[], _, rfl, .nil _⟩
  | cons r requests ih =>
    obtain ⟨events, given, answers⟩ := Program.gives_of_run (w := Host.alone B c) (handle S g r) h
    generalize (handle S g r).run (Host.alone B c) h = ended at given answers
    obtain ⟨⟨response, after⟩, left⟩ := ended
    obtain ⟨later, steps⟩ := Host.steps_of_answers answers now ()
    obtain ⟨visits, y, same, day⟩ := ih after left later
    let v : Visit σ := ⟨r, g, h.stores now, events, response, after, left.stores later⟩
    have happens : v.Happens S B := ⟨given, steps⟩
    exact ⟨v :: visits, y, by rw [List.map_cons, same], .cons ⟨happens⟩ day⟩

section

open Exchange.Small (chance pair)
open KeyPair.Backend (memory)

variable {g : Gateway} (built : ofPaths Exchange.Small.responder
  (.ofSchemes "app" [] (LocalText.Scheme.standard Suite.small)) "/exchange" "/key" = .ok g)

include built

theorem parts_small : g.responder = Exchange.Small.responder ∧
    g.cipher = .ofSchemes "app" [] (LocalText.Scheme.standard Suite.small) := by
  obtain ⟨router, -, rfl⟩ := ofPaths_ok.mp built
  exact ⟨rfl, rfl⟩

theorem exchange_small : ∃ (v : Visit (Table String KeyPair)) (request : Exchange.Request)
    (response : Exchange.Response), v.before = g ∧ v.after = g ∧ v.Happens Suite.small memory ∧
    v.Exchanges Suite.small request response ∧ v.Tells "default" response.publicKey ∧
    v.stores.sessions = .empty ∧ v.left.pairs = Exchange.Small.stocked (pair 3) := by
  obtain ⟨p, made, prepared⟩ := Exchange.Small.prepared 3
  let h : Host (Table String KeyPair) := ⟨0, Exchange.Small.stocked (pair 3), .empty⟩
  obtain ⟨response, stored, -, responded, -⟩ := Host.respond_there (h := h) (c := chance)
    Suite.small_symmetric Suite.small_readsPublic Suite.small_verifies prepared rfl rfl
    (Exchange.Small.find_stocked (pair 3)) rfl ⟨_, Exchange.Small.halves 3⟩
    (Exchange.Small.timely made)
  let r : Http.Request :=
    delivered (Client.exchangeCall "/exchange" p.request) ⟨"/exchange", none⟩ []
  have reached : g.dispatch? r = some .negotiate := dispatch?_of_planned built
    (List.mem_cons_self ..) addressed_exchange.literal.starless (List.mem_singleton_self _) (.inr rfl)
  have read : contentJson Exchange.Request.codec r = .ok p.request :=
    contentJson_exchangeCall (fits_small made prepared)
  obtain ⟨events, given, answers⟩ := Program.gives_of_run (w := Host.alone memory chance)
    (Exchange.Responder.respond Suite.small Exchange.Small.responder p.request).run h
  rw [responded] at given answers
  rw [← (parts_small built).1] at given
  obtain ⟨later, steps⟩ := Host.steps_of_answers answers 0 ()
  have served : (serve Suite.small g r .negotiate).Gives events
      (answer Exchange.Response.codec (.ok response), g) :=
    (gives_serve_negotiate read).mpr ⟨⟨_, given, rfl⟩, rfl⟩
  have notHead : "POST" ≠ "HEAD" := by decide
  have sent := presented_of_plain (r := r) rfl notHead
    (answer Exchange.Response.codec (.ok response))
  let v : Visit (Table String KeyPair) :=
    ⟨r, g, h.stores 0, events, answer Exchange.Response.codec (.ok response), g,
      (h.tick.tick.tick.keep chance stored).stores later⟩
  have tells : v.Tells (p.request.keyPairId.getD g.engine.defaultId) response.publicKey :=
    .exchange reached read rfl rfl
  have name : p.request.keyPairId.getD g.engine.defaultId = "default" := by
    rw [prepared.keyPairId, engine, (parts_small built).1]
    rfl
  exact ⟨v, p.request, response, rfl, rfl,
    ⟨(gives_handle reached).mpr ⟨_, served, sent⟩, steps⟩, ⟨reached, read, given⟩, name ▸ tells,
    rfl, rfl⟩

theorem publicKey_small {s : Stores (Table String KeyPair)}
    (stocked : s.pairs = Exchange.Small.stocked (pair 3)) :
    ∃ (v : Visit (Table String KeyPair)) (text : String), v.before = g ∧ v.after = g ∧
      v.stores = s ∧ v.Happens Suite.small memory ∧ v.route? = some .publicKey ∧
      v.Tells "default" text := by
  have there : memory.find s.pairs g.engine.defaultId = .ok (pair 3) := by
    rw [engine, (parts_small built).1, stocked]
    exact Exchange.Small.find_stocked (pair 3)
  have family : (pair 3).algorithm = g.engine.algorithm.family := by
    rw [engine, (parts_small built).1]
    rfl
  let r : Http.Request := ⟨"GET", ⟨"/key", none⟩, [], []⟩
  have reached : g.dispatch? r = some .publicKey := dispatch?_of_planned built
    (List.mem_cons_of_mem _ (List.mem_cons_self ..)) addressed_key.literal.starless (List.mem_cons_self ..)
    (.inl rfl)
  have named : namedPair r = .ok none := by decide
  have resolved : (Engine.resolve Suite.small g.engine none).run.Gives
      [⟨.findPair g.engine.defaultId, .ok (pair 3)⟩] (.ok (pair 3)) :=
    Engine.gives_resolve.mpr ⟨.there, family⟩
  have asked := Engine.gives_publicKey.mpr ⟨pair 3, resolved, rfl⟩
  have served : (serve Suite.small g r .publicKey).Gives
      [⟨.findPair g.engine.defaultId, .ok (pair 3)⟩]
      (answer Json.Codec.text (.ok (pair 3).publicKey), g) :=
    (gives_serve_publicKey named).mpr ⟨⟨_, asked, rfl⟩, rfl⟩
  have sent := presented_of_plain (r := r) rfl (by decide)
    (answer Json.Codec.text (.ok (pair 3).publicKey))
  let v : Visit (Table String KeyPair) :=
    ⟨r, g, s, [⟨.findPair g.engine.defaultId, .ok (pair 3)⟩],
      answer Json.Codec.text (.ok (pair 3).publicKey), g, s.wait 0⟩
  have body : v.response.body = (success Json.Codec.text (pair 3).publicKey).body := rfl
  have tells := Visit.Tells.publicKey (v := v) reached named rfl body
  have name : Option.getD none v.before.engine.defaultId = "default" := by
    rw [Option.getD_none, engine, (parts_small built).1]
    rfl
  exact ⟨v, (pair 3).publicKey, rfl, rfl, rfl,
    ⟨(gives_handle reached).mpr ⟨_, served, sent⟩, .cons (.found there 0) (.nil _)⟩, reached,
    name ▸ tells⟩

omit built

/-- A day with an exchange of keys, after which somebody asks for the key. The session of the exchange
is all that is kept. -/
theorem framed_small : ∃ (x y : Gateway × Stores (Table String KeyPair))
    (v v' : Visit (Table String KeyPair)) (request : Exchange.Request)
    (response : Exchange.Response) (session : Exchange.Session) (text' : String),
    Day Suite.small memory x [v, v'] y ∧ v.Exchanges Suite.small request response ∧
    v.stores.sessions = .empty ∧ v.Adds response session ∧
    v.left.sessions.entries = [(response.sessionId, session)] ∧ v'.route? = some .publicKey ∧
    v'.left.sessions = v'.stores.sessions ∧ v.Tells "default" response.publicKey ∧
    v'.Tells "default" text' ∧ Framed Suite.small memory [v, v'] := by
  obtain ⟨g, built⟩ := ofPaths_small Exchange.Small.responder
    (.ofSchemes "app" [] (LocalText.Scheme.standard Suite.small))
  have quiet : Quiet g := quiet_of_standard (parts_small built).2
  obtain ⟨v, request, response, rfl, after, happens, exchanges, tells, empty, stocked⟩ :=
    exchange_small built
  obtain ⟨v', text', before', after', stores, happens', reached', tells'⟩ :=
    publicKey_small built stocked
  have day : Day Suite.small memory (v.before, v.stores) [v, v'] (v'.after, v'.left) := by
    refine .cons ⟨happens⟩ ?_
    rw [after, ← before', ← stores]
    exact .cons ⟨happens'⟩ (.nil _)
  have other : ¬ ∃ request response, v'.Exchanges Suite.small request response := by
    rintro ⟨_, _, exchanges'⟩
    exact nomatch reached'.symm.trans exchanges'.reached
  have idle := happens'.unexchanged (before' ▸ quiet) other
  obtain ⟨kept, one, -⟩ := happens.exchanged exchanges
  have all : Exchange.SessionStore.kept ([v, v'].flatMap Visit.events) = [kept] := by
    simp [Exchange.SessionStore.kept_append, idle, one]
  have fresh : Fresh v.stores.sessions [v, v'] := by
    refine ⟨?_, fun session _ => by rw [empty]; rfl⟩
    rw [all]
    simp
  have framed := day.framed KeyPair.Backend.memory_isMap quiet trivial fresh
  obtain ⟨session, adds⟩ := framed.added v List.mem_cons_self request response exchanges
  have entries : v.left.sessions.entries = [(response.sessionId, session)] := by
    rw [adds.entries, empty, adds.named]
    rfl
  exact ⟨_, _, v, v', request, response, session, text', day, exchanges, empty, adds, entries,
    reached', framed.idle v' (by simp) other, tells, tells', framed⟩

end

end Gateway

end KeyService
