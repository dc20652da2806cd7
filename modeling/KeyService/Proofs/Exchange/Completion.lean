import KeyService.Proofs.Exchange.Agreement
import KeyService.Proofs.KeyPair.Backend
import KeyService.Proofs.Program.Machine
import KeyService.Store.Table

/-! Exchanges between honest parties over an honest network come to an end.
Two hosts have clocks, sources of random bytes and stores of their own. What one sends
is answered by the other. If the initiator was given the public key that the responder
has for an id, both end with the same session. -/
namespace KeyService.Exchange

variable {S : Suite}

/-- What a host has of its own. It counts how often it read its clock or its source of random
bytes. -/
structure Host (σ : Type) where
  ticks : Nat
  pairs : σ
  sessions : SessionStore

structure Chance where
  clock : Nat → Int64
  draw : Nat → (count : Nat) → RandomBytes count

namespace Host

variable {σ : Type}

def tick (h : Host σ) : Host σ := { h with ticks := h.ticks + 1 }

def keep (h : Host σ) (c : Chance) (session : Session) : Host σ :=
  { h.tick with sessions := h.sessions.keep (c.clock h.ticks) session }

/-- What a host answers to its own programs. It reaches nobody, and it lets them go on with numbers
that have wrapped around. -/
def answer (B : KeyPair.Backend σ) (c : Chance) :
    (question : Question) → StateM (Host σ) question.Answer
  | .now => fun h => (c.clock h.ticks, h.tick)
  | .random count => fun h => (c.draw h.ticks count, h.tick)
  | .findPair id => fun h => (B.find h.pairs id, h)
  | .keepPair id pair => fun h =>
    match B.keep h.pairs id pair with
    | .ok pairs => (.ok (), { h with pairs })
    | .error cause => (.error cause, h)
  | .enter => fun h => ((), h)
  | .leave => fun h => ((), h)
  | .findRecord _ _ => fun h => (.ok none, h)
  | .keepRecord record => fun h => (.ok record, h)
  | .findSession id => fun h => (SessionStore.get h.sessions (c.clock h.ticks) id, h.tick)
  | .keepSession session => fun h => ((), h.keep c session)
  | .countSessions => fun h => (h.sessions.size, h)
  | .exchange url _ => fun h => (.error (.unreachable url), h)
  | .fetchKey url => fun h => (.error (.unreachable url), h)
  | .overflow => fun h => ((), h)

def alone (B : KeyPair.Backend σ) (c : Chance) : Surroundings (StateM (Host σ)) :=
  .ofAnswers (answer B c)

/-- A host whose requests reach another one, and are answered there. -/
def linked (S : Suite) (B : KeyPair.Backend σ) (near far : Chance) (r : Responder) :
    Surroundings (StateM (Host σ × Host σ)) :=
  .ofAnswers fun question hosts =>
    match question with
    | .exchange _ request =>
      let (response, host) := (Responder.respond S r request).run.run (alone B far) hosts.2
      (response, hosts.1, host)
    | question =>
      let (a, host) := answer B near question hosts.1
      (a, host, hosts.2)

theorem find_keep (h : Host σ) (c : Chance) (session : Session) :
    (h.keep c session).sessions.find? session.id = some session := by
  simp only [keep, SessionStore.keep, Table.find?_insert, if_true]

variable {B : KeyPair.Backend σ} {c : Chance} {h h' : Host σ} {r : Responder} {id : Option String}

theorem resolve_there (r : Responder) (id : Option String) {pair : KeyPair}
    (there : B.find h.pairs (id.getD r.engine.defaultId) = .ok pair)
    (family : pair.algorithm = r.engine.algorithm.family) :
    (Engine.resolve S r.engine id).run.Gives
        [⟨.findPair (id.getD r.engine.defaultId), .ok pair⟩] (.ok pair) ∧
      (alone B c).Answers h [⟨.findPair (id.getD r.engine.defaultId), .ok pair⟩] h :=
  ⟨Engine.gives_resolve.mpr ⟨.there, family⟩,
    Surroundings.answers_single.mpr (congrArg (·, h) there)⟩

theorem find_of_kept {valid : σ → Prop} (isMap : B.IsMap valid) (inside : valid h.pairs)
    {name : String} {pair : KeyPair}
    (kept : (alone B c).answer (.keepPair name pair) h.tick = (.ok (), h')) :
    B.find h'.pairs name = .ok pair := by
  change (match B.keep h.pairs name pair with
    | .ok pairs => ((.ok (), { h.tick with pairs }) : Except KeyPair.Error Unit × Host σ)
    | .error cause => (.error cause, h.tick)) = _ at kept
  split at kept
  · rename_i pairs done
    obtain ⟨-, rfl⟩ := Prod.mk.inj kept
    exact isMap.find_kept inside done
  · exact nomatch (Prod.mk.inj kept).1

/-- A host that has told its public key has the pair, made it if need be. -/
theorem there_of_publicKey {valid : σ → Prop} (isMap : B.IsMap valid) (inside : valid h.pairs)
    (readsPublic : S.curve.ReadsPublic) (readsSecret : S.curve.ReadsSecret)
    (elliptic : r.engine.algorithm = .elliptic)
    (consistent : ∀ pair, B.find h.pairs (id.getD r.engine.defaultId) = .ok pair →
      pair.Consistent S) {text : String}
    (told : (Responder.publicKey S r id).run.run (alone B c) h = (.ok text, h')) :
    ∃ pair, B.find h'.pairs (id.getD r.engine.defaultId) = .ok pair ∧
      pair.algorithm = r.engine.algorithm.family ∧ pair.publicKey = text ∧ pair.Consistent S := by
  obtain ⟨events, given, answers⟩ :=
    Program.gives_of_run (w := alone B c) (Responder.publicKey S r id).run h
  rw [told] at given answers
  obtain ⟨pair, resolved, named⟩ := Responder.gives_publicKey.mp given
  obtain ⟨obtained, family⟩ := Engine.gives_resolve.mp resolved
  generalize id.getD r.engine.defaultId = name at obtained consistent ⊢
  cases obtained with
  | there =>
    obtain ⟨found, same⟩ : B.find h.pairs name = .ok pair ∧ h = h' :=
      Prod.mk.inj (Surroundings.answers_single.mp answers)
    subst same
    exact ⟨pair, found, family, named, consistent pair found⟩
  | waited _ missed =>
    obtain ⟨missing, rfl⟩ := missed
    -- Nobody else works on this host, so the second look-up misses as the first one did.
    obtain ⟨h₁, first, answers₁⟩ := Surroundings.answers_cons.mp answers
    obtain ⟨missed, rfl⟩ : B.find h.pairs name = .error (.missing missing) ∧ h = h₁ :=
      Prod.mk.inj first
    obtain ⟨h₂, entered, answers₂⟩ := Surroundings.answers_cons.mp answers₁
    obtain rfl : h = h₂ := (Prod.mk.inj entered).2
    obtain ⟨h₃, again, -⟩ := Surroundings.answers_cons.mp answers₂
    obtain ⟨found, -⟩ : B.find h.pairs name = .ok pair ∧ h = h₃ := Prod.mk.inj again
    exact nomatch missed.symm.trans found
  | made _ missed missed' drawn =>
    obtain ⟨missing, rfl⟩ := missed
    obtain ⟨missing', rfl⟩ := missed'
    rw [elliptic] at drawn
    obtain ⟨seed, rfl, rfl⟩ := Engine.gives_fresh_elliptic.mp drawn
    obtain ⟨h₁, first, answers₁⟩ := Surroundings.answers_cons.mp answers
    obtain rfl : h = h₁ := (Prod.mk.inj first).2
    obtain ⟨h₂, entered, answers₂⟩ := Surroundings.answers_cons.mp answers₁
    obtain rfl : h = h₂ := (Prod.mk.inj entered).2
    obtain ⟨h₃, again, answers₃⟩ := Surroundings.answers_cons.mp answers₂
    obtain rfl : h = h₃ := (Prod.mk.inj again).2
    obtain ⟨h₄, drew, answers₄⟩ := Surroundings.answers_cons.mp answers₃
    obtain rfl : h.tick = h₄ := (Prod.mk.inj drew).2
    obtain ⟨h₅, kept, left⟩ := Surroundings.answers_cons.mp answers₄
    obtain rfl : h₅ = h' := (Prod.mk.inj (Surroundings.answers_single.mp left)).2
    have found := find_of_kept isMap inside kept
    exact ⟨_, found, family, named, _, Engine.curvePair_halves readsPublic readsSecret _⟩

theorem answers_reports (h : Host σ) (now timestamp : Int64) :
    (alone B c).Answers h (Responder.reports now timestamp) h := by
  have reported (n : Int) : (alone B c).Answers h (Program.outside n) h := by
    unfold Program.outside
    split
    · exact .nil h
    · exact .cons rfl (.nil h)
  exact (reported _).append (reported _)

/-- What a responder's host does with a request that was made for one of its pairs: it keeps a
session with the keys that the request's sender remembers, and the sender accepts the answer. -/
theorem respond_there (symmetric : S.curve.Symmetric) (reads : S.curve.ReadsPublic)
    (verifies : S.curve.Verifies) {i : Initiator} {url : String} {sending : List Event}
    {p : Pending S} {seed : RandomBytes 48} {token : RandomBytes tokenLength} {pair : KeyPair}
    (prepared : Initiator.Prepared S i url pair.publicKey id sending p seed token)
    (cbc : i.algorithm.mode = .cbc) (elliptic : r.engine.algorithm = .elliptic)
    (there : B.find h.pairs (id.getD r.engine.defaultId) = .ok pair)
    (family : pair.algorithm = r.engine.algorithm.family) (consistent : pair.Consistent S)
    (timely : r.checkClock (c.clock h.ticks) p.request.timestamp = .ok ()) :
    ∃ response stored session, (Responder.respond S r p.request).run.run (alone B c) h =
        (.ok response, h.tick.tick.tick.keep c stored) ∧
      Initiator.accept S p response = .ok session ∧ stored.id = session.id ∧
      stored.key = session.key ∧ stored.iv = session.iv ∧ stored.keyLength = session.keyLength ∧
      stored.expireTime = session.expireTime := by
  obtain ⟨secret, halves⟩ := consistent
  rw [← prepared.keyPairId] at there
  have found (h' : Host σ) (same : h'.pairs = h.pairs) :=
    resolve_there (S := S) (c := c) (h := h') r _ (same ▸ there) family
  let drawn := c.draw h.tick.ticks 16
  let ending := c.clock h.tick.tick.ticks
  let offer := Initiator.Prepared.offer r p pair drawn ending
  have settled := prepared.settled_of_found symmetric reads cbc elliptic halves family timely drawn
    ending
  have gives := Responder.gives_respond.mpr ⟨offer, _, _, pair, pair, pair, secret, rfl, settled,
    (found h rfl).1, halves.1, rfl⟩
  have clock : (alone B c).Answers h
      (⟨.now, c.clock h.ticks⟩ :: Responder.reports (c.clock h.ticks) p.request.timestamp) h.tick :=
    .cons rfl (answers_reports _ _ _)
  have drawing : (alone B c).Answers h.tick [⟨.random 16, drawn⟩, ⟨.now, ending⟩]
      h.tick.tick.tick := .cons rfl (.cons rfl (.nil _))
  have keeping : (alone B c).Answers h.tick.tick.tick [⟨.keepSession offer.session, ()⟩]
      (h.tick.tick.tick.keep c offer.session) := .cons rfl (.nil _)
  have settling := ((clock.append (found h.tick rfl).2).append (found h.tick rfl).2).append drawing
  have answers := (settling.append (found h.tick.tick.tick rfl).2).append keeping
  exact ⟨_, offer.session, _, Program.run_eq_of_gives gives (by simpa using answers),
    prepared.accept_answer verifies halves offer rfl rfl, rfl, rfl, rfl, rfl, rfl⟩

theorem answers_linked {near far : Chance} {a a' b : Host σ} {events : List Event}
    (silent : ∀ e ∈ events, ∀ url request, e.1 ≠ .exchange url request)
    (answers : (alone B near).Answers a events a') :
    (linked S B near far r).Answers (a, b) events (a', b) := by
  induction answers with
  | nil a => exact .nil _
  | @cons a a₁ a' question answer events same _ ih =>
    refine Surroundings.answers_cons.mpr
      ⟨(a₁, b), ?_, ih fun e member => silent e (List.mem_cons_of_mem _ member)⟩
    have other := silent _ List.mem_cons_self
    rw [alone, Surroundings.answer_ofAnswers] at same
    rw [linked, Surroundings.answer_ofAnswers]
    cases question with
    | exchange url request => exact absurd rfl (other url request)
    | _ => exact congrArg (fun x => (x.1, x.2, b)) same

end Host

def Small.chance : Chance :=
  ⟨fun _ => 0, fun _ count => ⟨List.replicate count 4, List.length_replicate⟩⟩

open Host in
/-- If a responder's host has told its public key for an id, and the two clocks are close enough
when the request is made and when it arrives, then a handshake with that key ends with a session,
and both hosts hold one with its id and the same key, initialisation vector, length and end. -/
theorem negotiate_completes {σ : Type} {B : KeyPair.Backend σ} {valid : σ → Prop}
    (isMap : B.IsMap valid) (symmetric : S.curve.Symmetric) (verifies : S.curve.Verifies)
    (readsPublic : S.curve.ReadsPublic) (readsSecret : S.curve.ReadsSecret) {i : Initiator}
    (cbc : i.algorithm.mode = .cbc) {url : String} (onEndpoint : i.endpoint.check url = .ok ())
    {r : Responder} (elliptic : r.engine.algorithm = .elliptic) {id : Option String}
    {near far : Chance} {a b b₀ : Host σ} {text : String} (inside : valid b₀.pairs)
    (consistent : ∀ pair, B.find b₀.pairs (id.getD r.engine.defaultId) = .ok pair →
      pair.Consistent S)
    (told : (Responder.publicKey S r id).run.run (alone B far) b₀ = (.ok text, b))
    (timely : Responder.skew (far.clock b.ticks) (near.clock (a.ticks + 2)) ≤
      millis r.skewSeconds) :
    ∃ session stored a' b', (Handshake.negotiate S i .init url text id).run
        (linked S B near far r) (a, b) = ((.ok session, .negotiated), a', b') ∧
      a'.sessions.find? session.id = some session ∧ b'.sessions.find? session.id = some stored ∧
      stored.key = session.key ∧ stored.iv = session.iv ∧ stored.keyLength = session.keyLength ∧
      stored.expireTime = session.expireTime := by
  obtain ⟨pair, there, family, rfl, secret, halves⟩ :=
    there_of_publicKey isMap inside readsPublic readsSecret elliptic consistent told
  let seed := near.draw a.ticks 48
  let token := near.draw a.tick.ticks tokenLength
  let timestamp := near.clock a.tick.tick.ticks
  obtain ⟨p, made, prepared⟩ :=
    Initiator.prepared_of_draws halves.2 onEndpoint id seed token timestamp
  have clocks : r.checkClock (far.clock b.ticks) p.request.timestamp = .ok () :=
    if_neg (by rw [made]; exact Int64.not_lt.mpr timely)
  obtain ⟨response, stored, session, responded, accepted, ids, keys, ivs, lengths, ends⟩ :=
    respond_there symmetric readsPublic verifies prepared cbc elliptic there family ⟨secret, halves⟩
      clocks
  have gives := Handshake.gives_negotiate.mpr
    ⟨rfl, rfl, p, _, _, _, response, prepared, rfl, accepted⟩
  have asking : (linked S B near far r).Answers (a, b)
      [⟨.random 48, seed⟩, ⟨.random tokenLength, token⟩, ⟨.now, timestamp⟩]
      (a.tick.tick.tick, b) :=
    answers_linked (by simp) (.cons rfl (.cons rfl (.cons rfl (.nil _))))
  have sending : (linked S B near far r).Answers (a.tick.tick.tick, b)
      [⟨.exchange url p.request, .ok response⟩]
      (a.tick.tick.tick, b.tick.tick.tick.keep far stored) :=
    Surroundings.answers_single.mpr
      (congrArg (fun x : Except Error Response × Host σ => (x.1, a.tick.tick.tick, x.2)) responded)
  have keeping : (linked S B near far r).Answers
      (a.tick.tick.tick, b.tick.tick.tick.keep far stored) [⟨.keepSession session, ()⟩]
      (a.tick.tick.tick.keep near session, b.tick.tick.tick.keep far stored) := .cons rfl (.nil _)
  refine ⟨session, stored, _, _,
    Program.run_eq_of_gives gives (asking.append (sending.append keeping)), find_keep _ _ _, ?_,
    keys, ivs, lengths, ends⟩
  rw [← ids]
  exact find_keep _ _ _

theorem negotiate_completes_small : ∃ (far : Host (Table String KeyPair)) (session stored : Session)
    (a' b' : Host (Table String KeyPair)),
    (Handshake.negotiate Suite.small Small.initiator .init "/exchange" (Small.pair 3).publicKey
        none).run (Host.linked Suite.small KeyPair.Backend.memory Small.chance Small.chance
          Small.responder) (⟨0, .empty, .empty⟩, far) = ((.ok session, .negotiated), a', b') ∧
      a'.sessions.find? session.id = some session ∧ b'.sessions.find? session.id = some stored ∧
      stored.key = session.key ∧ stored.iv = session.iv ∧ stored.keyLength = session.keyLength ∧
      stored.expireTime = session.expireTime := by
  let host : Host (Table String KeyPair) := ⟨0, Small.stocked (Small.pair 3), .empty⟩
  have there := Host.resolve_there (S := Suite.small) (c := Small.chance) (h := host)
    Small.responder none (Small.find_stocked (Small.pair 3)) rfl
  have told := Program.run_eq_of_gives
    (Responder.gives_publicKey.mpr ⟨Small.pair 3, there.1, rfl⟩) there.2
  have consistent : ∀ pair, KeyPair.Backend.memory.find host.pairs "default" = .ok pair →
      pair.Consistent Suite.small := by
    intro pair found
    obtain rfl := Except.ok.inj ((Small.find_stocked (Small.pair 3)).symm.trans found)
    exact ⟨_, Small.halves 3⟩
  exact ⟨host, negotiate_completes KeyPair.Backend.memory_isMap Suite.small_symmetric
    Suite.small_verifies Suite.small_readsPublic Suite.small_readsSecret rfl rfl rfl trivial
    consistent told (by decide)⟩

end KeyService.Exchange
