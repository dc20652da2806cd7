import KeyService.Proofs.Exchange.Agreement
import KeyService.Proofs.KeyPair.Shared

/-! Key pairs that are replaced while a request is answered.
The three look-ups of an answering call may each obtain another pair. The signature ties
the second and the third together, since an answer that names one key and is signed with
another is refused. Nothing ties the first to them, and the session's keys depend on it
alone. -/
namespace KeyService.Exchange.Rotation

structure Write where
  id : String
  pair : KeyPair

variable {W : Type}

abbrev Result : Option W → Type
  | none => Except Error Response
  | some _ => Except KeyPair.Error Unit

def parties (S : Suite) (r : Responder) (request : Request) (writes : W → Write) :
    Pool (Result (W := W))
  | none => (Responder.respond S r request).run
  | some w => Program.setPair (writes w).id (writes w).pair

/-- The pair that the first look-up of an answering call obtained. -/
def AgreedWith (S : Suite) (r : Responder) (request : Request) (events : List Event)
    (first : KeyPair) : Prop :=
  ∃ now one rest, events = ⟨.now, now⟩ :: Responder.reports now request.timestamp ++ one ++ rest ∧
    (Engine.resolve S r.engine request.keyPairId).run.Gives one (.ok first)

variable [DecidableEq W] {σ E : Type} [DecidableEq E] {S : Suite} {B : KeyPair.Backend σ}
  {valid : σ → Prop} {owner : Option W → E} {r : Responder} {request : Request}
  {writes : W → Write} {origin state : Shared σ E} {history : History (Option W)}
  {pool : Pool (Result (W := W))}

theorem consistent_of_run (isMap : B.IsMap valid) (readsPublic : S.curve.ReadsPublic)
    (readsSecret : S.curve.ReadsSecret) (inside : valid origin.pairs)
    (held : ∀ id pair, B.find origin.pairs id = .ok pair → pair.Consistent S)
    (written : ∀ w, (writes w).pair.Consistent S)
    (run : Run (Shared.Step B owner) (parties S r request writes) origin history pool state)
    {response : Response} (answered : pool none = .done (.ok response)) {id : String}
    {pair : KeyPair} (sees : Sees id pair (own none history)) : pair.Consistent S := by
  have gives : (Responder.respond S r request).run.Gives _ _ := run.gives answered
  have kept : ∀ i id pair, (i, ⟨.keepPair id pair, .ok ()⟩) ∈ history → pair.Consistent S := by
    intro i id pair member
    cases i with
    | none =>
      obtain ⟨secret, rfl⟩ := Responder.kept_of_respond gives (mem_own.mpr member)
      exact ⟨secret, Engine.curvePair_halves readsPublic readsSecret secret⟩
    | some w =>
      have asked := Program.asked_of_put (run.leads (some w)) _ (mem_own.mpr member)
      rw [(Question.keepPair.inj asked).2]
      exact written w
  obtain ⟨-, -, found⟩ :=
    Shared.holds isMap run inside (P := fun _ pair => pair.Consistent S) held kept
  rcases sees with looked | made
  · exact found none id pair (mem_own.mp looked)
  · exact kept none id pair (mem_own.mp made)

/-- If a pair is replaced right after the first look-up, the answer names the new pair and is
accepted, and the session is kept with keys that were agreed with the old one. -/
theorem accepted_of_rotation (owner : Option Unit → E) (origin : Shared σ E)
    (isMap : B.IsMap valid) (inside : valid origin.pairs)
    (reads : S.curve.ReadsPublic) (verifies : S.curve.Verifies)
    (elliptic : r.engine.algorithm = .elliptic) {i : Initiator} (cbc : i.algorithm.mode = .cbc)
    {url : String} {id : Option String} {sending : List Event} {p : Pending S}
    {seed : RandomBytes 48} {token : RandomBytes tokenLength} {old new : KeyPair}
    (prepared : Initiator.Prepared S i url new.publicKey id sending p seed token)
    {secret secret' : S.curve.SecretKey} (oldHalves : old.Halves S secret)
    (newHalves : new.Halves S secret')
    (oldFamily : old.algorithm = r.engine.algorithm.family)
    (newFamily : new.algorithm = r.engine.algorithm.family) {now : Int64}
    (timely : r.checkClock now p.request.timestamp = .ok ()) (ending : Int64)
    (drawn : RandomBytes 16) {pairs : σ}
    (oldFound : B.find origin.pairs (id.getD r.engine.defaultId) = .ok old)
    (written : B.keep origin.pairs (id.getD r.engine.defaultId) new = .ok pairs) :
    ∃ history pool state response session stored,
      Run (Shared.Step B owner)
        (parties S r p.request fun _ => ⟨id.getD r.engine.defaultId, new⟩) origin history pool
        state ∧
      pool none = .done (.ok response) ∧ Initiator.accept S p response = .ok session ∧
      session.key = p.key ∧ session.iv = p.iv ∧ (none, ⟨.keepSession stored, ()⟩) ∈ history ∧
      deriveKey (S.curve.agree secret (S.curve.publicOf (S.curve.secretOf seed.val))) token.val
        i.algorithm.size.bits = .ok (stored.key, stored.iv) := by
  rw [← prepared.keyPairId] at oldFound written ⊢
  have newFound := isMap.find_kept inside written
  obtain ⟨key, iv, derived⟩ := deriveKey_size
    (S.curve.agree secret (S.curve.publicOf (S.curve.secretOf seed.val))) token.val i.algorithm.size
  generalize nameEq : p.request.keyPairId.getD r.engine.defaultId = name at oldFound written newFound ⊢
  let offer : Offer := ⟨new.publicKey, ⟨p.request.publicKey, Text.uuid drawn.val, key, iv,
    p.request.keyLength, later ending (millis r.sessionSeconds)⟩⟩
  have obtained (pair : KeyPair) (family : pair.algorithm = r.engine.algorithm.family) :
      (Engine.resolve S r.engine p.request.keyPairId).run.Gives [⟨.findPair name, .ok pair⟩]
        (.ok pair) := Engine.gives_resolve.mpr ⟨nameEq ▸ .there, family⟩
  have trace : Responder.Trace S r p.request _ offer old new now ending drawn _ _ :=
    ⟨rfl, obtained old oldFamily, obtained new newFamily, timely, rfl, rfl⟩
  have settled := prepared.settled reads cbc elliptic oldHalves trace
    (by rw [prepared.keyLength, derived]) rfl rfl rfl
  let before : List Event :=
    ⟨.now, now⟩ :: Responder.reports now p.request.timestamp ++ [⟨.findPair name, .ok old⟩]
  let after : List Event := [⟨.findPair name, .ok new⟩, ⟨.random 16, drawn⟩, ⟨.now, ending⟩,
    ⟨.findPair name, .ok new⟩, ⟨.keepSession offer.session, ()⟩]
  have gives : (Responder.respond S r p.request).run.Gives (before ++ after) (.ok _) :=
    Responder.gives_respond.mpr ⟨offer, _, _, old, new, new, secret', by simp [before, after],
      settled, obtained new newFamily, newHalves.1, rfl⟩
  obtain ⟨middle, first, second⟩ := Program.leads_append.mp gives
  let start := parties S r p.request fun _ : Unit => ⟨name, new⟩
  have reported : Steps (Shared.Step B owner) none origin
      (Responder.reports now p.request.timestamp) origin :=
    .idle fun e member => Responder.mem_reports member ▸ .other trivial
  have answers : Steps (Shared.Step B owner) none origin before origin :=
    .cons (.other trivial) (reported.append (.cons (.looked oldFound) (.nil _)))
  have answers' : Steps (Shared.Step B owner) none { origin with pairs } after
      { origin with pairs } :=
    .cons (.looked newFound) (.cons (.other trivial) (.cons (.other trivial)
      (.cons (.looked newFound) (.cons (.other trivial) (.nil _)))))
  have begun : Run (Shared.Step B owner) start origin [] start origin := .start
  have looked := begun.extend (show (start none).Leads before middle from first) answers
  have replaced := looked.step (i := some ()) (Function.update_of_ne (by simp) ..) (.keep written)
  have whole := replaced.extend
    (by rw [Function.update_of_ne (by simp), Function.update_self]; exact second) answers'
  refine ⟨_, _, _, _, _, offer.session, whole, Function.update_self ..,
    prepared.accept_answer verifies newHalves offer rfl rfl, rfl, rfl, ?_, derived⟩
  simp [after]

open Suite (small)

/-- What an agreement with the first pair is condensed to, before it is expanded. -/
def condensed : Bytes :=
  [155, 164, 72, 5, 137, 62, 168, 143, 24, 56, 100, 209, 48, 227, 104, 80,
    209, 115, 55, 155, 41, 101, 180, 170, 8, 108, 237, 46, 236, 153, 133, 249]

/-- What an agreement with the second pair is condensed to. -/
def condensed' : Bytes :=
  [83, 251, 92, 109, 128, 114, 199, 125, 119, 89, 110, 198, 31, 87, 165, 12,
    126, 36, 106, 55, 232, 77, 71, 173, 168, 129, 164, 98, 136, 255, 217, 57]

theorem extract_eq : Hkdf.extract Small.token.val
    (small.curve.agree (2 : UInt8) (small.curve.publicOf (4 : UInt8))) = condensed := by
  decide +kernel

theorem extract_eq' : Hkdf.extract Small.token.val
    (small.curve.agree (3 : UInt8) (small.curve.publicOf (4 : UInt8))) = condensed' := by
  decide +kernel

theorem head_expand :
    (Hkdf.expand condensed (label ++ Bytes.ofNat 2 128) 32).head? = some 165 := by
  decide +kernel

theorem head_expand' :
    (Hkdf.expand condensed' (label ++ Bytes.ofNat 2 128) 32).head? = some 182 := by
  decide +kernel

/-- One evaluation for each digest, since the kernel needs much memory for it. -/
theorem derived_differ :
    Hkdf.derive Small.token.val (small.curve.agree (2 : UInt8) (small.curve.publicOf (4 : UInt8)))
        (label ++ Bytes.ofNat 2 128) 32 ≠
      Hkdf.derive Small.token.val (small.curve.agree (3 : UInt8) (small.curve.publicOf (4 : UInt8)))
        (label ++ Bytes.ofNat 2 128) 32 := by
  intro same
  have heads := congrArg List.head? same
  rw [Hkdf.derive, Hkdf.derive, extract_eq, extract_eq', head_expand, head_expand'] at heads
  exact absurd heads (by decide)

theorem small_rotation : ∃ (p : Pending small) (sending : List Event)
    (history : History (Option Unit)) (pool : Pool (Result (W := Unit)))
    (state : Shared (Table String KeyPair) Unit) (response : Response) (session stored : Session),
    Initiator.Prepared small Small.initiator "/exchange" (Small.pair 3).publicKey none sending p
      Small.seed Small.token ∧
    Run (Shared.Step KeyPair.Backend.memory fun _ => ())
      (parties small Small.responder p.request fun _ => ⟨"default", Small.pair 3⟩)
      ⟨Small.stocked (Small.pair 2), fun _ => false⟩ history pool state ∧
    pool none = .done (.ok response) ∧ Initiator.accept small p response = .ok session ∧
    session.key = p.key ∧ session.iv = p.iv ∧ (none, ⟨.keepSession stored, ()⟩) ∈ history ∧
    deriveKey (small.curve.agree (2 : UInt8)
      (small.curve.publicOf (small.curve.secretOf Small.seed.val))) Small.token.val
      Small.initiator.algorithm.size.bits = .ok (stored.key, stored.iv) := by
  obtain ⟨p, timestamp, prepared⟩ := Small.prepared 3
  obtain ⟨history, pool, state, response, session, stored, run, facts⟩ :=
    accepted_of_rotation (fun _ => ()) ⟨Small.stocked (Small.pair 2), fun _ => false⟩
      KeyPair.Backend.memory_isMap trivial Suite.small_readsPublic Suite.small_verifies rfl rfl
      prepared (Small.halves 2) (Small.halves 3) rfl rfl (Small.timely timestamp) 0 Small.drawn
      (Small.find_stocked (Small.pair 2)) rfl
  exact ⟨p, _, history, pool, state, response, session, stored, prepared, run, facts⟩

/-- If an accepted answer was made while pairs were written, both sides hold the same session but
for its keys, and the keys are the same exactly if the pair of the first look-up leads to the same
ones as the pair that the answer names. -/
theorem keys_agree_iff (isMap : B.IsMap valid) (symmetric : S.curve.Symmetric)
    (readsPublic : S.curve.ReadsPublic) (readsSecret : S.curve.ReadsSecret) {i : Initiator}
    {url responderKey : String} {id : Option String} {sending : List Event} {p : Pending S}
    {seed : RandomBytes 48} {token : RandomBytes tokenLength}
    (prepared : Initiator.Prepared S i url responderKey id sending p seed token)
    (inside : valid origin.pairs)
    (held : ∀ id pair, B.find origin.pairs id = .ok pair → pair.Consistent S)
    (written : ∀ w, (writes w).pair.Consistent S)
    (run : Run (Shared.Step B owner) (parties S r p.request writes) origin history pool state)
    {response : Response} (answered : pool none = .done (.ok response)) {session : Session}
    (accepted : Initiator.accept S p response = .ok session) :
    ∃ stored first agreed, (none, ⟨.keepSession stored, ()⟩) ∈ history ∧
      AgreedWith S r p.request (own none history) first ∧
      Engine.curvePublic S first.publicKey = .ok agreed ∧ stored.peer = p.request.publicKey ∧
      stored.id = session.id ∧ stored.keyLength = session.keyLength ∧
      stored.expireTime = session.expireTime ∧
      ((stored.key = session.key ∧ stored.iv = session.iv) ↔
        deriveKey (S.curve.agree (S.curve.secretOf seed.val) agreed) token.val p.request.keyLength =
          deriveKey (S.curve.agree (S.curve.secretOf seed.val) p.responder) token.val
            p.request.keyLength) := by
  have gives : (Responder.respond S r p.request).run.Gives _ _ := run.gives answered
  obtain ⟨offer, settling, signing, first, second, third, secret, whole, settled, found, read, rfl⟩ :=
    Responder.gives_respond.mp gives
  obtain ⟨now, ending, drawn, one, two, trace⟩ := settled.trace
  have seesFirst : Sees (p.request.keyPairId.getD r.engine.defaultId) first (own none history) := by
    apply (Engine.gives_resolve.mp trace.first).1.sees.mono
    intro e member
    rw [whole, trace.events]
    simp [member]
  -- The other two look-ups decide only whether the answer is accepted.
  obtain ⟨agreed, halves⟩ :=
    consistent_of_run isMap readsPublic readsSecret inside held written run answered seesFirst
  have derived := prepared.derived_of_settled symmetric readsPublic settled halves rfl rfl rfl
  obtain ⟨verified, rfl⟩ := Initiator.accept_iff.mp accepted
  refine ⟨offer.session, first, S.curve.publicOf agreed, ?_, ?_, halves.2, settled.peer, rfl,
    settled.keyLength, rfl, ?_⟩
  · rw [← mem_own, whole]
    simp
  · exact ⟨now, one, two ++ [⟨.random 16, drawn⟩, ⟨.now, ending⟩] ++ signing ++
      [⟨.keepSession offer.session, ()⟩], by rw [whole, trace.events]; simp, trace.first⟩
  · rw [derived, prepared.derived]
    simp only [Except.ok.injEq, Prod.mk.injEq]

theorem keys_agree_iff_small : ∃ (p : Pending small) (history : History (Option Unit))
    (pool : Pool (Result (W := Unit))) (state : Shared (Table String KeyPair) Unit)
    (session stored : Session) (first : KeyPair) (agreed : small.curve.PublicKey),
    Run (Shared.Step KeyPair.Backend.memory fun _ => ())
      (parties small Small.responder p.request fun _ => ⟨"default", Small.pair 3⟩)
      ⟨Small.stocked (Small.pair 2), fun _ => false⟩ history pool state ∧
    (none, ⟨.keepSession stored, ()⟩) ∈ history ∧
    Engine.curvePublic small first.publicKey = .ok agreed ∧
    ((stored.key = session.key ∧ stored.iv = session.iv) ↔
      deriveKey (small.curve.agree (small.curve.secretOf Small.seed.val) agreed) Small.token.val
          p.request.keyLength =
        deriveKey (small.curve.agree (small.curve.secretOf Small.seed.val) p.responder)
          Small.token.val p.request.keyLength) := by
  obtain ⟨p, sending, history, pool, state, response, session, -, prepared, run, answered, accepted,
    -⟩ := small_rotation
  have held : ∀ id pair, KeyPair.Backend.memory.find (Small.stocked (Small.pair 2)) id = .ok pair →
      pair.Consistent small := by
    intro id pair found
    obtain rfl := Small.pair_of_stocked found
    exact ⟨_, Small.halves 2⟩
  obtain ⟨stored, first, agreed, kept, -, read, -, -, -, -, same⟩ :=
    keys_agree_iff KeyPair.Backend.memory_isMap Suite.small_symmetric Suite.small_readsPublic
      Suite.small_readsSecret prepared trivial held (fun _ => ⟨_, Small.halves 3⟩) run answered
      accepted
  exact ⟨p, history, pool, state, session, stored, first, agreed, run, kept, read, same⟩

/-- There are a request, a store that holds a consistent pair, and a consistent pair that is written
once, such that an answer is accepted and the two sides do not have the same keys. -/
theorem rotation_unnoticed : ∃ (p : Pending small) (sending : List Event)
    (history : History (Option Unit)) (pool : Pool (Result (W := Unit)))
    (state : Shared (Table String KeyPair) Unit) (response : Response) (session stored : Session),
    (Small.initiator.prepare small "/exchange" (Small.pair 3).publicKey none).run.Gives sending
      (.ok p) ∧ (Small.pair 2).Consistent small ∧ (Small.pair 3).Consistent small ∧
    Run (Shared.Step KeyPair.Backend.memory fun _ => ())
      (parties small Small.responder p.request fun _ => ⟨"default", Small.pair 3⟩)
      ⟨Small.stocked (Small.pair 2), fun _ => false⟩ history pool state ∧
    pool none = .done (.ok response) ∧ Initiator.accept small p response = .ok session ∧
    (none, ⟨.keepSession stored, ()⟩) ∈ history ∧
    ¬ (stored.key = session.key ∧ stored.iv = session.iv) := by
  obtain ⟨p, sending, history, pool, state, response, session, stored, prepared, run, answered,
    accepted, keys, ivs, kept, derived⟩ := small_rotation
  refine ⟨p, sending, history, pool, state, response, session, stored,
    Initiator.gives_prepare.mpr ⟨_, _, prepared⟩, ⟨_, Small.halves 2⟩, ⟨_, Small.halves 3⟩, run,
    answered, accepted, kept, fun ⟨sameKey, sameIv⟩ => derived_differ ?_⟩
  have expected := prepared.derived
  rw [prepared.keyLength, prepared.responder_eq (Small.halves 3), ← keys, ← ivs, ← sameKey, ← sameIv]
    at expected
  have swapped := congrArg (deriveKey · Small.token.val Small.initiator.algorithm.size.bits)
    (Suite.small_symmetric (small.curve.secretOf Small.seed.val) (3 : UInt8))
  exact (append_of_deriveKey derived).trans (append_of_deriveKey (swapped.symm.trans expected)).symm

end KeyService.Exchange.Rotation
