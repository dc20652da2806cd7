import KeyService.Proofs.KeyPair.Shared
import KeyService.Proofs.Suite.Small

/-! The first use of a default pair by engines that share a store.
Every engine looks again under its own lock before it makes a pair, but the locks of two
engines have nothing to do with each other. Whoever keeps a pair answers with it, even if
somebody else keeps another one a moment later. -/
namespace KeyService.Engine

variable {S : Suite} {e : Engine} {events : List Event}

theorem gives_fresh {a : Algorithm} {result : Except Error KeyPair}
    (given : (fresh S a).run.Gives events result) :
    (∃ count drawn, events = [⟨.random count, drawn⟩]) ∧
      ∀ pair, result = .ok pair → pair.algorithm = a.family := by
  cases a with
  | elliptic =>
    obtain ⟨seed, rest, rfl, made⟩ := Program.gives_ask.mp given
    obtain ⟨rfl, rfl⟩ := Program.gives_done.mp made
    refine ⟨⟨48, seed, rfl⟩, fun pair same => ?_⟩
    cases same
    rfl
  | rsa bits =>
    unfold fresh at given
    rcases Program.gives_act_bind.mp given with ⟨cause, failed, -⟩ | ⟨drawn, _, _, rfl, drew, made⟩
    · obtain ⟨_, -, impossible⟩ := Program.gives_program.mp failed
      cases impossible
    obtain ⟨seed, rfl, rfl⟩ := Program.gives_draw.mp (Program.gives_program_ok.mp drew)
    split at made
    · obtain ⟨rfl, rfl⟩ := Program.gives_pure.mp made
      refine ⟨⟨64, seed, rfl⟩, fun pair same => ?_⟩
      cases same
      rfl
    · obtain ⟨rfl, rfl⟩ := Program.gives_pure.mp made
      exact ⟨⟨64, seed, rfl⟩, fun pair same => nomatch same⟩

/-- A call that has kept a pair gives this pair. -/
def KeptIsGiven (e : Engine) (events : List Event) (result : Except Error KeyPair) : Prop :=
  ∀ id pair, ⟨.keepPair id pair, .ok ()⟩ ∈ events →
    result = .ok pair ∧ pair.algorithm = e.algorithm.family

theorem kept_of_pure {answer result : Except Error KeyPair}
    (given : (pure answer : Program _).Gives events result) : KeptIsGiven e events result := by
  obtain ⟨rfl, -⟩ := Program.gives_pure.mp given
  exact fun _ _ member => absurd member List.not_mem_nil

theorem gives_keep_answer {name : String} {pair : KeyPair} {result : Except Error Unit}
    (given : (keep name pair).run.Gives events result) :
    ∃ answer, events = [⟨.keepPair name pair, answer⟩] ∧ result = answer.mapError .keyPair := by
  obtain ⟨answer, before, after, rfl, asked, given₁⟩ := Program.gives_bind.mp given
  obtain ⟨rfl, rfl⟩ := Program.gives_pure.mp given₁
  rw [Program.gives_setPair.mp asked]
  exact ⟨answer, rfl, rfl⟩

theorem kept_of_generate {name : String} {result : Except Error KeyPair}
    (given : (generate S e name).run.Gives events result) : KeptIsGiven e events result := by
  intro id pair member
  rcases Program.gives_act_bind.mp given with ⟨cause, failed, rfl⟩ | ⟨made, _, _, rfl, drew, rest⟩
  · obtain ⟨⟨count, drawn, rfl⟩, -⟩ := gives_fresh failed
    exact nomatch congrArg Sigma.fst (List.mem_singleton.mp member)
  · obtain ⟨⟨count, drawn, rfl⟩, family⟩ := gives_fresh drew
    rcases List.mem_append.mp member with drawing | keeping
    · exact nomatch congrArg Sigma.fst (List.mem_singleton.mp drawing)
    rcases Program.gives_act_bind.mp rest with ⟨cause, failed, rfl⟩ | ⟨_, _, _, rfl, kept, ended⟩
    · obtain ⟨answer, rfl, same⟩ := gives_keep_answer failed
      obtain ⟨⟨rfl, rfl⟩, rfl⟩ := by simpa using keeping
      cases same
    · obtain ⟨rfl, rfl⟩ := Program.gives_pure.mp ended
      obtain ⟨answer, rfl, -⟩ := gives_keep_answer kept
      obtain ⟨⟨-, rfl⟩, -⟩ := by simpa using keeping
      exact ⟨rfl, family pair rfl⟩

theorem kept_of_generateDefault {result : Except Error KeyPair}
    (given : (generateDefault S e).run.Gives events result) : KeptIsGiven e events result := by
  intro id pair member
  obtain ⟨middle, rfl, worked⟩ := Program.gives_alone.mp given
  have inside : ⟨.keepPair id pair, .ok ()⟩ ∈ middle := by simpa using member
  obtain ⟨found, _, rest, rfl, looked, given₁⟩ := Program.gives_bind.mp worked
  rw [Program.gives_getPair] at looked
  subst looked
  have later : ⟨.keepPair id pair, .ok ()⟩ ∈ rest := by simpa using inside
  split at given₁
  · exact kept_of_pure given₁ id pair later
  · exact kept_of_generate given₁ id pair later
  · exact kept_of_pure given₁ id pair later

theorem kept_of_check {x : Act KeyPair} {result : Except Error KeyPair}
    (safe : ∀ {part outcome}, x.run.Gives part outcome → KeptIsGiven e part outcome)
    (given : (x >>= fun pair => liftM (e.checkFamily pair)).run.Gives events result) :
    KeptIsGiven e events result := by
  intro id pair member
  rcases Program.gives_act_bind.mp given with ⟨cause, failed, rfl⟩ | ⟨found, _, _, rfl, looked, rest⟩
  · exact safe failed id pair member
  · obtain ⟨rfl, rfl⟩ := Program.gives_pure.mp rest
    rw [List.append_nil] at member
    obtain ⟨same, family⟩ := safe looked id pair member
    exact ⟨checkFamily_iff.mpr ⟨Except.ok.inj same, family⟩, family⟩

theorem kept_of_resolve {name : Option String} {result : Except Error KeyPair}
    (given : (resolve S e name).run.Gives events result) : KeptIsGiven e events result := by
  refine kept_of_check (fun {part outcome} looked => ?_) given
  intro id pair member
  rcases Program.gives_act_bind.mp looked with ⟨cause, failed, -⟩ | ⟨found, _, rest, rfl, asked, told⟩
  · obtain ⟨_, -, impossible⟩ := Program.gives_program.mp failed
    cases impossible
  rw [Program.gives_program_ok, Program.gives_getPair] at asked
  subst asked
  have later : ⟨.keepPair id pair, .ok ()⟩ ∈ rest := by simpa using member
  split at told
  · exact kept_of_pure told id pair later
  · split at told
    · exact kept_of_generateDefault told id pair later
    · exact kept_of_pure told id pair later
  · exact kept_of_pure told id pair later

theorem kept_of_publicKey {name : Option String} {result : Except Error String}
    (given : (publicKey S e name).run.Gives events result) {id : String} {pair : KeyPair}
    (member : ⟨.keepPair id pair, .ok ()⟩ ∈ events) : result = .ok pair.publicKey := by
  rcases Program.gives_act_bind.mp given with ⟨cause, failed, rfl⟩ | ⟨found, _, _, rfl, looked, rest⟩
  · exact nomatch (kept_of_resolve failed id pair member).1
  · obtain ⟨rfl, rfl⟩ := Program.gives_pure.mp rest
    rw [List.append_nil] at member
    rw [Except.ok.inj (kept_of_resolve looked id pair member).1]

section

variable {C E σ : Type} [DecidableEq C] [DecidableEq E] {B : KeyPair.Backend σ} {valid : σ → Prop}
  {owner : C → E} {origin state : Shared σ E} {history : History C}
  {pool : Pool fun _ : C => Except Error String}

def Kept (history : History C) (id : String) (pair : KeyPair) : Prop :=
  ∃ c, (c, ⟨.keepPair id pair, .ok ()⟩) ∈ history

variable (isMap : B.IsMap valid) (inside : valid origin.pairs)
  (missing : ∀ pair, B.find origin.pairs e.defaultId ≠ .ok pair)
  (run : Run (Shared.Step B owner) (fun _ => (publicKey S e none).run) origin history pool state)

include isMap inside missing run

theorem kept_of_found :
    (∀ pair, B.find state.pairs e.defaultId = .ok pair → Kept history e.defaultId pair) ∧
      ∀ c pair, (c, ⟨.findPair e.defaultId, .ok pair⟩) ∈ history →
        Kept history e.defaultId pair := by
  obtain ⟨-, held, found⟩ := Shared.holds isMap run inside
    (P := fun id pair => id = e.defaultId → Kept history id pair)
    (fun id pair there same => absurd there (same ▸ missing pair))
    fun c id pair member _ => ⟨c, member⟩
  exact ⟨fun pair there => held _ pair there rfl, fun c pair member => found c _ pair member rfl⟩

theorem kept_of_answer {c : C} {text : String} (ended : pool c = .done (.ok text)) :
    ∃ pair, Kept history e.defaultId pair ∧ pair.publicKey = text := by
  obtain ⟨pair, resolved, named⟩ := gives_publicKey.mp (run.gives ended)
  refine ⟨pair, ?_, named⟩
  rcases (gives_resolve.mp resolved).1.sees with looked | made
  · exact (kept_of_found isMap inside missing run).2 c pair (mem_own.mp looked)
  · exact ⟨c, mem_own.mp made⟩

/-- Engines that share a store without the default pair ask for it, as often and in whatever order,
until every call has ended. All answers are the public key that the store has in the end, if and
only if all pairs that were kept on the way have the same public key. -/
theorem first_use_iff (ended : ∀ c, ∃ result, pool c = .done result) :
    (∀ c text, pool c = .done (.ok text) →
        ∃ pair, B.find state.pairs e.defaultId = .ok pair ∧ pair.publicKey = text) ↔
      ∀ pair pair', Kept history e.defaultId pair → Kept history e.defaultId pair' →
        pair.publicKey = pair'.publicKey := by
  constructor
  · intro agree pair pair' kept kept'
    -- Whoever kept a pair answers with it, and all answers are what the store has.
    have told : ∀ {pair}, Kept history e.defaultId pair →
        ∃ final, B.find state.pairs e.defaultId = .ok final ∧ final.publicKey = pair.publicKey := by
      rintro pair ⟨c, member⟩
      obtain ⟨result, done⟩ := ended c
      have given := kept_of_publicKey (run.gives done) (mem_own.mpr member)
      exact agree c _ (given ▸ done)
    obtain ⟨final, there, same⟩ := told kept
    obtain ⟨final', there', same'⟩ := told kept'
    obtain rfl := Except.ok.inj (there.symm.trans there')
    exact same.symm.trans same'
  · intro single c text done
    obtain ⟨pair, ⟨c', member⟩, rfl⟩ := kept_of_answer isMap inside missing run done
    obtain ⟨final, there⟩ := Shared.there_of_kept isMap run inside member
    have kept := (kept_of_found isMap inside missing run).1 final there
    exact ⟨final, there, single final pair kept ⟨c', member⟩⟩

end

open KeyPair.Backend (memory)

def plain : Engine := ⟨.elliptic, "default"⟩

def making (seed : RandomBytes 48) : List Event :=
  [⟨.findPair "default", .error (.missing "default")⟩, ⟨.enter, ()⟩,
    ⟨.findPair "default", .error (.missing "default")⟩, ⟨.random 48, seed⟩]

def keeping (pair : KeyPair) : List Event := [⟨.keepPair "default" pair, .ok ()⟩, ⟨.leave, ()⟩]

theorem gives_making (S : Suite) (seed : RandomBytes 48) :
    (publicKey S plain none).run.Gives
      (making seed ++ keeping (curvePair S (S.curve.secretOf seed.val)))
      (.ok (curvePair S (S.curve.secretOf seed.val)).publicKey) := by
  refine gives_publicKey.mpr ⟨_, gives_resolve.mpr ⟨?_, rfl⟩, rfl⟩
  exact .made rfl ⟨"default", rfl⟩ ⟨"default", rfl⟩ (gives_fresh_elliptic.mpr ⟨seed, rfl, rfl⟩)

variable {C E : Type} [DecidableEq E] {owner : C → E} {s : Shared (Table String KeyPair) E} {c : C}

theorem steps_making (missing : memory.find s.pairs "default" = .error (.missing "default"))
    (free : s.busy (owner c) = false) (seed : RandomBytes 48) :
    Steps (Shared.Step memory owner) c s (making seed)
      { s with busy := Function.update s.busy (owner c) true } :=
  .cons (.looked missing) (.cons (.enter free) (.cons (.looked missing) (.cons (.other trivial)
    (.nil _))))

theorem steps_keeping (pair : KeyPair) :
    Steps (Shared.Step memory owner) c s (keeping pair)
      ⟨s.pairs.insert "default" pair, Function.update s.busy (owner c) false⟩ :=
  .cons (.keep rfl) (.cons (.leave ..) (.nil _))

/-- While one engine makes a pair, another one may make its own, and each answers with the pair that
it made. -/
theorem answers_of_two (S : Suite) (seed seed' : RandomBytes 48) :
    ∃ history pool state, Run (Shared.Step memory fun engine : Bool => engine)
        (fun _ => (publicKey S plain none).run) ⟨.empty, fun _ => false⟩ history pool state ∧
      pool false = .done (.ok (curvePair S (S.curve.secretOf seed.val)).publicKey) ∧
      pool true = .done (.ok (curvePair S (S.curve.secretOf seed'.val)).publicKey) := by
  obtain ⟨middle, first, second⟩ := Program.leads_append.mp (gives_making S seed)
  have begun : Run (Shared.Step memory fun engine : Bool => engine)
      (fun _ : Bool => (publicKey S plain none).run) ⟨.empty, fun _ => false⟩ [] _ _ := .start
  have one := begun.extend (i := false) first (steps_making rfl rfl seed)
  have other := one.extend (i := true)
    (by rw [Function.update_of_ne (by simp)]; exact gives_making S seed')
    ((steps_making rfl rfl seed').append (steps_keeping _))
  have both := other.extend (i := false)
    (by rw [Function.update_of_ne (by simp), Function.update_self]; exact second) (steps_keeping _)
  refine ⟨_, _, _, both, Function.update_self .., ?_⟩
  rw [Function.update_of_ne (by simp), Function.update_self]

open Suite (small)

theorem first_use_iff_of_two : ∃ (history : History Bool)
    (pool : Pool fun _ : Bool => Except Error String)
    (state : Shared (Table String KeyPair) Bool),
    Run (Shared.Step memory fun engine : Bool => engine)
      (fun _ => (publicKey small plain none).run) ⟨.empty, fun _ => false⟩ history pool state ∧
    ((∀ c text, pool c = .done (.ok text) →
        ∃ pair, memory.find state.pairs plain.defaultId = .ok pair ∧ pair.publicKey = text) ↔
      ∀ pair pair', Kept history plain.defaultId pair → Kept history plain.defaultId pair' →
        pair.publicKey = pair'.publicKey) := by
  obtain ⟨history, pool, state, run, told, told'⟩ := answers_of_two small
    ⟨List.replicate 48 2, List.length_replicate⟩ ⟨List.replicate 48 3, List.length_replicate⟩
  have missing : ∀ pair, memory.find (.empty : Table String KeyPair) plain.defaultId ≠ .ok pair := by
    simp [memory, KeyPair.orMissing]
  refine ⟨history, pool, state, run,
    first_use_iff KeyPair.Backend.memory_isMap trivial missing run ?_⟩
  rintro (_ | _)
  · exact ⟨_, told⟩
  · exact ⟨_, told'⟩

/-- Two engines begin with an empty store, and tell two different public keys. -/
theorem first_use_diverges : ∃ (history : History Bool)
    (pool : Pool fun _ : Bool => Except Error String)
    (state : Shared (Table String KeyPair) Bool) (text text' : String),
    Run (Shared.Step memory fun engine : Bool => engine)
      (fun _ => (publicKey small plain none).run) ⟨.empty, fun _ => false⟩ history pool state ∧
    pool false = .done (.ok text) ∧ pool true = .done (.ok text') ∧ text ≠ text' := by
  obtain ⟨history, pool, state, run, told, told'⟩ := answers_of_two small
    ⟨List.replicate 48 2, List.length_replicate⟩ ⟨List.replicate 48 3, List.length_replicate⟩
  exact ⟨history, pool, state, _, _, run, told, told', by decide⟩

end KeyService.Engine
