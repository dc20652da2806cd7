import KeyService.Proofs.Exchange.Completion
import KeyService.Proofs.Gateway.Marked
import KeyService.Proofs.Http.Naming

/-! Which settings a gateway can start with.
The check of the settings compares the two chosen paths with each other, letter by letter, and
looks at the id of the default pair only for being blank. The router has routes at fixed paths
besides, and takes no two patterns that differ in names only; a store takes few texts as ids. -/
namespace KeyService

open Http (Pattern)

namespace Router

/-- A router that has the first of two routes takes the second one as well. -/
def Compatible (r s : String × Route) : Prop :=
  if r.1 = s.1 then ∀ m ∈ r.2.methods, m ∉ s.2.methods
  else ∀ p q, Pattern.parse? r.1 = some p → Pattern.parse? s.1 = some q → q.clashes p = false

variable {t : Router} {path : String} {route : Route}

theorem Sound.compatible (sound : Sound t) {place : Place} (member : place ∈ t)
    (free : ∀ r ∈ place.routes, ∀ m ∈ r.methods, m ∉ route.methods) {other : String} {r : Route}
    (has : Has t other r) : Compatible (other, r) (place.path, route) := by
  obtain ⟨p, old, rfl, inside⟩ := has
  unfold Compatible
  split
  · rename_i same
    obtain rfl := List.inj_on_of_nodup_map sound.named old member same
    exact free r inside
  · rename_i differ
    intro pattern pattern' parsed parsed'
    obtain rfl := Option.some.inj ((sound.parsed p old).symm.trans parsed)
    obtain rfl := Option.some.inj ((sound.parsed place member).symm.trans parsed')
    exact sound.unlike member old fun same => differ (congrArg Place.path same).symm

theorem add_ok_iff (sound : Sound t) : (∃ t', t.add path route = .ok t') ↔
    (Pattern.parse? path).isSome ∧ ∀ other r, Has t other r → Compatible (other, r) (path, route) := by
  unfold add
  split
  · rename_i place found
    have member := List.mem_of_find?_eq_some found
    obtain rfl : place.path = path := by simpa using List.find?_some found
    rw [sound.parsed place member]
    split
    · rename_i taken
      refine iff_of_false nofun fun both => ?_
      obtain ⟨r, inside, m, takes, takes'⟩ : ∃ r ∈ place.routes, ∃ m ∈ r.methods, m ∈ route.methods := by
        simpa using taken
      have apart := both.2 _ r ⟨place, member, rfl, inside⟩
      rw [Compatible, if_pos rfl] at apart
      exact apart m takes takes'
    · rename_i free
      refine iff_of_true ⟨_, rfl⟩ ⟨rfl, fun other r has => ?_⟩
      exact sound.compatible member (by simpa using free) has
  · rename_i missing
    have new : ∀ p ∈ t, p.path ≠ path := by simpa using missing
    cases parsed : Pattern.parse? path with
    | none => exact iff_of_false nofun nofun
    | some pattern =>
      simp only
      split
      · rename_i other found
        have member := List.mem_of_find?_eq_some found
        refine iff_of_false nofun fun both => ?_
        obtain ⟨r, inside⟩ := sound.serves other member
        have apart := both.2 _ r ⟨other, member, rfl, inside⟩
        rw [Compatible, if_neg (new other member)] at apart
        have clash : pattern.clashes other.pattern = true := by simpa using List.find?_some found
        exact Bool.false_ne_true ((apart _ _ (sound.parsed other member) parsed).symm.trans clash)
      · rename_i alone
        refine iff_of_true ⟨_, rfl⟩ ⟨rfl, fun other r has => ?_⟩
        obtain ⟨p, member, rfl, -⟩ := has
        rw [Compatible, if_neg (new p member)]
        intro q q' parsedOther parsedPath
        obtain rfl := Option.some.inj ((sound.parsed p member).symm.trans parsedOther)
        obtain rfl := Option.some.inj (parsed.symm.trans parsedPath)
        simpa using List.find?_eq_none.mp alone p member

theorem foldlM_ok_iff {routes : List (String × Route)} (sound : Sound t) :
    (∃ t', routes.foldlM (fun t r => add t r.1 r.2) t = .ok t') ↔
      (∀ r ∈ routes, (Pattern.parse? r.1).isSome) ∧ routes.Pairwise Compatible ∧
        ∀ r ∈ routes, ∀ other s, Has t other s → Compatible (other, s) r := by
  induction routes generalizing t with
  | nil => exact iff_of_true ⟨t, rfl⟩ (by simp)
  | cons r routes ih =>
    simp only [List.foldlM_cons, Attempt.bind_ok]
    constructor
    · rintro ⟨t', t₁, added, rest⟩
      obtain ⟨parsed, compatible⟩ := (add_ok_iff sound).mp ⟨t₁, added⟩
      obtain ⟨sound₁, has₁⟩ := sound_add sound added
      obtain ⟨parsed', apart, others⟩ := (ih sound₁).mp ⟨t', rest⟩
      refine ⟨List.forall_mem_cons.mpr ⟨parsed, parsed'⟩, List.pairwise_cons.mpr ⟨?_, apart⟩,
        List.forall_mem_cons.mpr ⟨compatible, ?_⟩⟩
      · intro s later
        exact others s later _ _ ((has₁ _ _).mpr (.inr ⟨rfl, rfl⟩))
      · intro s later other s' has
        exact others s later _ _ ((has₁ _ _).mpr (.inl has))
    · rintro ⟨parsed, apart, others⟩
      obtain ⟨parsed, parsed'⟩ := List.forall_mem_cons.mp parsed
      obtain ⟨first, apart⟩ := List.pairwise_cons.mp apart
      obtain ⟨compatible, others⟩ := List.forall_mem_cons.mp others
      obtain ⟨t₁, added⟩ := (add_ok_iff sound).mpr ⟨parsed, compatible⟩
      obtain ⟨sound₁, has₁⟩ := sound_add sound added
      obtain ⟨t', rest⟩ := (ih sound₁).mpr ⟨parsed', apart, fun s later other s' has => by
        rcases (has₁ _ _).mp has with before | ⟨rfl, rfl⟩
        · exact others s later _ _ before
        · exact first s later⟩
      exact ⟨t', t₁, added, rest⟩

/-- The routes at the paths that nobody chooses. -/
def fixedPlan : List (String × Route) :=
  [("/secure/echo", .secureEcho), ("/local/encrypt", .localEncrypt),
    ("/local/decrypt", .localDecrypt), ("/health", .health)]

variable {negotiationPath publicKeyPath : String}

theorem plan_eq (negotiationPath publicKeyPath : String) : plan negotiationPath publicKeyPath =
    (negotiationPath, .negotiate) :: (publicKeyPath, .publicKey) :: fixedPlan := rfl

theorem build_ok_iff : (∃ t, build negotiationPath publicKeyPath = .ok t) ↔
    (∀ r ∈ plan negotiationPath publicKeyPath, (Pattern.parse? r.1).isSome) ∧
      (plan negotiationPath publicKeyPath).Pairwise Compatible := by
  rw [build_eq, foldlM_ok_iff sound_nil]
  have nothing : ∀ r ∈ plan negotiationPath publicKeyPath, ∀ other s, Has [] other s →
      Compatible (other, s) r := by
    rintro r - other s ⟨p, member, -⟩
    cases member
  simp only [and_iff_left nothing]

/-- The fixed routes are compatible with each other, since the usual router is built. -/
theorem compatible_fixed : (∀ r ∈ fixedPlan, (Pattern.parse? r.1).isSome) ∧
    fixedPlan.Pairwise Compatible := by
  obtain ⟨t, built⟩ : ∃ t, build "/security/negotiate" "/security/publicKey" = .ok t := by
    cases built : build "/security/negotiate" "/security/publicKey" with
    | ok t => exact ⟨t, rfl⟩
    | error cause =>
      have fine : (build "/security/negotiate" "/security/publicKey").isOk = true := by decide
      rw [built] at fine
      cases fine
  obtain ⟨parsed, apart⟩ := build_ok_iff.mp ⟨t, built⟩
  rw [plan_eq] at parsed apart
  refine ⟨fun r member => parsed r (.tail _ (.tail _ member)), ?_⟩
  exact (List.pairwise_cons.mp (List.pairwise_cons.mp apart).2).2

/-- A route at a chosen path gets in the way of a fixed one only at the same path. -/
theorem compatible_with_fixed (starless : Pattern.Starless path) {s : String × Route}
    (fixed : s ∈ fixedPlan) :
    Compatible (path, route) s ↔ (path = s.1 → ∀ m ∈ route.methods, m ∉ s.2.methods) := by
  unfold Compatible
  by_cases same : path = s.1
  · simp [same]
  · have fixedPath : s.1 ∈ fixedPaths := List.mem_map_of_mem (f := Prod.fst) fixed
    rw [if_neg same]
    refine iff_of_true ?_ fun equal => absurd equal same
    intro p q parsed parsed'
    by_contra clash
    have spells := Pattern.spells_of_parse? starless parsed
    have spells' := Pattern.spells_of_parse? (literal_of_fixed fixedPath).starless parsed'
    obtain rfl := (Pattern.clashes_iff spells'.noRest spells.noRest).mp (by simpa using clash)
    exact same (Gateway.eq_of_fixed fixedPath parsed' spells.fits)

/-- The fixed paths with a route that takes a method of this one. -/
def taken (route : Route) : List String :=
  (fixedPlan.filter fun s => route.methods.any (· ∈ s.2.methods)).map Prod.fst

theorem compatible_with_all (starless : Pattern.Starless path) :
    (∀ s ∈ fixedPlan, Compatible (path, route) s) ↔ path ∉ taken route := by
  constructor
  · intro compatible member
    obtain ⟨s, inside, rfl⟩ := List.mem_map.mp member
    obtain ⟨fixed, both⟩ := List.mem_filter.mp inside
    obtain ⟨m, takes, takes'⟩ : ∃ m ∈ route.methods, m ∈ s.2.methods := by simpa using both
    exact (compatible_with_fixed starless fixed).mp (compatible s fixed) rfl m takes takes'
  · intro free s fixed
    refine (compatible_with_fixed starless fixed).mpr ?_
    rintro rfl m takes takes'
    refine free (List.mem_map_of_mem (List.mem_filter.mpr ⟨fixed, ?_⟩))
    exact List.any_eq_true.mpr ⟨m, takes, decide_eq_true takes'⟩

/-- Two routes at different paths go together unless the paths differ in names only. -/
theorem compatible_iff_shape {other : String} {route' : Route} (starless : Pattern.Starless path)
    (starless' : Pattern.Starless other) (parsed : (Pattern.parse? path).isSome)
    (parsed' : (Pattern.parse? other).isSome) (differ : path ≠ other) :
    Compatible (path, route) (other, route') ↔ Pattern.shape path ≠ Pattern.shape other := by
  obtain ⟨p, parsed⟩ := Option.isSome_iff_exists.mp parsed
  obtain ⟨q, parsed'⟩ := Option.isSome_iff_exists.mp parsed'
  have clash := Pattern.clashes_iff_shape starless starless' parsed parsed'
  rw [Compatible, if_neg differ, Ne, ← clash, Bool.not_eq_true, Pattern.clashes_comm]
  constructor
  · exact fun apart => apart p q parsed parsed'
  · intro apart p' q' same same'
    obtain rfl := Option.some.inj (parsed.symm.trans same)
    obtain rfl := Option.some.inj (parsed'.symm.trans same')
    exact apart

end Router

namespace Config

open Exchange (Chance Host)
open Exchange.Host (alone)
open KeyPair.Backend (memory)

variable {S : Suite} {c : Config}

/-- What the routes and the id of the default pair have to be, besides what the check asks for. -/
structure Startable (c : Config) : Prop where
  exchangeNames : Pattern.WellNamed c.negotiationPath
  keyNames : Pattern.WellNamed c.publicKeyPath
  unlike : Pattern.shape c.negotiationPath ≠ Pattern.shape c.publicKeyPath
  exchangeFree : c.negotiationPath ∉ ["/secure/echo", "/local/encrypt", "/local/decrypt"]
  keyFree : c.publicKeyPath ∉ Router.fixedPaths
  isId : KeyPair.isId c.defaultPairId = true

def engine (c : Config) : Engine := ⟨.elliptic, c.defaultPairId⟩

variable (S) in
/-- The router is built, and with a store of pairs in memory, which is empty at first, the default
pair is made and kept, and its public key is told. -/
structure Starts (c : Config) : Prop where
  routed : ∃ t, Router.build c.negotiationPath c.publicKeyPath = .ok t
  ready : ∀ (chance : Chance) (h : Host (Table String KeyPair)), h.pairs = .empty →
    ∃ pair h', (Engine.publicKey S c.engine none).run.run (alone memory chance) h =
      (.ok pair.publicKey, h') ∧ memory.find h'.pairs c.defaultPairId = .ok pair

theorem routed_iff (accepted : c.check = .ok ()) :
    (∃ t, Router.build c.negotiationPath c.publicKeyPath = .ok t) ↔
      (Pattern.WellNamed c.negotiationPath ∧ Pattern.WellNamed c.publicKeyPath) ∧
        Pattern.shape c.negotiationPath ≠ Pattern.shape c.publicKeyPath ∧
        c.negotiationPath ∉ Router.taken .negotiate ∧ c.publicKeyPath ∉ Router.taken .publicKey := by
  have checked := check_iff.mp accepted
  obtain ⟨absolute, starless⟩ := checkPath_ok.mp checked.exchange
  obtain ⟨absolute', starless'⟩ := checkPath_ok.mp checked.key
  have named := Pattern.parse?_isSome absolute starless
  have named' := Pattern.parse?_isSome absolute' starless'
  obtain ⟨fixed, apart⟩ := Router.compatible_fixed
  rw [Router.build_ok_iff, Router.plan_eq, ← named, ← named', ← Router.compatible_with_all starless,
    ← Router.compatible_with_all starless']
  simp only [List.forall_mem_cons, List.pairwise_cons, and_iff_left fixed, and_iff_left apart, and_assoc]
  refine and_congr_right fun parsed => and_congr_right fun parsed' => ?_
  rw [Router.compatible_iff_shape starless starless' parsed parsed' checked.differ]

variable {chance : Chance} {h h' : Host (Table String KeyPair)} {events : List Event}

theorem ids_of_answers (answers : (alone memory chance).Answers h events h')
    (ids : ∀ id pair, memory.find h.pairs id = .ok pair → KeyPair.isId id = true) :
    ∀ id pair, memory.find h'.pairs id = .ok pair → KeyPair.isId id = true := by
  refine answers.keeps
    (fun h => ∀ id pair, memory.find h.pairs id = .ok pair → KeyPair.isId id = true)
    (fun ⟨question, answer⟩ _ h h' same ids => ?_) ids
  rw [alone, Surroundings.answer_ofAnswers] at same
  cases question with
  | keepPair name made =>
    simp only [Host.answer] at same
    split at same
    · rename_i pairs kept
      obtain ⟨-, rfl⟩ := Prod.mk.inj same
      intro id pair found
      by_cases new : id = name
      · rw [new]
        exact (KeyPair.Backend.ok_of_checkId kept).1
      · rw [KeyPair.Backend.memory_isMap.find_other trivial kept new] at found
        exact ids id pair found
    · obtain ⟨-, rfl⟩ := Prod.mk.inj same
      exact ids
  | _ =>
    obtain ⟨-, rfl⟩ := Prod.mk.inj same
    exact ids

theorem keep_memory {id : String} (isId : KeyPair.isId id = true) (pair : KeyPair) :
    memory.keep .empty id pair = .ok (Table.insert .empty id pair) := by
  simp only [memory, KeyPair.checkId, if_pos isId]
  rfl

/-- The first call for the default public key makes the pair, if a store takes the id. -/
theorem ready_of_isId {e : Engine} (elliptic : e.algorithm = .elliptic) (empty : h.pairs = .empty)
    (isId : KeyPair.isId e.defaultId = true) :
    ∃ pair h', (Engine.publicKey S e none).run.run (alone memory chance) h = (.ok pair.publicKey, h') ∧
      memory.find h'.pairs e.defaultId = .ok pair := by
  obtain ⟨ticks, pairs, sessions⟩ := h
  obtain rfl : pairs = .empty := empty
  let seed := chance.draw ticks 48
  let pair := Engine.curvePair S (S.curve.secretOf seed.val)
  have drawn : (Engine.fresh S e.algorithm).run.Gives [⟨.random 48, seed⟩] (.ok pair) := by
    rw [elliptic]
    exact Engine.gives_fresh_elliptic.mpr ⟨seed, rfl, rfl⟩
  have family : pair.algorithm = e.algorithm.family := by
    rw [elliptic]
    rfl
  have resolved : (Engine.resolve S e none).run.Gives _ (.ok pair) :=
    Engine.gives_resolve.mpr ⟨.made rfl ⟨e.defaultId, rfl⟩ ⟨e.defaultId, rfl⟩ drawn, family⟩
  have given := Engine.gives_publicKey.mpr ⟨pair, resolved, rfl⟩
  let kept : Host (Table String KeyPair) := ⟨ticks + 1, Table.insert .empty e.defaultId pair, sessions⟩
  have keeping : (alone memory chance).answer (.keepPair e.defaultId pair)
      ⟨ticks + 1, .empty, sessions⟩ = (.ok (), kept) := by
    rw [alone, Surroundings.answer_ofAnswers]
    simp only [Host.answer, keep_memory isId]
    rfl
  refine ⟨pair, kept, Program.run_eq_of_gives given ?_, ?_⟩
  · exact .cons rfl (.cons rfl (.cons rfl (.cons rfl (.cons keeping (.cons rfl (.nil kept))))))
  · exact KeyPair.Backend.memory_isMap.find_kept trivial (keep_memory isId pair)

theorem starts_iff (accepted : c.check = .ok ()) : c.Starts S ↔ c.Startable := by
  constructor
  · intro starts
    obtain ⟨⟨named, named'⟩, unlike, free, free'⟩ := (routed_iff accepted).mp starts.routed
    refine ⟨named, named', unlike, free, free', ?_⟩
    let chance : Chance := ⟨fun _ => 0, fun _ n => ⟨List.replicate n 0, List.length_replicate⟩⟩
    obtain ⟨pair, h', told, found⟩ := starts.ready chance ⟨0, .empty, .empty⟩ rfl
    obtain ⟨events, -, answers⟩ :=
      Program.gives_of_run (w := alone memory chance) (Engine.publicKey S c.engine none).run ⟨0, .empty, .empty⟩
    rw [told] at answers
    exact ids_of_answers answers (fun _ _ found => nomatch found) _ _ found
  · intro startable
    refine ⟨(routed_iff accepted).mpr ⟨⟨startable.exchangeNames, startable.keyNames⟩,
      startable.unlike, startable.exchangeFree, startable.keyFree⟩, fun chance h empty => ?_⟩
    exact ready_of_isId rfl empty startable.isId

/-- The usual settings start. -/
theorem starts_usual : ∃ c : Config, c.check = .ok () ∧ c.Starts Suite.small := by
  let c := Gateway.settings "/security/negotiate" "/security/publicKey"
  have accepted : c.check = .ok () := by decide
  refine ⟨c, accepted, (starts_iff accepted).mpr ⟨?_, ?_, ?_, ?_, ?_, ?_⟩⟩
  · exact ⟨by decide, by decide⟩
  · exact ⟨by decide, by decide⟩
  · decide
  · decide
  · decide
  · decide

/-- The check accepts settings in which the exchange has the path of the echo. -/
theorem accepted_unstartable : ∃ c : Config, c.check = .ok () ∧
    Router.build c.negotiationPath c.publicKeyPath = .error (.sameMethod "/secure/echo") ∧
    ¬ c.Starts Suite.small := by
  have failed : Router.build "/secure/echo" "/security/publicKey" =
      .error (.sameMethod "/secure/echo") := by decide
  refine ⟨Gateway.settings "/secure/echo" "/security/publicKey", by decide, failed, ?_⟩
  intro starts
  obtain ⟨t, built⟩ := starts.routed
  cases failed.symm.trans built

end Config

end KeyService
