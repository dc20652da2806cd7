import KeyService.Proofs.Engine.FirstUse
import KeyService.Proofs.Engine.Operation
import KeyService.Proofs.Program.Guarded

/-! One engine makes its default pair once.
Callers look for the pair before they wait for each other, and look again when their turn has come.
As they all wait for the same lock, nobody can keep a pair between such a second look and the
write that follows it. -/
namespace KeyService.Engine

open Program (Guarded Position guarded_act_bind guarded_bind guarded_of_draws guarded_pure)

variable {S : Suite} {e : Engine}

theorem generate_guarded :
    (generate S e e.defaultId).run.Guarded e.defaultId (· ≠ .outside) .missed := by
  have ready : (fresh S e.algorithm).run.Guarded e.defaultId (· = .missed) .missed :=
    guarded_of_draws (asks_fresh (fun count => ⟨count, rfl⟩) _) rfl
  apply guarded_act_bind ready
  · intro position missed
    simp [missed]
  · rintro pair _ rfl
    have kept : (keep e.defaultId pair).run.Guarded e.defaultId (· = .inside) .missed :=
      ⟨rfl, fun _ => rfl⟩
    apply guarded_act_bind kept
    · intro position inside
      simp [inside]
    · rintro _ _ rfl
      exact guarded_pure (by simp)

theorem generateDefault_guarded :
    (generateDefault S e).run.Guarded e.defaultId (· = .outside) .outside := by
  apply Program.guarded_alone
  refine ⟨trivial, fun found => ?_⟩
  cases found with
  | ok pair => exact guarded_pure (by simp [Position.after, Position.isMissing])
  | error cause =>
    cases cause with
    | missing name =>
      have missed : Position.after e.defaultId .inside
          ⟨.findPair e.defaultId, .error (.missing name)⟩ = .missed := by
        simp [Position.after, Position.isMissing]
      rw [missed]
      exact generate_guarded
    | badId name => exact guarded_pure (by simp [Position.after, Position.isMissing])
    | storage detail => exact guarded_pure (by simp [Position.after, Position.isMissing])

theorem resolve_guarded (id : Option String) :
    (resolve S e id).run.Guarded e.defaultId (· = .outside) .outside := by
  have looked : (liftM (Program.getPair (id.getD e.defaultId)) :
      Act (Except KeyPair.Error KeyPair)).run.Guarded e.defaultId (· = .outside) .outside :=
    ⟨trivial, fun _ => guarded_pure (by simp [Position.after])⟩
  unfold resolve
  refine guarded_act_bind (R := (· = .outside)) (guarded_act_bind looked ?_ ?_) ?_ ?_
  · exact fun _ outside => outside
  · rintro found _ rfl
    split
    · exact guarded_pure rfl
    · split
      · exact generateDefault_guarded
      · exact guarded_pure rfl
    · exact guarded_pure rfl
  · exact fun _ outside => outside
  · rintro pair _ rfl
    exact guarded_pure rfl

/-- No use of a pair, under whatever id, keeps a pair but the default pair, and that only after it
was missed under the lock. -/
theorem use_guarded (u : Use S) (id : Option String) :
    (u.act e id).run.Guarded e.defaultId (· = .outside) .outside := by
  by_cases allowed : u.Allowed e
  · obtain ⟨finish, same, finishes⟩ := u.act_eq allowed id
    rw [same]
    apply guarded_act_bind (resolve_guarded id)
    · exact fun _ outside => outside
    · rintro pair _ rfl
      exact guarded_of_draws (finishes.draws pair) rfl
  · rw [u.act_refused allowed]
    exact guarded_pure rfl

/-- At most one caller is inside, and then the lock is taken. -/
structure Locked {C : Type} (positions : C → Position) (busy : Bool) : Prop where
  taken : ∀ c, positions c ≠ .outside → busy = true
  alone : ∀ c c', positions c ≠ .outside → positions c' ≠ .outside → c = c'

section

variable {C : Type} [DecidableEq C] {positions : C → Position} {c : C}

theorem Locked.enter (locked : Locked positions false) (position : Position) :
    Locked (Function.update positions c position) true := by
  have free : ∀ c', positions c' = .outside := by
    intro c'
    by_contra inside
    exact Bool.false_ne_true (locked.taken c' inside)
  have only : ∀ c', Function.update positions c position c' ≠ .outside → c' = c := by
    intro c' inside
    by_contra other
    rw [Function.update_of_ne other] at inside
    exact inside (free c')
  constructor
  · intro _ _
    rfl
  · intro c₁ c₂ inside₁ inside₂
    exact (only c₁ inside₁).trans (only c₂ inside₂).symm

theorem Locked.leave {busy : Bool} (locked : Locked positions busy)
    (inside : positions c ≠ .outside) : Locked (Function.update positions c .outside) false := by
  have none : ∀ c', Function.update positions c .outside c' = .outside := by
    intro c'
    by_cases same : c' = c
    · simp [same]
    · rw [Function.update_of_ne same]
      by_contra other
      exact same (locked.alone c' c other inside)
  constructor
  · intro c' inside'
    exact absurd (none c') inside'
  · intro c' _ inside' _
    exact absurd (none c') inside'

theorem Locked.stay {busy : Bool} {position : Position} (locked : Locked positions busy)
    (stays : position ≠ .outside → positions c ≠ .outside) :
    Locked (Function.update positions c position) busy := by
  have before : ∀ c', Function.update positions c position c' ≠ .outside →
      positions c' ≠ .outside := by
    intro c' inside
    by_cases same : c' = c
    · subst same
      rw [Function.update_self] at inside
      exact stays inside
    · rwa [Function.update_of_ne same] at inside
  constructor
  · intro c' inside
    exact locked.taken c' (before c' inside)
  · intro c₁ c₂ inside₁ inside₂
    exact locked.alone c₁ c₂ (before c₁ inside₁) (before c₂ inside₂)

end

section

variable {C σ : Type} [DecidableEq C] {B : KeyPair.Backend σ} {valid : σ → Prop} {id : String}
  {origin state s s' : Shared σ Unit} {history : History C} {c : C} {event : Event}

/-- Where a caller stands after a history. -/
def stand (id : String) (history : History C) (c : C) : Position :=
  Position.reached id (own c history)

theorem stand_snoc : stand id (history ++ [(c, event)]) =
    Function.update (stand id history) c ((stand id history c).after id event) := by
  funext c'
  by_cases same : c' = c
  · subst same
    rw [Function.update_self, stand, own_snoc, if_pos rfl, Position.reached_snoc]
    rfl
  · rw [Function.update_of_ne same, stand, own_snoc, if_neg (Ne.symm same), List.append_nil]
    rfl

/-- A pair was to be kept under an id. -/
def sets (id : String) : C × Event → Bool
  | (_, ⟨.keepPair name _, _⟩) => name = id
  | _ => false

/-- A pair was kept under an id. -/
def stores (id : String) : C × Event → Bool
  | (_, ⟨.keepPair name _, .ok ()⟩) => name = id
  | _ => false

omit [DecidableEq C] in
theorem stores_iff {entry : C × Event} :
    stores id entry = true ↔ ∃ pair, entry.2 = ⟨.keepPair id pair, .ok ()⟩ := by
  obtain ⟨c, question, answer⟩ := entry
  cases question with
  | keepPair name pair => cases answer <;> simp [stores]
  | _ => simp [stores]

/-- What callers of one engine rely on: who missed the pair under the lock may count on it that it
is still missing, and who has had a pair may count on it that it is still there. -/
structure Orderly (B : KeyPair.Backend σ) (id : String) (history : History C)
    (s : Shared σ Unit) : Prop where
  locked : Locked (stand id history) (s.busy ())
  missed : ∀ c pair, stand id history c = .missed → B.find s.pairs id ≠ .ok pair
  seen : ∀ c pair, Sees id pair (own c history) → B.find s.pairs id = .ok pair
  once : history.countP (stores id) ≤ 1

theorem Locked.step (locked : Locked (stand id history) (s.busy ()))
    (step : Shared.Step B (fun _ => ()) s c event s')
    (allowed : (stand id history c).Allows id event.1) :
    Locked (stand id (history ++ [(c, event)])) (s'.busy ()) := by
  rw [stand_snoc]
  cases step with
  | enter free =>
    rw [free] at locked
    simp only [Function.update_self]
    exact locked.enter .inside
  | leave =>
    simp only [Function.update_self]
    apply locked.leave
    intro outside
    rw [outside] at allowed
    exact allowed
  | other elsewhere =>
    refine locked.stay (Position.inside_of_after fun entered => ?_)
    rw [entered] at elsewhere
    exact elsewhere
  | _ => exact locked.stay (Position.inside_of_after (by simp))

theorem missed_of_keep {name : String} {pair : KeyPair}
    (allowed : (stand id history c).Allows id (.keepPair name pair)) :
    stand id history c = .missed ∧ name = id := by
  generalize stand id history c = position at allowed
  cases position with
  | outside => exact allowed.elim
  | inside => exact allowed.elim
  | missed => exact ⟨rfl, allowed⟩

theorem sees_snoc {c' : C} {pair : KeyPair}
    (sees : Sees id pair (own c' (history ++ [(c, event)]))) :
    Sees id pair (own c' history) ∨ event = ⟨.findPair id, .ok pair⟩ ∨
      event = ⟨.keepPair id pair, .ok ()⟩ := by
  rw [own_snoc] at sees
  by_cases same : c = c'
  · rw [if_pos same] at sees
    simp only [Sees, List.mem_append, List.mem_singleton] at sees
    rcases sees with (looked | now) | (kept | now)
    · exact .inl (.inl looked)
    · exact .inr (.inl now.symm)
    · exact .inl (.inr kept)
    · exact .inr (.inr now.symm)
  · rw [if_neg same, List.append_nil] at sees
    exact .inl sees

section

variable (isMap : B.IsMap valid) (inside : valid s.pairs) (orderly : Orderly B id history s)
  (asked : Shared.Step B (fun _ => ()) s c event s')
  (allowed : (stand id history c).Allows id event.1)

include orderly allowed

theorem Orderly.first {pair : KeyPair} (kept : event = ⟨.keepPair id pair, .ok ()⟩) :
    stand id history c = .missed ∧ ∀ pair', B.find s.pairs id ≠ .ok pair' := by
  subst kept
  have missed := (missed_of_keep allowed).1
  exact ⟨missed, fun pair' => orderly.missed c pair' missed⟩

theorem Orderly.counts : (history ++ [(c, event)]).countP (stores id) ≤ 1 := by
  rw [List.countP_append, List.countP_singleton]
  split
  · rename_i now
    obtain ⟨pair, kept⟩ := stores_iff.mp now
    have none : history.countP (stores id) = 0 := by
      apply List.countP_eq_zero.mpr
      rintro ⟨c', _⟩ member earlier
      obtain ⟨pair', rfl⟩ := stores_iff.mp earlier
      have there := orderly.seen c' pair' (.inr (mem_own.mpr member))
      exact (orderly.first allowed kept).2 pair' there
    omega
  · exact orderly.once

include isMap inside asked

/-- Nobody else can keep a pair while somebody counts on it that there is none. -/
theorem Orderly.still_missed (c' : C) (pair : KeyPair)
    (missed : stand id (history ++ [(c, event)]) c' = .missed) :
    B.find s'.pairs id ≠ .ok pair := by
  intro found
  rw [stand_snoc] at missed
  rcases (asked.pairs isMap inside).2 id pair found with before | kept
  · by_cases same : c' = c
    · subst same
      rw [Function.update_self] at missed
      rcases Position.missed_of_after missed with already | ⟨name, rfl⟩
      · exact orderly.missed c' pair already before
      · rcases asked.asked with looked | ⟨detail, failed⟩
        · cases looked.symm.trans before
        · cases failed
    · rw [Function.update_of_ne same] at missed
      exact orderly.missed c' pair missed before
  · obtain ⟨keeper, -⟩ := orderly.first allowed kept
    by_cases same : c' = c
    · subst same
      rw [Function.update_self, kept, keeper] at missed
      cases missed
    · rw [Function.update_of_ne same] at missed
      apply same
      apply orderly.locked.alone <;> simp [missed, keeper]

theorem Orderly.still_there (c' : C) (pair : KeyPair)
    (sees : Sees id pair (own c' (history ++ [(c, event)]))) : B.find s'.pairs id = .ok pair := by
  have there : B.find s.pairs id = .ok pair ∨ event = ⟨.keepPair id pair, .ok ()⟩ := by
    rcases sees_snoc sees with before | rfl | kept
    · exact .inl (orderly.seen c' pair before)
    · exact .inl asked.found
    · exact .inr kept
  obtain ⟨pair', found⟩ := asked.stays isMap inside there
  have changed := (asked.pairs isMap inside).2 id pair' found
  rcases there with before | kept
  · rcases changed with same | kept'
    · exact found.trans (same.symm.trans before)
    · exact absurd before ((orderly.first allowed kept').2 pair)
  · rcases changed with before | kept'
    · exact absurd before ((orderly.first allowed kept).2 pair')
    · rw [kept] at kept'
      cases kept'
      exact found

theorem Orderly.step : Orderly B id (history ++ [(c, event)]) s' where
  locked := orderly.locked.step asked allowed
  missed := orderly.still_missed isMap inside asked allowed
  seen := orderly.still_there isMap inside asked allowed
  once := orderly.counts allowed

end

variable {calls : C → Use S × Option String} {pool : Pool fun c => Except Error (calls c).1.Result}

theorem orderly_of_run (isMap : B.IsMap valid) (inside : valid origin.pairs)
    (run : Run (Shared.Step B fun _ => ()) (fun c => ((calls c).1.act e (calls c).2).run) origin
      history pool state) : valid state.pairs ∧ Orderly B e.defaultId history state := by
  induction run with
  | start =>
    have outside : ∀ c : C, stand e.defaultId ([] : History C) c = .outside := fun _ => rfl
    refine ⟨inside, ⟨?_, ?_⟩, ?_, ?_, ?_⟩
    · intro c inside
      exact absurd (outside c) inside
    · intro c _ inside
      exact absurd (outside c) inside
    · intro c pair missed
      cases (outside c).symm.trans missed
    · intro c pair sees
      simp [Sees, own] at sees
    · simp
  | @step history pool s s' c question next answer run asks step ih =>
    obtain ⟨stays, orderly⟩ := ih
    have guarded := (use_guarded (calls c).1 (calls c).2).leads (run.leads c)
    rw [asks] at guarded
    exact ⟨(step.pairs isMap stays).1, orderly.step isMap stays step guarded.1⟩

/-- Callers of one engine have one default pair between them. -/
structure MadeOnce (B : KeyPair.Backend σ) (e : Engine) (calls : C → Use S × Option String)
    (history : History C) (pool : Pool fun c => Except Error (calls c).1.Result)
    (state : Shared σ Unit) : Prop where
  /-- If no write fails, there is one at most. -/
  once : (∀ c id pair cause, (c, ⟨.keepPair id pair, .error cause⟩) ∉ history) →
    history.countP (sets e.defaultId) ≤ 1
  /-- What was written is there. -/
  stored : ∀ c pair, (c, ⟨.keepPair e.defaultId pair, .ok ()⟩) ∈ history →
    B.find state.pairs e.defaultId = .ok pair
  /-- Whoever has resolved the default pair has the one that is there. -/
  shared : ∀ c pair, (calls c).2.getD e.defaultId = e.defaultId →
    Resolved S e (calls c).2 pair (own c history) → B.find state.pairs e.defaultId = .ok pair
  /-- Whoever has ended well has resolved a pair, and what he is given is made of it. If he means the
  default pair, it is the one that is there. -/
  worked : ∀ c result, pool c = .done (.ok result) → ∃ pair,
    Worked S e (calls c).2 pair (own c history) (calls c).1 result ∧
      ((calls c).2.getD e.defaultId = e.defaultId → B.find state.pairs e.defaultId = .ok pair)

/-- Any number of callers use pairs by one engine, in whatever order their questions are asked, from
whatever the store has at first. -/
theorem default_made_once (isMap : B.IsMap valid) (inside : valid origin.pairs)
    (run : Run (Shared.Step B fun _ => ()) (fun c => ((calls c).1.act e (calls c).2).run) origin
      history pool state) : MadeOnce B e calls history pool state := by
  obtain ⟨-, orderly⟩ := orderly_of_run isMap inside run
  have shared : ∀ c pair, (calls c).2.getD e.defaultId = e.defaultId →
      Resolved S e (calls c).2 pair (own c history) → B.find state.pairs e.defaultId = .ok pair := by
    intro c pair isDefault resolved
    have sees := resolved.sees
    rw [isDefault] at sees
    exact orderly.seen c pair sees
  refine ⟨?_, ?_, shared, ?_⟩
  · intro unfailing
    have same : ∀ entry ∈ history, sets e.defaultId entry → stores e.defaultId entry := by
      rintro ⟨c, question, answer⟩ member
      cases question with
      | keepPair id pair =>
        cases answer with
        | ok u => exact fun set => set
        | error cause => exact absurd member (unfailing c id pair cause)
      | _ => exact fun set => absurd set Bool.false_ne_true
    exact (List.countP_mono_left same).trans orderly.once
  · intro c pair kept
    exact orderly.seen c pair (.inr (mem_own.mpr kept))
  · intro c result ended
    obtain ⟨pair, worked⟩ := worked_of_use (run.gives ended)
    exact ⟨pair, worked, fun isDefault => shared c pair isDefault worked.resolved⟩

end

open KeyPair.Backend (memory)
open Suite (small)

/-- Two callers miss the pair, and the one that waits finds the pair that the other one made. Both
are given the public key of the one that is there. -/
theorem default_made_once_of_two : ∃ (history : History Bool)
    (pool : Pool fun _ : Bool => Except Error String)
    (state : Shared (Table String KeyPair) Unit) (pair : KeyPair),
    Run (Shared.Step memory fun _ => ()) (fun _ => (publicKey small plain none).run)
      ⟨.empty, fun _ => false⟩ history pool state ∧
    memory.find state.pairs "default" = .ok pair ∧
    pool false = .done (.ok pair.publicKey) ∧ pool true = .done (.ok pair.publicKey) ∧
    MadeOnce memory plain (fun _ => ((.publicKey : Use small), none)) history pool state := by
  let seed : RandomBytes 48 := ⟨List.replicate 48 2, List.length_replicate⟩
  let pair := curvePair small (small.curve.secretOf seed.val)
  have looked : memory.find (Table.empty : Table String KeyPair) "default" =
    .error (.missing "default") := rfl
  have waited : (publicKey small plain none).run.Gives
      [⟨.findPair "default", .error (.missing "default")⟩, ⟨.enter, ()⟩,
        ⟨.findPair "default", .ok pair⟩, ⟨.leave, ()⟩] (.ok pair.publicKey) :=
    gives_publicKey.mpr ⟨pair, gives_resolve.mpr ⟨.waited rfl ⟨"default", rfl⟩, rfl⟩, rfl⟩
  obtain ⟨middle, first, second⟩ := Program.leads_append.mp
    (show Program.Leads _ ([_] ++ _) _ from waited)
  have begun : Run (Shared.Step memory fun _ : Bool => ())
      (fun _ => (publicKey small plain none).run) ⟨.empty, fun _ => false⟩ [] _ _ := .start
  have missed := begun.extend (i := true) first (.cons (.looked looked) (.nil _))
  have made := missed.extend (i := false)
    (by rw [Function.update_of_ne (by simp)]; exact gives_making small seed)
    ((steps_making looked rfl seed).append (steps_keeping _))
  have found := made.extend (i := true)
    (by rw [Function.update_of_ne (by simp), Function.update_self]; exact second)
    (.cons (.enter rfl) (.cons (.looked rfl) (.cons (.leave ..) (.nil _))))
  have once : MadeOnce memory plain (fun _ => ((.publicKey : Use small), none)) _ _ _ :=
    default_made_once KeyPair.Backend.memory_isMap trivial found
  obtain ⟨one, ⟨_, _, -, -, -, told⟩, there⟩ := once.worked true _ (Function.update_self ..)
  -- What the caller that waited was given is the public key of the pair that is there.
  obtain ⟨-, same⟩ := Use.makes_publicKey.mp told
  refine ⟨_, _, _, one, found, there rfl, ?_, ?_, once⟩
  · rw [Function.update_of_ne (by simp), Function.update_self, ← same]
  · rw [Function.update_self, ← same]

end KeyService.Engine
