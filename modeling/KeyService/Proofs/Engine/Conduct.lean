import KeyService.Proofs.Engine.Search

/-! How an engine treats its store, operation by operation.
Nothing is written but what was asked for, or the default pair where it was missing; failures of
the store are passed on; and a pair that is used or returned is there afterwards. So it is for each
of any number of operations, wherever the store fails. -/
namespace KeyService.Engine

variable {S : Suite} {e : Engine} {m m' : Contents} {events : List Event} {id : String}

namespace Operation

/-- The id that an operation is about. -/
def name (e : Engine) : Operation S → String
  | generate id => id
  | has id | use _ id => id.getD e.defaultId

/-- An operation that cannot do without a pair. -/
def Resolves (e : Engine) : Operation S → Prop
  | use u _ => u.Allowed e
  | _ => False

/-- A pair is returned or used. -/
def Handles (e : Engine) (pair : KeyPair) (events : List Event) :
    (o : Operation S) → Except Error o.Result → Prop
  | generate _, result => result = .ok pair
  | has _, _ => False
  | use _ id, _ => Resolved S e id pair events

/-- A question whether there is a pair is answered from the store, which stays as it is, and a use
that is not allowed asks nothing. A use that ends well gives what it makes of a pair that the store
has afterwards. -/
def Tells (e : Engine) (m : Contents) (events : List Event) (m' : Contents) :
    (o : Operation S) → Except Error o.Result → Prop
  | generate _, _ => True
  | has id, result => m' = m ∧ (result = .ok (m (id.getD e.defaultId)).isSome ∨
      ∃ cause, IsFailure cause ∧ result = .error (.keyPair cause))
  | use u id, result =>
    (¬ u.Allowed e → events = [] ∧ m' = m ∧
      result = .error (.unsupported "key agreement" e.algorithm)) ∧
    ∀ r, result = .ok r → ∃ pair, Worked S e id pair events u r ∧
      m' (id.getD e.defaultId) = some pair ∧ pair.algorithm = e.algorithm.family

end Operation

/-- What an operation does to its store, and what it says. -/
structure Conduct (e : Engine) (o : Operation S) (m : Contents) (events : List Event)
    (result : Except Error o.Result) (m' : Contents) : Prop where
  /-- It writes what it was asked to generate, or the default pair, which it has missed. -/
  writes : ∀ name pair answer, ⟨.keepPair name pair, answer⟩ ∈ events →
    o = .generate name ∨ name = e.defaultId ∧ m name = none ∧
      ∃ rest, events = ⟨.findPair name, .error (.missing name)⟩ :: rest
  /-- What is there afterwards and was not before was made and written. -/
  changes : ∀ name, m' name ≠ m name → ∃ pair, m' name = some pair ∧
    ⟨.keepPair name pair, .ok ()⟩ ∈ events ∧ Fresh S e pair
  /-- It makes no pair under another id than the default one. -/
  unknown : o.Resolves e → o.name e ≠ e.defaultId → m (o.name e) = none →
    (∀ name cause, IsFailure cause → ⟨.findPair name, .error cause⟩ ∉ events) →
      result = .error (.keyPair (.missing (o.name e))) ∧ m' = m
  /-- It passes on what a look-up fails with, and makes no pair then. -/
  failed : ∀ name cause, IsFailure cause → ⟨.findPair name, .error cause⟩ ∈ events →
    result = .error (.keyPair cause) ∧ m' = m ∧
      ∀ event ∈ events, ¬ Draws event.1 ∧ ∀ name pair, event.1 ≠ .keepPair name pair
  /-- It passes on what a write fails with, and gives no pair then. -/
  unkept : ∀ name pair cause, ⟨.keepPair name pair, .error cause⟩ ∈ events →
    result = .error (.keyPair cause) ∧ m' = m
  /-- A pair that it returns or uses is there afterwards. -/
  holds : ∀ pair, o.Handles e pair events result →
    m' (o.name e) = some pair ∧ pair.algorithm = e.algorithm.family
  tells : o.Tells e m events m' result

theorem changed_of_update {name : String}
    (changes : m' = m ∨ ∃ pair, m' = Function.update m id (some pair) ∧
      ⟨.keepPair id pair, .ok ()⟩ ∈ events ∧ Fresh S e pair) (differ : m' name ≠ m name) :
    ∃ pair, m' name = some pair ∧ ⟨.keepPair name pair, .ok ()⟩ ∈ events ∧ Fresh S e pair := by
  rcases changes with rfl | ⟨pair, rfl, kept, fresh⟩
  · exact absurd rfl differ
  · by_cases same : name = id
    · subst same
      exact ⟨pair, Function.update_self .., kept, fresh⟩
    · exact absurd (Function.update_of_ne same ..) differ

theorem conduct_generate {result : Except Error KeyPair}
    (given : (generate S e id).run.Gives events result) (steps : Steps Answered () m events m') :
    Conduct e (.generate id : Operation S) m events result m' := by
  have generates := generates_of_gives given steps
  constructor
  · intro name pair answer member
    rw [generates.name_of_keep member]
    exact .inl rfl
  · intro name differ
    exact changed_of_update generates.changes differ
  · intro resolves
    exact resolves.elim
  · intro name cause _ member
    exact absurd member (generates.not_find name _)
  · intro name pair cause member
    exact generates.unkept_error member
  · intro pair made
    obtain ⟨rfl, family⟩ := generates.of_ok made
    exact ⟨Function.update_self .., family⟩
  · trivial

theorem looked_of_has {name : Option String} {result : Except Error Bool}
    (given : (has e name).run.Gives events result) (steps : Steps Answered () m events m') :
    m' = m ∧ ((∃ answer, events = [⟨.findPair (name.getD e.defaultId), answer⟩] ∧
        (∀ cause, answer = .error cause → ¬ IsFailure cause) ∧
        result = .ok (m (name.getD e.defaultId)).isSome) ∨
      ∃ cause, events = [⟨.findPair (name.getD e.defaultId), .error cause⟩] ∧ IsFailure cause ∧
        result = .error (.keyPair cause)) := by
  generalize sought : name.getD e.defaultId = id
  unfold has at given
  rw [sought] at given
  obtain ⟨answer, _, rest, rfl, looked, given₁⟩ := Program.gives_bind.mp given
  rw [Program.gives_getPair] at looked
  subst looked
  have ended : ∀ {r : Except Error Bool}, (pure r : Program _).Gives rest result →
      rest = [] ∧ result = r := fun given => (Program.gives_pure.mp given).imp_right Eq.symm
  cases steps with
  | cons answered steps =>
    obtain ⟨same, told⟩ := answered.found
    rw [same] at steps
    rcases told with rfl | ⟨cause, failure, rfl⟩
    · cases there : m id with
      | some pair =>
        rw [there] at given₁
        obtain ⟨rfl, rfl⟩ := ended given₁
        cases steps
        exact ⟨rfl, .inl ⟨_, rfl, by simp [KeyPair.orMissing], rfl⟩⟩
      | none =>
        rw [there] at given₁
        obtain ⟨rfl, rfl⟩ := ended given₁
        cases steps
        exact ⟨rfl, .inl ⟨_, rfl, by simp [KeyPair.orMissing, IsFailure], rfl⟩⟩
    · have failed : rest = [] ∧ result = .error (.keyPair cause) := by
        rcases failure.cases with ⟨_, rfl⟩ | ⟨_, rfl⟩ <;> exact ended given₁
      obtain ⟨rfl, rfl⟩ := failed
      cases steps
      exact ⟨rfl, .inr ⟨cause, rfl, failure, rfl⟩⟩

theorem conduct_has {name : Option String} {result : Except Error Bool}
    (given : (has e name).run.Gives events result) (steps : Steps Answered () m events m') :
    Conduct e (.has name : Operation S) m events result m' := by
  obtain ⟨rfl, looked⟩ := looked_of_has given steps
  have unwritten : ∀ name pair answer, ⟨.keepPair name pair, answer⟩ ∉ events := by
    rcases looked with ⟨_, rfl, -⟩ | ⟨_, rfl, -⟩ <;> simp
  constructor
  · intro name pair answer member
    exact absurd member (unwritten name pair answer)
  · intro name differ
    exact absurd rfl differ
  · intro resolves
    exact resolves.elim
  · intro name cause failure member
    rcases looked with ⟨answer, rfl, unfailing, -⟩ | ⟨_, rfl, -, rfl⟩
    · obtain ⟨rfl, rfl⟩ := by simpa using member
      exact absurd failure (unfailing cause rfl)
    · obtain ⟨rfl, rfl⟩ := by simpa using member
      simp [Draws]
  · intro name pair cause member
    exact absurd member (unwritten name pair _)
  · intro pair handled
    exact handled.elim
  · rcases looked with ⟨_, -, -, said⟩ | ⟨cause, -, failure, said⟩
    · exact ⟨rfl, .inl said⟩
    · exact ⟨rfl, .inr ⟨cause, failure, said⟩⟩

theorem searched_of_use {u : Use S} {name : Option String} {result : Except Error u.Result}
    (allowed : u.Allowed e) (given : (u.act e name).run.Gives events result)
    (steps : Steps Answered () m events m') :
    ∃ search drawn found, events = search ++ drawn ∧
      Finds S e (name.getD e.defaultId) m search found m' ∧
      (∀ event ∈ drawn, Draws event.1) ∧ ∀ cause, found = .error cause → result = .error cause ∧
        drawn = [] := by
  obtain ⟨finish, same, finishes⟩ := u.act_eq allowed name
  rw [same] at given
  rcases Program.gives_act_bind.mp given with ⟨cause, failed, rfl⟩ | ⟨pair, _, _, rfl, looked, rest⟩
  · obtain ⟨found, finds, checked⟩ := finds_of_resolve failed steps
    refine ⟨events, [], found, by simp, finds, by simp, ?_⟩
    rintro cause' rfl
    cases checked
    exact ⟨rfl, rfl⟩
  · obtain ⟨middle, searching, drawing⟩ := steps_append.mp steps
    obtain ⟨found, finds, checked⟩ := finds_of_resolve looked searching
    have drawn := (finishes.draws pair).gives rest
    rw [← same_of_draws drawing drawn] at finds
    refine ⟨_, _, found, rfl, finds, drawn, ?_⟩
    rintro cause rfl
    cases checked

theorem held_of_resolved {u : Use S} {name : Option String} {result : Except Error u.Result}
    {pair : KeyPair} (allowed : u.Allowed e) (given : (u.act e name).run.Gives events result)
    (steps : Steps Answered () m events m') (resolved : Resolved S e name pair events) :
    m' (name.getD e.defaultId) = some pair ∧ pair.algorithm = e.algorithm.family := by
  obtain ⟨finish, same, finishes⟩ := u.act_eq allowed name
  obtain ⟨before, after, rfl, reached⟩ := resolved
  obtain ⟨middle, searching, drawing⟩ := steps_append.mp steps
  rw [same, ExceptT.run_bind] at given
  have rest := (Program.leads_bind_of_gives reached).mp given
  obtain rfl := same_of_draws drawing ((finishes.draws pair).gives rest)
  obtain ⟨found, finds, checked⟩ := finds_of_resolve reached searching
  cases found with
  | error cause => cases checked
  | ok pair' =>
    obtain ⟨rfl, family⟩ := checkFamily_iff.mp checked.symm
    exact ⟨finds.of_ok rfl, family⟩

theorem conduct_allowed {u : Use S} {name : Option String} {result : Except Error u.Result}
    (allowed : u.Allowed e) (given : (u.act e name).run.Gives events result)
    (steps : Steps Answered () m events m') : Conduct e (.use u name) m events result m' := by
  obtain ⟨search, drawn, found, split, finds, draws, ends⟩ := searched_of_use allowed given steps
  have inside : ∀ event ∈ events, ¬ Draws event.1 → event ∈ search := by
    intro event member undrawn
    rw [split] at member
    rcases List.mem_append.mp member with searching | drawing
    · exact searching
    · exact absurd (draws event drawing) undrawn
  have whole : ∀ event ∈ search, event ∈ events := by
    intro event member
    rw [split]
    exact List.mem_append_left drawn member
  constructor
  · intro id pair answer member
    obtain ⟨making, rest, missing, isDefault, generates, made, spelled⟩ :=
      finds.of_keep (inside _ member (by simp [Draws]))
    obtain rfl := generates.name_of_keep made
    exact .inr ⟨isDefault, missing, rest ++ drawn, by rw [split, spelled]; rfl⟩
  · intro id differ
    obtain ⟨pair, there, kept, fresh⟩ := changed_of_update finds.changes differ
    exact ⟨pair, there, whole _ kept, fresh⟩
  · intro _ other missing unfailing
    obtain ⟨rfl, same⟩ := finds.of_unknown missing other fun id cause failure member =>
      unfailing id cause failure (whole _ member)
    exact ⟨(ends _ rfl).1, same⟩
  · intro id cause failure member
    obtain ⟨rfl, same, idle⟩ := finds.of_failure failure (inside _ member (by simp [Draws]))
    obtain ⟨told, rfl⟩ := ends _ rfl
    rw [List.append_nil] at split
    rw [split]
    exact ⟨told, same, idle⟩
  · intro id pair cause member
    obtain ⟨making, _, _, _, generates, made, _⟩ :=
      finds.of_keep (inside _ member (by simp [Draws]))
    obtain ⟨rfl, same⟩ := generates.unkept_error made
    exact ⟨(ends _ rfl).1, same⟩
  · intro pair resolved
    exact held_of_resolved allowed given steps resolved
  · constructor
    · intro refused
      exact absurd allowed refused
    · rintro r rfl
      obtain ⟨pair, worked⟩ := worked_of_use given
      exact ⟨pair, worked, held_of_resolved allowed given steps worked.resolved⟩

theorem conduct_refused {u : Use S} {name : Option String} {result : Except Error u.Result}
    (refused : ¬ u.Allowed e) (given : (u.act e name).run.Gives events result)
    (steps : Steps Answered () m events m') : Conduct e (.use u name) m events result m' := by
  rw [u.act_refused refused] at given
  obtain ⟨rfl, rfl⟩ := Program.gives_pure.mp given
  cases steps
  constructor
  · simp
  · intro id differ
    exact absurd rfl differ
  · intro resolves
    exact absurd resolves refused
  · simp
  · simp
  · intro pair resolved
    rcases resolved.sees with looked | kept
    · exact absurd looked List.not_mem_nil
    · exact absurd kept List.not_mem_nil
  · constructor
    · intro _
      exact ⟨rfl, rfl, rfl⟩
    · rintro r told
      cases told

theorem conduct_of_gives {o : Operation S} {result : Except Error o.Result}
    (given : (o.act e).run.Gives events result) (steps : Steps Answered () m events m') :
    Conduct e o m events result m' := by
  cases o with
  | generate id => exact conduct_generate given steps
  | has name => exact conduct_has given steps
  | use u name =>
    by_cases allowed : u.Allowed e
    · exact conduct_allowed allowed given steps
    · exact conduct_refused allowed given steps

namespace Conduct

variable {o : Operation S} {result : Except Error o.Result} {name : String} {pair : KeyPair}

theorem origin (conduct : Conduct e o m events result m') (there : m' name = some pair) :
    m name = some pair ∨ ⟨.keepPair name pair, .ok ()⟩ ∈ events ∧ Fresh S e pair ∧
      (o = .generate name ∨ name = e.defaultId) := by
  by_cases same : m' name = m name
  · exact .inl (same.symm.trans there)
  · obtain ⟨pair', there', kept, fresh⟩ := conduct.changes name same
    obtain rfl := Option.some.inj (there.symm.trans there')
    rcases conduct.writes name pair _ kept with asked | ⟨isDefault, -⟩
    · exact .inr ⟨kept, fresh, .inl asked⟩
    · exact .inr ⟨kept, fresh, .inr isDefault⟩

theorem stays (conduct : Conduct e o m events result m') (other : o ≠ .generate name)
    (there : m name = some pair) : m' name = some pair := by
  by_contra lost
  have differ : m' name ≠ m name := by
    intro same
    exact lost (same.trans there)
  obtain ⟨pair', -, kept, -⟩ := conduct.changes name differ
  rcases conduct.writes name pair' _ kept with asked | ⟨-, missing, -⟩
  · exact other asked
  · cases missing.symm.trans there

end Conduct

/-- An operation of some engine, with what it asked and what came of it. -/
structure Visit (S : Suite) where
  engine : Engine
  operation : Operation S
  events : List Event
  result : Except Error operation.Result

/-- From what the store has to what it has afterwards, as the operation and the store say. -/
structure Visit.Happens (m : Contents) (_ : Unit) (v : Visit S) (m' : Contents) : Prop where
  gives : (v.operation.act v.engine).run.Gives v.events v.result
  steps : Steps Answered () m v.events m'

theorem Visit.Happens.conduct {v : Visit S} (happens : v.Happens m () m') :
    Conduct v.engine v.operation m v.events v.result m' :=
  conduct_of_gives happens.gives happens.steps

/-- Visits to one store, one after the other. -/
abbrev Visits (S : Suite) : Contents → List (Visit S) → Contents → Prop := Steps Visit.Happens ()

variable {visits : List (Visit S)}

theorem Visits.origin (run : Visits S m visits m') {id : String} {pair : KeyPair}
    (there : m' id = some pair) : m id = some pair ∨ ∃ v ∈ visits,
      ⟨.keepPair id pair, .ok ()⟩ ∈ v.events ∧ Fresh S v.engine pair ∧
        (v.operation = .generate id ∨ id = v.engine.defaultId) := by
  induction run with
  | nil m => exact .inl there
  | @cons m s _ v others happens rest ih =>
    rcases ih there with early | ⟨u, member, kept⟩
    · rcases happens.conduct.origin early with first | now
      · exact .inl first
      · exact .inr ⟨v, List.mem_cons_self, now⟩
    · exact .inr ⟨u, List.mem_cons_of_mem v member, kept⟩

open Suite (small)

end KeyService.Engine
