import KeyService.Proofs.Engine.FirstUse
import KeyService.Proofs.Engine.Operation

/-! The search for a pair in a store that may fail.
The store answers as a map does, or it fails and stays as it is; any look-up and any write may
fail. A search ends in one of five ways: the pair is there, a look-up fails, the first one or the
second, the pair is missing, or it is missing and made. -/
namespace KeyService.Engine

/-- What a store has under each id. -/
abbrev Contents := String → Option KeyPair

/-- A failure of a store does not say that a pair is missing. -/
def IsFailure (cause : KeyPair.Error) : Prop := ∀ name, cause ≠ .missing name

theorem IsFailure.cases {cause : KeyPair.Error} (failure : IsFailure cause) :
    (∃ name, cause = .badId name) ∨ ∃ detail, cause = .storage detail := by
  cases cause with
  | missing name => exact absurd rfl (failure name)
  | badId name => exact .inl ⟨name, rfl⟩
  | storage detail => exact .inr ⟨detail, rfl⟩

/-- Questions that are not about pairs. -/
def Apart : Question → Prop
  | .findPair _ | .keepPair _ _ => False
  | _ => True

/-- What a store may answer, and what it has afterwards. -/
inductive Answered : Contents → Unit → Event → Contents → Prop
  | find (m : Contents) (id : String) :
      Answered m () ⟨.findPair id, KeyPair.orMissing id (m id)⟩ m
  | findFails (m : Contents) (id : String) {cause : KeyPair.Error} :
      IsFailure cause → Answered m () ⟨.findPair id, .error cause⟩ m
  | keep (m : Contents) (id : String) (pair : KeyPair) :
      Answered m () ⟨.keepPair id pair, .ok ()⟩ (Function.update m id (some pair))
  | keepFails (m : Contents) (id : String) (pair : KeyPair) (cause : KeyPair.Error) :
      Answered m () ⟨.keepPair id pair, .error cause⟩ m
  | other {m : Contents} {e : Event} : Apart e.1 → Answered m () e m

variable {S : Suite} {e : Engine} {m m' : Contents} {events : List Event} {event : Event}
  {id : String}

theorem Answered.found {answer : Except KeyPair.Error KeyPair}
    (answered : Answered m () ⟨.findPair id, answer⟩ m') :
    m' = m ∧ (answer = KeyPair.orMissing id (m id) ∨
      ∃ cause, IsFailure cause ∧ answer = .error cause) := by
  cases answered with
  | find => exact ⟨rfl, .inl rfl⟩
  | findFails _ failure => exact ⟨rfl, .inr ⟨_, failure, rfl⟩⟩
  | other apart => exact apart.elim

theorem Answered.kept {pair : KeyPair} {answer : Except KeyPair.Error Unit}
    (answered : Answered m () ⟨.keepPair id pair, answer⟩ m') :
    (answer = .ok () ∧ m' = Function.update m id (some pair)) ∨
      ∃ cause, answer = .error cause ∧ m' = m := by
  cases answered with
  | keep => exact .inl ⟨rfl, rfl⟩
  | keepFails _ _ cause => exact .inr ⟨cause, rfl, rfl⟩
  | other apart => exact apart.elim

theorem Answered.apart (answered : Answered m () event m') (apart : Apart event.1) : m' = m := by
  cases answered with
  | find => exact apart.elim
  | findFails _ _ => exact apart.elim
  | keep => exact apart.elim
  | keepFails => exact apart.elim
  | other _ => rfl

theorem same_of_apart (steps : Steps Answered () m events m')
    (apart : ∀ event ∈ events, Apart event.1) : m' = m :=
  steps.keeps (· = m)
    (fun event member _ _ answered same => (answered.apart (apart event member)).trans same) rfl

theorem steps_single {m'' : Contents} (steps : Steps Answered () m [event] m'') :
    Answered m () event m'' := by
  cases steps with
  | cons answered rest =>
    cases rest
    exact answered

/-- How the making of a pair may end. -/
inductive Generates (S : Suite) (e : Engine) (id : String) (m : Contents) :
    List Event → Except Error KeyPair → Contents → Prop
  | undrawn {drawing : List Event} {cause : Error} :
      (fresh S e.algorithm).run.Gives drawing (.error cause) →
        Generates S e id m drawing (.error cause) m
  | unkept {drawing : List Event} {pair : KeyPair} (cause : KeyPair.Error) :
      (fresh S e.algorithm).run.Gives drawing (.ok pair) →
        Generates S e id m (drawing ++ [⟨.keepPair id pair, .error cause⟩])
          (.error (.keyPair cause)) m
  | kept {drawing : List Event} {pair : KeyPair} :
      (fresh S e.algorithm).run.Gives drawing (.ok pair) →
        Generates S e id m (drawing ++ [⟨.keepPair id pair, .ok ()⟩]) (.ok pair)
          (Function.update m id (some pair))

/-- How the search for a pair may end. -/
inductive Finds (S : Suite) (e : Engine) (id : String) (m : Contents) :
    List Event → Except Error KeyPair → Contents → Prop
  | there {pair : KeyPair} : m id = some pair →
      Finds S e id m [⟨.findPair id, .ok pair⟩] (.ok pair) m
  | failed {cause : KeyPair.Error} : IsFailure cause →
      Finds S e id m [⟨.findPair id, .error cause⟩] (.error (.keyPair cause)) m
  | unknown : m id = none → id ≠ e.defaultId →
      Finds S e id m [⟨.findPair id, .error (.missing id)⟩] (.error (.keyPair (.missing id))) m
  | failedAgain {cause : KeyPair.Error} : m id = none → id = e.defaultId → IsFailure cause →
      Finds S e id m [⟨.findPair id, .error (.missing id)⟩, ⟨.enter, ()⟩,
        ⟨.findPair id, .error cause⟩, ⟨.leave, ()⟩] (.error (.keyPair cause)) m
  | made {making : List Event} {result : Except Error KeyPair} {m' : Contents} : m id = none →
      id = e.defaultId → Generates S e id m making result m' →
      Finds S e id m (⟨.findPair id, .error (.missing id)⟩ :: ⟨.enter, ()⟩ ::
        ⟨.findPair id, .error (.missing id)⟩ :: making ++ [⟨.leave, ()⟩]) result m'

theorem apart_of_draws {question : Question} (draws : Draws question) : Apart question := by
  obtain ⟨count, rfl⟩ := draws
  trivial

theorem draws_of_fresh {result : Except Error KeyPair}
    (given : (fresh S e.algorithm).run.Gives events result) : ∀ event ∈ events, Draws event.1 :=
  (asks_fresh (fun count => ⟨count, rfl⟩) e.algorithm).gives given

theorem not_keep_of_fresh {result : Except Error KeyPair}
    (given : (fresh S e.algorithm).run.Gives events result) (name : String) (pair : KeyPair)
    (answer : Except KeyPair.Error Unit) : ⟨.keepPair name pair, answer⟩ ∉ events := by
  intro member
  obtain ⟨count, asked⟩ := draws_of_fresh given _ member
  cases asked

theorem same_of_draws (steps : Steps Answered () m events m')
    (draws : ∀ event ∈ events, Draws event.1) : m' = m :=
  same_of_apart steps fun event member => apart_of_draws (draws event member)

theorem generates_of_gives {result : Except Error KeyPair}
    (given : (generate S e id).run.Gives events result) (steps : Steps Answered () m events m') :
    Generates S e id m events result m' := by
  rcases Program.gives_act_bind.mp given with ⟨cause, failed, rfl⟩ | ⟨pair, _, _, rfl, drawn, rest⟩
  · rw [same_of_draws steps (draws_of_fresh failed)]
    exact .undrawn failed
  · obtain ⟨middle, drawing, keeping⟩ := steps_append.mp steps
    rw [same_of_draws drawing (draws_of_fresh drawn)] at keeping
    rcases Program.gives_act_bind.mp rest with ⟨cause, failed, rfl⟩ | ⟨_, _, _, rfl, kept, ended⟩
    · obtain ⟨answer, rfl, told⟩ := gives_keep_answer failed
      rcases (steps_single keeping).kept with ⟨rfl, -⟩ | ⟨cause', rfl, rfl⟩
      · cases told
      · cases told
        exact .unkept cause' drawn
    · obtain ⟨rfl, rfl⟩ := Program.gives_pure.mp ended
      rw [List.append_nil] at keeping ⊢
      rw [gives_keep.mp kept] at keeping ⊢
      rcases (steps_single keeping).kept with ⟨-, rfl⟩ | ⟨_, told, -⟩
      · exact .kept drawn
      · cases told

theorem finds_of_generateDefault {result : Except Error KeyPair}
    (given : (generateDefault S e).run.Gives events result) (missing : m e.defaultId = none)
    (steps : Steps Answered () m events m') :
    Finds S e e.defaultId m (⟨.findPair e.defaultId, .error (.missing e.defaultId)⟩ :: events)
      result m' := by
  obtain ⟨middle, rfl, worked⟩ := Program.gives_alone.mp given
  obtain ⟨found, _, rest, rfl, looked, given₁⟩ := Program.gives_bind.mp worked
  rw [Program.gives_getPair] at looked
  subst looked
  obtain ⟨left, working, leaving⟩ := steps_append.mp steps
  obtain rfl := (steps_single leaving).apart trivial
  cases working with
  | cons entered working =>
    obtain rfl := entered.apart trivial
    cases working with
    | cons answered working =>
      obtain ⟨rfl, told⟩ := answered.found
      rw [missing] at told
      rcases told with rfl | ⟨cause, failure, rfl⟩
      · exact .made missing rfl (generates_of_gives given₁ working)
      · have failed : rest = [] ∧ .error (.keyPair cause) = result := by
          rcases failure.cases with ⟨_, rfl⟩ | ⟨_, rfl⟩ <;> exact Program.gives_pure.mp given₁
        obtain ⟨rfl, rfl⟩ := failed
        cases working
        exact .failedAgain missing rfl failure

theorem checked_of_gives {x : Act KeyPair} {result : Except Error KeyPair}
    (given : (x >>= fun pair => liftM (e.checkFamily pair)).run.Gives events result) :
    ∃ found, x.run.Gives events found ∧ result = found.bind e.checkFamily := by
  rcases Program.gives_act_bind.mp given with ⟨cause, failed, rfl⟩ | ⟨pair, _, _, rfl, found, rest⟩
  · exact ⟨.error cause, failed, rfl⟩
  · obtain ⟨rfl, rfl⟩ := Program.gives_pure.mp rest
    exact ⟨.ok pair, by rwa [List.append_nil], rfl⟩

theorem finds_of_resolve {name : Option String} {result : Except Error KeyPair}
    (given : (resolve S e name).run.Gives events result) (steps : Steps Answered () m events m') :
    ∃ found, Finds S e (name.getD e.defaultId) m events found m' ∧
      result = found.bind e.checkFamily := by
  obtain ⟨found, searched, rfl⟩ := checked_of_gives given
  refine ⟨found, ?_, rfl⟩
  generalize name.getD e.defaultId = id at searched
  obtain ⟨answer, _, rest, rfl, looked, given₁⟩ := Program.gives_program_bind.mp searched
  rw [Program.gives_getPair] at looked
  subst looked
  cases steps with
  | cons answered steps =>
    obtain ⟨same, told⟩ := answered.found
    rw [same] at steps
    rcases told with rfl | ⟨cause, failure, rfl⟩
    · cases there : m id with
      | some pair =>
        rw [there] at given₁
        obtain ⟨rfl, rfl⟩ := Program.gives_pure.mp given₁
        cases steps
        exact .there there
      | none =>
        rw [there] at given₁
        by_cases isDefault : id = e.defaultId
        · subst isDefault
          exact finds_of_generateDefault (by simpa [KeyPair.orMissing] using given₁) there steps
        · have failed : (pure (.error (.keyPair (.missing id))) : Program _).Gives rest found := by
            simpa [KeyPair.orMissing, isDefault] using given₁
          obtain ⟨rfl, rfl⟩ := Program.gives_pure.mp failed
          cases steps
          exact .unknown there isDefault
    · have failed : rest = [] ∧ .error (.keyPair cause) = found := by
        rcases failure.cases with ⟨_, rfl⟩ | ⟨_, rfl⟩ <;> exact Program.gives_pure.mp given₁
      obtain ⟨rfl, rfl⟩ := failed
      cases steps
      exact .failed failure

/-- An engine makes such a pair of random bytes. -/
def Fresh (S : Suite) (e : Engine) (pair : KeyPair) : Prop :=
  ∃ drawing, (fresh S e.algorithm).run.Gives drawing (.ok pair)

namespace Generates

variable {result : Except Error KeyPair} (generates : Generates S e id m events result m')

include generates

theorem asks : ∀ event ∈ events, Draws event.1 ∨ ∃ pair, event.1 = .keepPair id pair := by
  have wrote : ∀ {drawing pair} (answer : Except KeyPair.Error Unit),
      (fresh S e.algorithm).run.Gives drawing (.ok pair) →
      ∀ event ∈ drawing ++ [⟨.keepPair id pair, answer⟩],
        Draws event.1 ∨ ∃ pair, event.1 = .keepPair id pair := by
    intro drawing pair answer given event member
    rcases List.mem_append.mp member with before | now
    · exact .inl (draws_of_fresh given event before)
    · rw [List.mem_singleton.mp now]
      exact .inr ⟨pair, rfl⟩
  cases generates with
  | undrawn given => exact fun event member => .inl (draws_of_fresh given event member)
  | unkept cause given => exact wrote (.error cause) given
  | kept given => exact wrote (.ok ()) given

theorem name_of_keep {name : String} {pair : KeyPair} {answer : Except KeyPair.Error Unit}
    (member : ⟨.keepPair name pair, answer⟩ ∈ events) : name = id := by
  rcases generates.asks _ member with ⟨_, asked⟩ | ⟨_, asked⟩
  · cases asked
  · exact (Question.keepPair.inj asked).1

theorem not_find (name : String) (answer : Except KeyPair.Error KeyPair) :
    ⟨.findPair name, answer⟩ ∉ events := by
  intro member
  rcases generates.asks _ member with ⟨_, asked⟩ | ⟨_, asked⟩ <;> cases asked

theorem changes : m' = m ∨ ∃ pair, m' = Function.update m id (some pair) ∧
    ⟨.keepPair id pair, .ok ()⟩ ∈ events ∧ Fresh S e pair := by
  cases generates with
  | undrawn _ => exact .inl rfl
  | unkept _ _ => exact .inl rfl
  | kept given => exact .inr ⟨_, rfl, by simp, _, given⟩

theorem unkept_error {name : String} {pair : KeyPair} {cause : KeyPair.Error}
    (member : ⟨.keepPair name pair, .error cause⟩ ∈ events) :
    result = .error (.keyPair cause) ∧ m' = m := by
  cases generates with
  | undrawn given => exact absurd member (not_keep_of_fresh given _ _ _)
  | unkept cause' given =>
    rcases List.mem_append.mp member with before | now
    · exact absurd before (not_keep_of_fresh given _ _ _)
    · cases List.mem_singleton.mp now
      exact ⟨rfl, rfl⟩
  | kept given =>
    rcases List.mem_append.mp member with before | now
    · exact absurd before (not_keep_of_fresh given _ _ _)
    · cases List.mem_singleton.mp now

theorem of_ok {pair : KeyPair} (made : result = .ok pair) :
    m' = Function.update m id (some pair) ∧ pair.algorithm = e.algorithm.family := by
  cases generates with
  | undrawn _ => cases made
  | unkept _ _ => cases made
  | kept given =>
    cases made
    exact ⟨rfl, (gives_fresh given).2 _ rfl⟩

end Generates

namespace Finds

variable {found : Except Error KeyPair} (finds : Finds S e id m events found m')

include finds

theorem of_keep {name : String} {pair : KeyPair} {answer : Except KeyPair.Error Unit}
    (member : ⟨.keepPair name pair, answer⟩ ∈ events) :
    ∃ making rest, m id = none ∧ id = e.defaultId ∧ Generates S e id m making found m' ∧
      ⟨.keepPair name pair, answer⟩ ∈ making ∧
      events = ⟨.findPair id, .error (.missing id)⟩ :: rest := by
  cases finds with
  | @made making _ _ missing isDefault generates =>
    have inside : ⟨.keepPair name pair, answer⟩ ∈ making := by simpa using member
    exact ⟨making, _, missing, isDefault, generates, inside, rfl⟩
  | _ => simp at member

theorem changes : m' = m ∨ ∃ pair, m' = Function.update m id (some pair) ∧
    ⟨.keepPair id pair, .ok ()⟩ ∈ events ∧ Fresh S e pair := by
  cases finds with
  | made _ _ generates =>
    rcases generates.changes with same | ⟨pair, updated, kept, fresh⟩
    · exact .inl same
    · exact .inr ⟨pair, updated, by simp [kept], fresh⟩
  | _ => exact .inl rfl

theorem of_failure {name : String} {cause : KeyPair.Error} (failure : IsFailure cause)
    (member : ⟨.findPair name, .error cause⟩ ∈ events) :
    found = .error (.keyPair cause) ∧ m' = m ∧
      ∀ event ∈ events, ¬ Draws event.1 ∧ ∀ name pair, event.1 ≠ .keepPair name pair := by
  have other : ∀ name, cause ≠ .missing name := failure
  cases finds with
  | there _ => simp at member
  | failed _ =>
    obtain ⟨rfl, rfl⟩ := by simpa using member
    simp [Draws]
  | unknown _ _ => simp [other] at member
  | failedAgain _ _ _ =>
    obtain ⟨rfl, rfl⟩ := by simpa [other] using member
    simp [Draws]
  | @made making _ _ _ _ generates =>
    have inside : ⟨.findPair name, .error cause⟩ ∈ making := by simpa [other] using member
    exact absurd inside (generates.not_find name _)

theorem of_ok {pair : KeyPair} (ok : found = .ok pair) : m' id = some pair := by
  cases finds with
  | there there =>
    cases ok
    exact there
  | made _ _ generates => simp [(generates.of_ok ok).1]
  | _ => cases ok

theorem of_unknown (missing : m id = none) (other : id ≠ e.defaultId)
    (unfailing : ∀ name cause, IsFailure cause → ⟨.findPair name, .error cause⟩ ∉ events) :
    found = .error (.keyPair (.missing id)) ∧ m' = m := by
  cases finds with
  | there there => cases missing.symm.trans there
  | failed failure => exact absurd List.mem_cons_self (unfailing _ _ failure)
  | unknown _ _ => exact ⟨rfl, rfl⟩
  | failedAgain _ isDefault _ => exact absurd isDefault other
  | made _ isDefault _ => exact absurd isDefault other

end Finds

end KeyService.Engine
