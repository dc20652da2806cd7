import KeyService.Failure
import KeyService.Proofs.Program.Asks
import KeyService.Proofs.Program.Machine

/-! Two runs of a program that are told the same, but for what the stores say of their failures.
Programs are alike if they ask the same as long as their answers are alike, and end alike. What
such programs give in alike surroundings is alike. -/
namespace KeyService

variable {ε ε' τ α β : Type}

/-- Two results that differ at most in the text of one kind of failure. -/
inductive SameButText (kind : String → ε) : Except ε α → Except ε α → Prop where
  | same (x : Except ε α) : SameButText kind x x
  | text (detail detail' : String) : SameButText kind (.error (kind detail)) (.error (kind detail'))

/-- Answers that differ at most in the text of a failure of a store. -/
def Question.Alike : (question : Question) → question.Answer → question.Answer → Prop
  | .findPair _ | .keepPair _ _ => SameButText KeyPair.Error.storage
  | .findRecord _ _ | .keepRecord _ => SameButText LocalText.Error.repository
  | .now | .random _ | .enter | .leave | .findSession _ | .keepSession _ | .countSessions
  | .exchange _ _ | .fetchKey _ | .overflow => Eq

/-- An answer with another text, if it is a failure of a store. -/
def Question.retell (text : String) : (question : Question) → question.Answer → question.Answer
  | .findPair _, .error (.storage _) | .keepPair _ _, .error (.storage _) => .error (.storage text)
  | .findRecord _ _, .error (.repository _) | .keepRecord _, .error (.repository _) =>
    .error (.repository text)
  | _, answer => answer

theorem Question.alike_refl (question : Question) (answer : question.Answer) :
    question.Alike answer answer := by
  cases question <;> first | exact rfl | exact .same answer

theorem Question.alike_retell (question : Question) (text : String) (answer : question.Answer) :
    question.Alike answer (question.retell text answer) := by
  unfold retell
  split
  · exact .text _ _
  · exact .text _ _
  · exact .text _ _
  · exact .text _ _
  · exact alike_refl _ _

/-- Questions whose answers have no such texts in them. -/
def Question.Plain (question : Question) : Prop :=
  ∀ answer answer', question.Alike answer answer' → answer = answer'

/-- Two results that are told alike: the same success, or failures of which the same is told. -/
inductive ToldAlike (tell : ε → τ) : Except ε α → Except ε α → Prop where
  | ok (a : α) : ToldAlike tell (.ok a) (.ok a)
  | error {e e' : ε} : tell e = tell e' → ToldAlike tell (.error e) (.error e')

namespace ToldAlike

variable {tell : ε' → τ}

theorem refl (tell : ε → τ) (x : Except ε α) : ToldAlike tell x x := by
  cases x with
  | ok a => exact .ok a
  | error e => exact .error rfl

theorem mapError {f : ε → ε'} {x x' : Except ε α} (alike : ToldAlike (tell ∘ f) x x') :
    ToldAlike tell (x.mapError f) (x'.mapError f) := by
  cases alike with
  | ok a => exact .ok a
  | error same => exact .error same

theorem bind {x x' : Except ε' α} (alike : ToldAlike tell x x') (f : α → Except ε' β) :
    ToldAlike tell (x.bind f) (x'.bind f) := by
  cases alike with
  | ok a => exact refl tell (f a)
  | error same => exact .error same

end ToldAlike

theorem SameButText.told {kind : String → ε} {tell : ε → τ}
    (silent : ∀ detail detail', tell (kind detail) = tell (kind detail')) {x x' : Except ε α}
    (alike : SameButText kind x x') : ToldAlike tell x x' := by
  cases alike with
  | same x => exact .refl tell x
  | text detail detail' => exact .error (silent detail detail')

namespace Program

/-- Two programs that ask the same as long as they are answered alike, and then end alike. -/
inductive Alike (R : α → α → Prop) : Program α → Program α → Prop where
  | done {a a' : α} : R a a' → Alike R (.done a) (.done a')
  | ask {question : Question} {next next' : question.Answer → Program α} :
      (∀ answer answer', question.Alike answer answer' → Alike R (next answer) (next' answer')) →
        Alike R (.ask question next) (.ask question next')

variable {R R' : α → α → Prop} {Q : β → β → Prop}

theorem Alike.mono {p p' : Program α} (alike : Alike R p p') (weaker : ∀ a a', R a a' → R' a a') :
    Alike R' p p' := by
  induction alike with
  | done related => exact .done (weaker _ _ related)
  | ask _ ih => exact .ask ih

theorem alike_pure {a a' : α} (related : R a a') : Alike R (pure a) (pure a') := .done related

theorem alike_put (question : Question) : Alike question.Alike (put question) (put question) :=
  .ask fun _ _ alike => .done alike

theorem alike_bind {p p' : Program α} {f f' : α → Program β} (first : Alike R p p')
    (second : ∀ events a a', p.Gives events a → R a a' → Alike Q (f a) (f' a')) :
    Alike Q (p >>= f) (p' >>= f') := by
  induction first with
  | done related => exact second [] _ _ (.refl _) related
  | ask _ ih =>
    refine .ask fun answer answer' alike => ih answer answer' alike fun events a a' given => ?_
    exact second (⟨_, answer⟩ :: events) a a' (.ask given)

/-- What a program is told without such texts, it is told the same in both runs. -/
theorem alike_of_asks {p : Program α} (asks : p.Asks Question.Plain) : Alike Eq p p := by
  induction p with
  | done a => exact .done rfl
  | ask question next ih =>
    refine .ask fun answer answer' alike => ?_
    rw [asks.1 answer answer' alike]
    exact ih answer' (asks.2 answer')

theorem alike_alone {p p' : Program α} (alike : Alike R p p') : Alike R (alone p) (alone p') := by
  refine alike_bind (alike_put .enter) fun _ _ _ _ _ => ?_
  refine alike_bind alike fun _ _ _ _ related => ?_
  exact alike_bind (alike_put .leave) fun _ _ _ _ _ => alike_pure related

variable {tell : ε → τ}

theorem alike_act_bind {x x' : ExceptT ε Program α} {f f' : α → ExceptT ε Program β}
    (first : Alike (ToldAlike tell) x.run x'.run)
    (second : ∀ a, Alike (ToldAlike tell) (f a).run (f' a).run) :
    Alike (ToldAlike tell) (x >>= f).run (x' >>= f').run := by
  rw [ExceptT.run_bind, ExceptT.run_bind]
  refine alike_bind first fun _ _ _ _ told => ?_
  cases told with
  | ok a => exact second a
  | error same => exact alike_pure (.error same)

theorem alike_except (x : Except ε α) :
    Alike (ToldAlike tell) (liftM x : ExceptT ε Program α).run (liftM x : ExceptT ε Program α).run :=
  alike_pure (.refl tell x)

theorem alike_act_of_asks {x : ExceptT ε Program α} (asks : x.run.Asks Question.Plain) :
    Alike (ToldAlike tell) x.run x.run :=
  (alike_of_asks asks).mono fun a _ same => same ▸ .refl tell a

theorem alike_program {p : Program α} (asks : p.Asks Question.Plain) :
    Alike (ToldAlike tell) (liftM p : ExceptT ε Program α).run (liftM p : ExceptT ε Program α).run :=
  alike_act_of_asks (asks_program asks)

theorem alike_put_bind {question : Question} {f f' : question.Answer → ExceptT ε Program β}
    (next : ∀ answer answer', question.Alike answer answer' →
      Alike (ToldAlike tell) (f answer).run (f' answer').run) :
    Alike (ToldAlike tell) (liftM (put question) >>= f).run (liftM (put question) >>= f').run :=
  .ask next

theorem alike_passed {f : ε' → ε} {p p' : Program (Except ε' α)}
    (alike : Alike (ToldAlike (tell ∘ f)) p p') :
    Alike (ToldAlike tell) (do return (← p).mapError f) (do return (← p').mapError f) :=
  alike_bind alike fun _ _ _ _ told => alike_pure told.mapError

end Program

namespace Surroundings

variable {σ σ' : Type}

/-- Two surroundings that answer alike, and go on to do so: in each of them a state is kept, and the
states correspond. -/
def Twins (sim : σ → σ' → Prop) (w : Surroundings (StateM σ)) (w' : Surroundings (StateM σ')) :
    Prop :=
  ∀ question s s', sim s s' → question.Alike (w.answer question s).1 (w'.answer question s').1 ∧
    sim (w.answer question s).2 (w'.answer question s').2

/-- The same surroundings, but the stores say something else of their failures. -/
def retold (w : Surroundings (StateM σ)) (text : Question → σ → String) :
    Surroundings (StateM σ) :=
  .ofAnswers fun question s =>
    let (answer, s') := w.answer question s
    (question.retell (text question s) answer, s')

theorem twins_retold (w : Surroundings (StateM σ)) (text : Question → σ → String) :
    w.Twins Eq (w.retold text) := by
  rintro question s _ rfl
  rw [retold, answer_ofAnswers]
  exact ⟨question.alike_retell _ _, rfl⟩

end Surroundings

/-- Alike programs in twin surroundings come to alike results. -/
theorem Program.Alike.run {σ σ' : Type} {sim : σ → σ' → Prop} {w : Surroundings (StateM σ)}
    {w' : Surroundings (StateM σ')} (twins : w.Twins sim w') {R : α → α → Prop}
    {p p' : Program α} (alike : p.Alike R p') {s : σ} {s' : σ'} (matching : sim s s') :
    R (p.run w s).1 (p'.run w' s').1 ∧ sim (p.run w s).2 (p'.run w' s').2 := by
  induction alike generalizing s s' with
  | done related => exact ⟨related, matching⟩
  | @ask question _ _ _ ih =>
    obtain ⟨answers, after⟩ := twins question s s' matching
    exact ih _ _ answers after

end KeyService
