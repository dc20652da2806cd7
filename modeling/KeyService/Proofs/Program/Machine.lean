import KeyService.Proofs.Program.Pool

/-! Runs in surroundings that keep a state.
Such surroundings have one answer to each question, so a run is a trace, and a trace with
the answers that they give is the run. -/
namespace KeyService

variable {σ : Type}

namespace Surroundings

def ofAnswers {m : Type → Type} (answer : (question : Question) → m question.Answer) :
    Surroundings m where
  now := answer .now
  random count := answer (.random count)
  findPair id := answer (.findPair id)
  keepPair id pair := answer (.keepPair id pair)
  enter := answer .enter
  leave := answer .leave
  findRecord appId header := answer (.findRecord appId header)
  keepRecord record := answer (.keepRecord record)
  findSession id := answer (.findSession id)
  keepSession session := answer (.keepSession session)
  countSessions := answer .countSessions
  exchange url request := answer (.exchange url request)
  fetchKey url := answer (.fetchKey url)
  overflow := answer .overflow

@[simp] theorem answer_ofAnswers {m : Type → Type}
    (answer : (question : Question) → m question.Answer) (question : Question) :
    (ofAnswers answer).answer question = answer question := by
  cases question <;> rfl

/-- The answers of a trace are those that the surroundings give, one after the other. -/
inductive Answers (w : Surroundings (StateM σ)) : σ → List Event → σ → Prop where
  | nil (s : σ) : Answers w s [] s
  | cons {s s' s'' : σ} {question : Question} {answer : question.Answer} {events : List Event} :
      w.answer question s = (answer, s') → Answers w s' events s'' →
      Answers w s (⟨question, answer⟩ :: events) s''

variable {w : Surroundings (StateM σ)} {s s' s'' : σ} {events events' : List Event}

theorem answers_cons {question : Question} {answer : question.Answer} :
    Answers w s (⟨question, answer⟩ :: events) s' ↔
      ∃ between, w.answer question s = (answer, between) ∧ Answers w between events s' := by
  constructor
  · intro answers
    cases answers with
    | cons same rest => exact ⟨_, same, rest⟩
  · rintro ⟨between, same, rest⟩
    exact .cons same rest

theorem answers_single {question : Question} {answer : question.Answer} :
    Answers w s [⟨question, answer⟩] s' ↔ w.answer question s = (answer, s') := by
  constructor
  · intro answers
    cases answers with
    | cons same rest =>
      cases rest
      exact same
  · intro same
    exact .cons same (.nil s')

theorem answers_iff_steps : Answers w s events s' ↔
    Steps (fun s _ e s' => w.answer e.1 s = (e.2, s')) () s events s' := by
  constructor
  · intro answers
    induction answers with
    | nil s => exact .nil s
    | cons same _ ih => exact .cons same ih
  · intro steps
    induction steps with
    | nil s => exact .nil s
    | cons same _ ih => exact .cons same ih

theorem answers_append : Answers w s (events ++ events') s'' ↔
    ∃ between, Answers w s events between ∧ Answers w between events' s'' := by
  simp only [answers_iff_steps]
  exact steps_append

theorem Answers.append (first : Answers w s events s') (second : Answers w s' events' s'') :
    Answers w s (events ++ events') s'' := answers_append.mpr ⟨s', first, second⟩

theorem Answers.keeps (P : σ → Prop) (answers : Answers w s events s')
    (each : ∀ e ∈ events, ∀ s s', w.answer e.1 s = (e.2, s') → P s → P s') (first : P s) : P s' :=
  (answers_iff_steps.mp answers).keeps P each first

end Surroundings

namespace Program

variable {α : Type} {w : Surroundings (StateM σ)} {s s' : σ}

theorem run_eq_of_gives {p : Program α} {events : List Event} {a : α} (given : p.Gives events a)
    (answers : w.Answers s events s') : p.run w s = (a, s') := by
  induction p generalizing events s with
  | done b =>
    obtain ⟨rfl, rfl⟩ := gives_done.mp given
    cases answers
    rfl
  | ask question next ih =>
    obtain ⟨answer, rest, rfl, tail⟩ := gives_ask.mp given
    cases answers with
    | cons same others =>
      have first : (Program.ask question next).run w s = (next answer).run w _ :=
        congrArg (fun r : question.Answer × σ => (next r.1).run w r.2) same
      rw [first]
      exact ih answer tail others

theorem gives_of_run (p : Program α) (s : σ) :
    ∃ events, p.Gives events (p.run w s).1 ∧ w.Answers s events (p.run w s).2 := by
  induction p generalizing s with
  | done b => exact ⟨[], .refl _, .nil s⟩
  | ask question next ih =>
    obtain ⟨events, given, answers⟩ := ih (w.answer question s).1 (w.answer question s).2
    exact ⟨⟨question, (w.answer question s).1⟩ :: events, .ask given, .cons rfl answers⟩

end Program

end KeyService
