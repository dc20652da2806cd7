import KeyService.Proofs.Program.Trace

/-! What a program ends with, as long as its answers are of one kind.
To run one program after another, it is enough to know what the first one may end with;
work that may fail is followed by more work only where it does not. -/
namespace KeyService.Program

variable {α β ε ε' : Type} {P : Event → Prop}

/-- Whatever a program is told that is of the kind `P`, it ends with a result of the kind `Q`. -/
def Assures (P : Event → Prop) (p : Program α) (Q : α → Prop) : Prop :=
  ∀ events a, p.Gives events a → (∀ e ∈ events, P e) → Q a

/-- The work does not fail. -/
def Succeeds (P : Event → Prop) (x : ExceptT ε Program α) (Q : α → Prop) : Prop :=
  Assures P x.run fun r => ∃ a, r = .ok a ∧ Q a

variable {Q R : α → Prop} {T : β → Prop}

theorem Assures.mono {p : Program α} (assures : Assures P p Q) (weaker : ∀ a, Q a → R a) :
    Assures P p R := fun events a given kind => weaker a (assures events a given kind)

theorem Succeeds.mono {x : ExceptT ε Program α} (succeeds : Succeeds P x Q)
    (weaker : ∀ a, Q a → R a) : Succeeds P x R := by
  intro events r given kind
  obtain ⟨a, same, holds⟩ := succeeds events r given kind
  exact ⟨a, same, weaker a holds⟩

theorem assures_true {p : Program α} : Assures P p fun _ => True := fun _ _ _ _ => trivial

theorem assures_pure {a : α} (holds : Q a) : Assures P (pure a) Q := by
  intro events b given _
  obtain ⟨-, rfl⟩ := gives_pure.mp given
  exact holds

theorem assures_put {question : Question} {Q : question.Answer → Prop}
    (holds : ∀ answer, P ⟨question, answer⟩ → Q answer) : Assures P (put question) Q := by
  intro events answer given kind
  rw [gives_put] at given
  exact holds answer (kind _ (by simp [given]))

theorem assures_draw {count : Nat} : Assures P (draw count) fun bs => bs.length = count := by
  intro events bs given _
  obtain ⟨drawn, -, rfl⟩ := gives_draw.mp given
  exact drawn.property

theorem assures_bind {p : Program α} {f : α → Program β} (first : Assures P p R)
    (second : ∀ a, R a → Assures P (f a) T) : Assures P (p >>= f) T := by
  intro events b given kind
  obtain ⟨a, before, after, rfl, led, rest⟩ := gives_bind.mp given
  have holds := first before a led fun e member => kind e (List.mem_append_left _ member)
  exact second a holds after b rest fun e member => kind e (List.mem_append_right _ member)

theorem succeeds_pure {a : α} (holds : Q a) : Succeeds P (pure a : ExceptT ε Program α) Q :=
  assures_pure ⟨a, rfl, holds⟩

theorem succeeds_except {x : Except ε α} {a : α} (done : x = .ok a) (holds : Q a) :
    Succeeds P (liftM x : ExceptT ε Program α) Q :=
  assures_pure ⟨a, done, holds⟩

theorem succeeds_program {p : Program α} (assures : Assures P p Q) :
    Succeeds P (liftM p : ExceptT ε Program α) Q := by
  intro events r given kind
  obtain ⟨a, led, rfl⟩ := gives_program.mp given
  exact ⟨a, rfl, assures events a led kind⟩

/-- What follows work that does not fail need only behave after the results that it may have. -/
theorem assures_after {x : ExceptT ε Program α} {f : α → ExceptT ε Program β}
    {Q : Except ε β → Prop} (first : Succeeds P x R)
    (second : ∀ a, R a → Assures P (f a).run Q) : Assures P (x >>= f).run Q := by
  refine assures_bind first fun r done => ?_
  obtain ⟨a, rfl, holds⟩ := done
  exact second a holds

theorem succeeds_bind {x : ExceptT ε Program α} {f : α → ExceptT ε Program β}
    (first : Succeeds P x R) (second : ∀ a, R a → Succeeds P (f a) T) : Succeeds P (x >>= f) T :=
  assures_after first second

theorem assures_except_bind {x : Except ε α} {a : α} {f : α → ExceptT ε Program β}
    {Q : Except ε β → Prop} (done : x = .ok a) (rest : Assures P (f a).run Q) :
    Assures P (liftM x >>= f : ExceptT ε Program β).run Q :=
  assures_after (succeeds_except done (Q := (· = a)) rfl) fun _ same => same ▸ rest

theorem succeeds_except_bind {x : Except ε α} {a : α} {f : α → ExceptT ε Program β}
    (done : x = .ok a) (rest : Succeeds P (f a) T) :
    Succeeds P (liftM x >>= f : ExceptT ε Program β) T :=
  assures_except_bind done rest

theorem succeeds_mapError (tell : ε → ε') {x : ExceptT ε Program α} (first : Succeeds P x Q) :
    Succeeds P (ExceptT.mk do return (← x.run).mapError tell) Q := by
  refine assures_bind first fun r done => ?_
  obtain ⟨a, rfl, holds⟩ := done
  exact assures_pure ⟨a, rfl, holds⟩

theorem succeeds_adapt (tell : ε → ε') {x : ExceptT ε Program α} (first : Succeeds P x Q) :
    Succeeds P (x.adapt tell) Q := by
  rw [Succeeds, run_adapt]
  exact succeeds_mapError tell first

/-- The work does not fail with this cause, though it may with another one. -/
def Avoids (P : Event → Prop) (x : ExceptT ε Program α) (cause : ε) : Prop :=
  Assures P x.run (· ≠ .error cause)

variable {cause : ε}

theorem avoids_pure (a : α) : Avoids P (pure a : ExceptT ε Program α) cause := assures_pure nofun

theorem avoids_except {x : Except ε α} (other : x ≠ .error cause) :
    Avoids P (liftM x : ExceptT ε Program α) cause := assures_pure other

theorem avoids_program (p : Program α) :
    Avoids P (liftM p : ExceptT ε Program α) cause := by
  intro events r given _
  obtain ⟨a, -, rfl⟩ := gives_program.mp given
  exact nofun

theorem avoids_bind {x : ExceptT ε Program α} {f : α → ExceptT ε Program β}
    (first : Avoids P x cause) (second : ∀ a, Avoids P (f a) cause) :
    Avoids P (x >>= f) cause := by
  refine assures_bind first fun r other => ?_
  cases r with
  | ok a => exact second a
  | error e => exact assures_pure fun same => other (congrArg _ (Except.error.inj same))

end KeyService.Program
