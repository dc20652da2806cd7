import KeyService.Proofs.Program.Trace

/-! What a program may ask at all, however it is answered. -/
namespace KeyService.Program

variable {α β ε : Type} {P : Question → Prop}

/-- Whatever a program is told, it asks questions of one kind only. -/
def Asks (P : Question → Prop) : Program α → Prop
  | .done _ => True
  | .ask question next => P question ∧ ∀ answer, (next answer).Asks P

/-- What was asked is of the kind, and so is what is still to be asked. -/
theorem Asks.leads {p rest : Program α} (asks : p.Asks P) {events : List Event}
    (led : p.Leads events rest) : (∀ e ∈ events, P e.1) ∧ rest.Asks P := by
  induction led with
  | refl => exact ⟨fun e member => absurd member List.not_mem_nil, asks⟩
  | ask _ ih =>
    obtain ⟨kinds, left⟩ := ih (asks.2 _)
    exact ⟨List.forall_mem_cons.mpr ⟨asks.1, kinds⟩, left⟩

theorem Asks.gives {p : Program α} (asks : p.Asks P) {events : List Event} {a : α}
    (given : p.Gives events a) : ∀ e ∈ events, P e.1 := (asks.leads given).1

theorem Asks.mono {P' : Question → Prop} {p : Program α} (asks : p.Asks P)
    (kind : ∀ question, P question → P' question) : p.Asks P' := by
  induction p with
  | done a => trivial
  | ask question next ih => exact ⟨kind _ asks.1, fun answer => ih answer (asks.2 answer)⟩

theorem asks_pure (a : α) : (pure a : Program α).Asks P := trivial

theorem asks_put {question : Question} (fits : P question) : (put question).Asks P :=
  ⟨fits, fun _ => trivial⟩

theorem asks_draw {count : Nat} (fits : P (.random count)) : (draw count).Asks P :=
  ⟨fits, fun _ => trivial⟩

theorem asks_within {n : Int} (fits : P .overflow) : (within n).Asks P := by
  unfold within
  split
  · exact asks_pure ()
  · exact asks_put fits

/-- The second program need only behave after what the first may end with. -/
theorem asks_bind {p : Program α} {f : α → Program β} (first : p.Asks P)
    (second : ∀ events a, p.Gives events a → (f a).Asks P) : (p >>= f).Asks P := by
  induction p with
  | done a => exact second [] a (.refl _)
  | ask question next ih =>
    refine ⟨first.1, fun answer => ih answer (first.2 answer) fun events a given => ?_⟩
    exact second (⟨question, answer⟩ :: events) a (.ask given)

theorem asks_act_bind {x : ExceptT ε Program α} {f : α → ExceptT ε Program β}
    (first : x.run.Asks P) (second : ∀ events a, x.run.Gives events (.ok a) → (f a).run.Asks P) :
    (x >>= f).run.Asks P := by
  rw [ExceptT.run_bind]
  refine asks_bind first fun events a given => ?_
  cases a with
  | ok a => exact second events a given
  | error e => exact asks_pure _

theorem asks_program {p : Program α} (asks : p.Asks P) :
    (liftM p : ExceptT ε Program α).run.Asks P := by
  change (ExceptT.lift p).run.Asks P
  rw [ExceptT.run_lift, map_eq_pure_bind]
  exact asks_bind asks fun _ a _ => asks_pure _

theorem asks_adapt {ε' : Type} (tell : ε → ε') {x : ExceptT ε Program α} (asks : x.run.Asks P) :
    (x.adapt tell).run.Asks P := by
  rw [run_adapt]
  exact asks_bind asks fun _ a _ => asks_pure _

theorem asks_except (x : Except ε α) : (liftM x : ExceptT ε Program α).run.Asks P := asks_pure x

end KeyService.Program
