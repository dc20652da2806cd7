import KeyService.Proofs.Program.Trace
import Mathlib.Logic.Function.Basic

/-! Programs that run side by side.
Between two questions of one program any others may be asked, so a run is an
interleaving of questions. A rule says which answers the common surroundings allow
and how they change with them. Whatever the rule, each program's own part of the
run is a trace of that program alone. -/
namespace KeyService

variable {ι σ : Type} {α : ι → Type}

abbrev Pool (α : ι → Type) := (i : ι) → Program (α i)

abbrev History (ι : Type) := List (ι × Event)

def own [DecidableEq ι] (i : ι) (history : History ι) : List Event :=
  history.filterMap fun e => if e.1 = i then some e.2 else none

/-- An interleaving of programs: one after the other, in any order, they ask their next question
and go on with an answer that the rule allows in the state so far. -/
inductive Run [DecidableEq ι] (rule : σ → ι → Event → σ → Prop) (start : Pool α) (origin : σ) :
    History ι → Pool α → σ → Prop where
  | start : Run rule start origin [] start origin
  | step {history : History ι} {pool : Pool α} {state state' : σ} {i : ι} {question : Question}
      {next : question.Answer → Program (α i)} {answer : question.Answer} :
      Run rule start origin history pool state → pool i = .ask question next →
      rule state i ⟨question, answer⟩ state' →
      Run rule start origin (history ++ [(i, ⟨question, answer⟩)])
        (Function.update pool i (next answer)) state'

/-- What a rule allows one program, one after the other: answers to its questions, or whatever else
may happen again and again. -/
inductive Steps {ε : Type} (rule : σ → ι → ε → σ → Prop) (i : ι) : σ → List ε → σ → Prop where
  | nil (state : σ) : Steps rule i state [] state
  | cons {state state' state'' : σ} {e : ε} {events : List ε} :
      rule state i e state' → Steps rule i state' events state'' →
        Steps rule i state (e :: events) state''

section

variable {ε : Type} {rule : σ → ι → ε → σ → Prop} {i : ι} {state state' state'' : σ}
  {events events' : List ε}

theorem Steps.idle (idle : ∀ e ∈ events, rule state i e state) :
    Steps rule i state events state := by
  induction events with
  | nil => exact .nil state
  | cons e events ih =>
    exact .cons (idle e List.mem_cons_self) (ih fun e' later => idle e' (List.mem_cons_of_mem e later))

theorem Steps.append (first : Steps rule i state events state')
    (second : Steps rule i state' events' state'') :
    Steps rule i state (events ++ events') state'' := by
  induction first with
  | nil => exact second
  | cons step _ ih => exact .cons step (ih second)

theorem steps_append : Steps rule i state (events ++ events') state' ↔
    ∃ middle, Steps rule i state events middle ∧ Steps rule i middle events' state' := by
  constructor
  · intro steps
    induction events generalizing state with
    | nil => exact ⟨state, .nil state, steps⟩
    | cons e events ih =>
      cases steps with
      | cons step rest =>
        obtain ⟨middle, first, second⟩ := ih rest
        exact ⟨middle, .cons step first, second⟩
  · rintro ⟨middle, first, second⟩
    exact first.append second

/-- Each step goes on from where those before it ended. -/
theorem Steps.split {before after : List ε} {e : ε}
    (steps : Steps rule i state (before ++ e :: after) state') :
    ∃ s s', Steps rule i state before s ∧ rule s i e s' ∧ Steps rule i s' after state' := by
  obtain ⟨s, earlier, rest⟩ := steps_append.mp steps
  cases rest with
  | cons step later => exact ⟨s, _, earlier, step, later⟩

/-- What no step ends is so after all of them. -/
theorem Steps.keeps (P : σ → Prop) (steps : Steps rule i state events state')
    (each : ∀ e ∈ events, ∀ s s', rule s i e s' → P s → P s') (first : P state) : P state' := by
  induction steps with
  | nil => exact first
  | cons step _ ih =>
    obtain ⟨now, later⟩ := List.forall_mem_cons.mp each
    exact ih later (now _ _ step first)

/-- What holds of a part of the state may be said of that part alone. -/
theorem Steps.map {τ : Type} {rule' : τ → ι → ε → τ → Prop} (part : σ → τ)
    (each : ∀ {s e s'}, rule s i e s' → rule' (part s) i e (part s'))
    (steps : Steps rule i state events state') :
    Steps rule' i (part state) events (part state') := by
  induction steps with
  | nil => exact .nil _
  | cons step _ ih => exact .cons (each step) ih

end

variable [DecidableEq ι]

theorem mem_own {i : ι} {e : Event} {history : History ι} :
    e ∈ own i history ↔ (i, e) ∈ history := by
  constructor
  · intro kept
    obtain ⟨⟨j, e'⟩, member, found⟩ := List.mem_filterMap.mp kept
    by_cases same : j = i
    · subst same
      simp only [if_true, Option.some.injEq] at found
      exact found ▸ member
    · simp only [if_neg same, reduceCtorEq] at found
  · intro member
    exact List.mem_filterMap.mpr ⟨(i, e), member, if_pos rfl⟩

theorem own_snoc (i j : ι) (e : Event) (history : History ι) :
    own i (history ++ [(j, e)]) = own i history ++ if j = i then [e] else [] := by
  unfold own
  rw [List.filterMap_append]
  by_cases same : j = i <;> simp [same]

theorem own_append (i : ι) (history history' : History ι) :
    own i (history ++ history') = own i history ++ own i history' := List.filterMap_append

theorem own_part (i j : ι) (events : List Event) :
    own i (events.map (j, ·)) = if j = i then events else [] := by
  induction events with
  | nil => exact (ite_self []).symm
  | cons e events ih =>
    rw [List.map_cons, ← List.singleton_append, own_append, ih]
    by_cases same : j = i <;> simp [own, same]

namespace Run

variable {rule : σ → ι → Event → σ → Prop} {start pool : Pool α} {origin state : σ}
  {history : History ι}

/-- What a program did in company it could have done alone, with the same answers. -/
theorem leads (run : Run rule start origin history pool state) (i : ι) :
    (start i).Leads (own i history) (pool i) := by
  induction run with
  | start => exact .refl _
  | @step history pool _ _ j question next answer _ asks _ ih =>
    rw [own_snoc]
    by_cases same : j = i
    · subst same
      rw [if_pos rfl, Function.update_self]
      exact (asks ▸ ih).snoc answer
    · rw [if_neg same, List.append_nil, Function.update_of_ne (Ne.symm same)]
      exact ih

theorem gives (run : Run rule start origin history pool state) {i : ι} {a : α i}
    (ended : pool i = .done a) : (start i).Gives (own i history) a := by
  have led := run.leads i
  rw [ended] at led
  exact led

theorem extend (run : Run rule start origin history pool state) {i : ι} {events : List Event}
    {rest : Program (α i)} {state' : σ} (led : (pool i).Leads events rest)
    (steps : Steps rule i state events state') :
    Run rule start origin (history ++ events.map (i, ·)) (Function.update pool i rest) state' := by
  generalize stage : pool i = p at led
  induction steps generalizing history pool p with
  | nil state =>
    cases led
    rw [List.map_nil, List.append_nil, ← stage, Function.update_eq_self]
    exact run
  | cons first _ ih =>
    cases led with
    | ask tail =>
      have longer := ih (run.step stage first) _ (Function.update_self ..) tail
      rw [Function.update_idem, List.append_assoc] at longer
      exact longer

end Run

end KeyService
