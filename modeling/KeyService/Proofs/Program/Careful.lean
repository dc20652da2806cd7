import KeyService.Proofs.Program.Asks

/-! Programs that keep a pair only where they have just found none.
Such a program replaces no pair of a store that is its own: between the look and the write
nothing else was kept. -/
namespace KeyService.Program

variable {α β ε : Type} {P P' : Question → Prop} {missed missed' : List String}

/-- The ids under which there is no pair, as far as a program knows: it has looked, and has kept no
pair since. -/
def missedAfter (missed : List String) : Event → List String
  | ⟨.findPair id, .error (.missing _)⟩ => id :: missed
  | ⟨.keepPair _ _, _⟩ => []
  | _ => missed

structure MayAsk (P : Question → Prop) (missed : List String) (question : Question) : Prop where
  kind : P question
  missed : ∀ id pair, question = .keepPair id pair → id ∈ missed

/-- Whatever a program is told, it asks questions of one kind only, and keeps a pair only under an
id that it has missed. -/
def Careful (P : Question → Prop) : Program α → List String → Prop
  | .done _, _ => True
  | .ask question next, missed => MayAsk P missed question ∧
      ∀ answer, (next answer).Careful P (missedAfter missed ⟨question, answer⟩)

theorem missedAfter_mono (more : missed ⊆ missed') (e : Event) :
    missedAfter missed e ⊆ missedAfter missed' e := by
  unfold missedAfter
  split
  · exact List.cons_subset_cons _ more
  · exact List.Subset.refl _
  · exact more

theorem subset_missedAfter {e : Event} (spares : ∀ id pair, e.1 ≠ .keepPair id pair) :
    missed ⊆ missedAfter missed e := by
  unfold missedAfter
  split
  · exact List.subset_cons_self _ _
  · exact absurd rfl (spares _ _)
  · exact List.Subset.refl _

theorem Careful.mono {p : Program α} (careful : p.Careful P missed) (kind : ∀ q, P q → P' q)
    (more : missed ⊆ missed') : p.Careful P' missed' := by
  induction p generalizing missed missed' with
  | done a => trivial
  | ask question next ih =>
    obtain ⟨may, rest⟩ := careful
    refine ⟨⟨kind _ may.kind, fun id pair same => more (may.missed id pair same)⟩, fun answer => ?_⟩
    exact ih answer (rest answer) (missedAfter_mono more _)

theorem Careful.asks {p : Program α} (careful : p.Careful P missed) : p.Asks P := by
  induction p generalizing missed with
  | done a => trivial
  | ask question next ih => exact ⟨careful.1.kind, fun answer => ih answer (careful.2 answer)⟩

/-- Questions that keep no pair. -/
def Keepless (P : Question → Prop) (question : Question) : Prop :=
  P question ∧ ∀ id pair, question ≠ .keepPair id pair

theorem careful_of_asks {p : Program α} (asks : p.Asks (Keepless P)) : p.Careful P missed := by
  induction p generalizing missed with
  | done a => trivial
  | ask question next ih =>
    obtain ⟨⟨kind, spares⟩, rest⟩ := asks
    exact ⟨⟨kind, fun id pair same => absurd same (spares id pair)⟩, fun answer =>
      ih answer (rest answer)⟩

theorem careful_pure (a : α) : (pure a : Program α).Careful P missed := trivial

/-- What the first program has missed is no longer known to be missing when the second one begins. -/
theorem careful_bind {p : Program α} {f : α → Program β} (first : p.Careful P missed)
    (second : ∀ a, (f a).Careful P []) : (p >>= f).Careful P missed := by
  induction p generalizing missed with
  | done a => exact (second a).mono (fun _ kind => kind) (List.nil_subset _)
  | ask question next ih => exact ⟨first.1, fun answer => ih answer (first.2 answer)⟩

/-- After a program that keeps no pair, what was missed before is missing still. The second program
need only behave after what the first may end with. -/
theorem careful_after {p : Program α} {f : α → Program β} (first : p.Asks (Keepless P))
    (second : ∀ events a, p.Gives events a → (f a).Careful P missed) :
    (p >>= f).Careful P missed := by
  induction p generalizing missed with
  | done a => exact second [] a (.refl _)
  | ask question next ih =>
    obtain ⟨⟨kind, spares⟩, rest⟩ := first
    refine ⟨⟨kind, fun id pair same => absurd same (spares id pair)⟩, fun answer => ?_⟩
    refine ih answer (rest answer) fun events a given => ?_
    have careful := second (⟨question, answer⟩ :: events) a (.ask given)
    exact careful.mono (fun _ kind => kind) (subset_missedAfter spares)

theorem careful_act_bind {x : ExceptT ε Program α} {f : α → ExceptT ε Program β}
    (first : x.run.Careful P missed) (second : ∀ a, (f a).run.Careful P []) :
    (x >>= f).run.Careful P missed := by
  rw [ExceptT.run_bind]
  refine careful_bind first fun r => ?_
  cases r with
  | ok a => exact second a
  | error e => exact careful_pure _

theorem careful_act_after {x : ExceptT ε Program α} {f : α → ExceptT ε Program β}
    (first : x.run.Asks (Keepless P))
    (second : ∀ events a, x.run.Gives events (.ok a) → (f a).run.Careful P missed) :
    (x >>= f).run.Careful P missed := by
  rw [ExceptT.run_bind]
  refine careful_after first fun events r given => ?_
  cases r with
  | ok a => exact second events a given
  | error e => exact careful_pure _

theorem careful_except (x : Except ε α) : (liftM x : ExceptT ε Program α).run.Careful P missed :=
  careful_pure x

end KeyService.Program
