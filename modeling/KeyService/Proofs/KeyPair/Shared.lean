import KeyService.Proofs.Engine.Resolve
import KeyService.Proofs.KeyPair.Backend
import KeyService.Proofs.Program.Pool

/-! One store of pairs for many programs.
Each look-up sees the store as it is at that moment. A store may fail at any time, and then
keeps nothing. The lock that guards the making of a pair belongs to an engine, not to the
store: programs of different engines do not wait for each other. -/
namespace KeyService

/-- A store that programs share, and which engines have somebody who makes a pair. -/
structure Shared (σ E : Type) where
  pairs : σ
  busy : E → Bool

namespace Shared

def Elsewhere : Question → Prop
  | .findPair _ | .keepPair _ _ | .enter | .leave => False
  | _ => True

variable {ι σ E : Type} [DecidableEq E]

/-- What programs of several engines may be answered, and what it does to the store and the
locks. -/
inductive Step (B : KeyPair.Backend σ) (owner : ι → E) :
    Shared σ E → ι → Event → Shared σ E → Prop where
  | find (s : Shared σ E) (i : ι) (id : String) :
      Step B owner s i ⟨.findPair id, B.find s.pairs id⟩ s
  | findFails (s : Shared σ E) (i : ι) (id detail : String) :
      Step B owner s i ⟨.findPair id, .error (.storage detail)⟩ s
  | keep {s : Shared σ E} {i : ι} {id : String} {pair : KeyPair} {pairs : σ} :
      B.keep s.pairs id pair = .ok pairs →
        Step B owner s i ⟨.keepPair id pair, .ok ()⟩ { s with pairs }
  | keepFails (s : Shared σ E) (i : ι) (id : String) (pair : KeyPair) (cause : KeyPair.Error) :
      Step B owner s i ⟨.keepPair id pair, .error cause⟩ s
  | enter {s : Shared σ E} {i : ι} : s.busy (owner i) = false →
      Step B owner s i ⟨.enter, ()⟩ { s with busy := Function.update s.busy (owner i) true }
  | leave (s : Shared σ E) (i : ι) :
      Step B owner s i ⟨.leave, ()⟩ { s with busy := Function.update s.busy (owner i) false }
  | other {s : Shared σ E} {i : ι} {e : Event} : Elsewhere e.1 → Step B owner s i e s

variable {B : KeyPair.Backend σ} {valid : σ → Prop} {owner : ι → E}

theorem Step.pairs (isMap : B.IsMap valid) {s s' : Shared σ E} {i : ι} {e : Event}
    (step : Step B owner s i e s') (inside : valid s.pairs) :
    valid s'.pairs ∧ ∀ id pair, B.find s'.pairs id = .ok pair →
      B.find s.pairs id = .ok pair ∨ e = ⟨.keepPair id pair, .ok ()⟩ := by
  cases step with
  | keep kept =>
    refine ⟨isMap.valid_keep inside kept, fun id pair found => ?_⟩
    rename_i name made pairs
    by_cases same : id = name
    · subst same
      rw [isMap.find_kept inside kept] at found
      cases found
      exact .inr rfl
    · rw [isMap.find_other inside kept same] at found
      exact .inl found
  | find => exact ⟨inside, fun _ _ found => .inl found⟩
  | findFails => exact ⟨inside, fun _ _ found => .inl found⟩
  | keepFails => exact ⟨inside, fun _ _ found => .inl found⟩
  | enter _ => exact ⟨inside, fun _ _ found => .inl found⟩
  | leave => exact ⟨inside, fun _ _ found => .inl found⟩
  | other _ => exact ⟨inside, fun _ _ found => .inl found⟩

theorem Step.stays (isMap : B.IsMap valid) {s s' : Shared σ E} {i : ι} {e : Event}
    (step : Step B owner s i e s') (inside : valid s.pairs) {id : String} {pair : KeyPair}
    (there : B.find s.pairs id = .ok pair ∨ e = ⟨.keepPair id pair, .ok ()⟩) :
    ∃ pair', B.find s'.pairs id = .ok pair' := by
  generalize event : e = e' at step
  cases step with
  | @keep name made pairs kept =>
    by_cases same : id = name
    · subst same
      exact ⟨made, isMap.find_kept inside kept⟩
    · rcases there with found | now
      · exact ⟨pair, (isMap.find_other inside kept same).trans found⟩
      · obtain ⟨asked, -⟩ := Sigma.mk.inj (now.symm.trans event)
        exact absurd (Question.keepPair.inj asked).1 same
  | other elsewhere =>
    rcases there with found | now
    · exact ⟨pair, found⟩
    · rw [← event, now] at elsewhere
      exact elsewhere.elim
  | keepFails =>
    rcases there with found | now
    · exact ⟨pair, found⟩
    · obtain ⟨asked, told⟩ := Sigma.mk.inj (now.symm.trans event)
      obtain ⟨rfl, rfl⟩ := Question.keepPair.inj asked
      exact nomatch eq_of_heq told
  | _ =>
    rcases there with found | now
    · exact ⟨pair, found⟩
    · exact nomatch (Sigma.mk.inj (now.symm.trans event)).1

theorem Step.looked {s : Shared σ E} {i : ι} {id : String} {answer : Except KeyPair.Error KeyPair}
    (held : B.find s.pairs id = answer) : Step B owner s i ⟨.findPair id, answer⟩ s :=
  held ▸ .find s i id

theorem Step.asked {s s' : Shared σ E} {i : ι} {id : String}
    {answer : Except KeyPair.Error KeyPair} (step : Step B owner s i ⟨.findPair id, answer⟩ s') :
    B.find s.pairs id = answer ∨ ∃ detail, answer = .error (.storage detail) := by
  cases step with
  | find => exact .inl rfl
  | findFails _ detail => exact .inr ⟨detail, rfl⟩
  | other elsewhere => exact elsewhere.elim

theorem Step.found {s s' : Shared σ E} {i : ι} {id : String} {pair : KeyPair}
    (step : Step B owner s i ⟨.findPair id, .ok pair⟩ s') : B.find s.pairs id = .ok pair := by
  rcases step.asked with found | ⟨detail, failed⟩
  · exact found
  · cases failed

variable [DecidableEq ι] {α : ι → Type} {start pool : Pool α} {origin state : Shared σ E}
  {history : History ι}

/-- What holds of the pairs that a store begins with, and of those that are kept, holds of all
pairs that it ever has and of all that are found. -/
theorem holds (isMap : B.IsMap valid) (run : Run (Step B owner) start origin history pool state)
    (inside : valid origin.pairs) {P : String → KeyPair → Prop}
    (begun : ∀ id pair, B.find origin.pairs id = .ok pair → P id pair)
    (kept : ∀ i id pair, (i, ⟨.keepPair id pair, .ok ()⟩) ∈ history → P id pair) :
    valid state.pairs ∧ (∀ id pair, B.find state.pairs id = .ok pair → P id pair) ∧
      ∀ i id pair, (i, ⟨.findPair id, .ok pair⟩) ∈ history → P id pair := by
  induction run with
  | start => exact ⟨inside, begun, fun _ _ _ member => absurd member List.not_mem_nil⟩
  | @step history pool s s' i question next answer _ _ step ih =>
    obtain ⟨stays, held, found⟩ :=
      ih fun j id pair member => kept j id pair (List.mem_append_left _ member)
    obtain ⟨stays', changed⟩ := step.pairs isMap stays
    refine ⟨stays', fun id pair there => ?_, fun j id pair member => ?_⟩
    · rcases changed id pair there with before | now
      · exact held id pair before
      · exact kept i id pair (by simp [now])
    · rcases List.mem_append.mp member with before | now
      · exact found j id pair before
      · obtain ⟨rfl, same⟩ := Prod.mk.inj (List.mem_singleton.mp now)
        rw [← same] at step
        exact held id pair step.found

theorem there_of_kept (isMap : B.IsMap valid)
    (run : Run (Step B owner) start origin history pool state) (inside : valid origin.pairs) {i : ι}
    {id : String} {pair : KeyPair} (kept : (i, ⟨.keepPair id pair, .ok ()⟩) ∈ history) :
    ∃ pair', B.find state.pairs id = .ok pair' := by
  induction run with
  | start => exact absurd kept List.not_mem_nil
  | @step history pool s s' j question next answer run _ step ih =>
    have stays : valid s.pairs :=
      (holds (P := fun _ _ => True) isMap run inside (fun _ _ _ => trivial) fun _ _ _ _ => trivial).1
    rcases List.mem_append.mp kept with before | now
    · obtain ⟨pair', found⟩ := ih before
      exact step.stays isMap stays (.inl found)
    · exact step.stays isMap stays (.inr (Prod.mk.inj (List.mem_singleton.mp now)).2.symm)

end Shared

end KeyService
