import KeyService.Exchange.Session
import KeyService.Proofs.KeyPair.Backend
import KeyService.Proofs.Program.Pool

/-! Stores that do not fail and that nobody else writes to.
What programs are told of pairs and of sessions is what the stores have, and a store changes
only when it is asked to keep something. Anything else may be answered in any way, and the
clock may say anything. -/
namespace KeyService

variable {ι σ : Type} {i : ι} {e : Event} {events : List Event}

def Question.session? : Question → Option Exchange.Session
  | .keepSession s => some s
  | _ => none

namespace Exchange.SessionStore

def Elsewhere : Question → Prop
  | .findSession _ | .keepSession _ | .countSessions => False
  | _ => True

/-- What a program is told of sessions, and what becomes of them. -/
inductive Step : SessionStore → ι → Event → SessionStore → Prop where
  | find (t : SessionStore) (i : ι) (now : Int64) (id : String) :
      Step t i ⟨.findSession id, t.get now id⟩ t
  | keep (t : SessionStore) (i : ι) (now : Int64) (s : Session) :
      Step t i ⟨.keepSession s, ()⟩ (t.keep now s)
  | count (t : SessionStore) (i : ι) : Step t i ⟨.countSessions, t.size⟩ t
  | other {t : SessionStore} {i : ι} {e : Event} : Elsewhere e.1 → Step t i e t

def kept (events : List Event) : List Session := events.filterMap fun e => e.1.session?

variable {t t' : SessionStore} {s : Session}

theorem kept_append (events events' : List Event) :
    kept (events ++ events') = kept events ++ kept events' := List.filterMap_append

theorem kept_cons_none (other : e.1.session? = none) (events : List Event) :
    kept (e :: events) = kept events := List.filterMap_cons_none other

theorem kept_cons_some (keeping : e.1.session? = some s) (events : List Event) :
    kept (e :: events) = s :: kept events := List.filterMap_cons_some keeping

theorem kept_eq_nil : kept events = [] ↔ ∀ e ∈ events, e.1.session? = none :=
  List.filterMap_eq_nil_iff

theorem Step.eq_of_other (step : Step t i e t') (other : e.1.session? = none) : t' = t := by
  cases step with
  | keep => cases other
  | _ => rfl

theorem Step.kept_of_some (step : Step t i e t') (keeping : e.1.session? = some s) :
    ∃ now, t' = t.keep now s := by
  cases step with
  | keep now =>
    obtain rfl := Option.some.inj keeping
    exact ⟨now, rfl⟩
  | other elsewhere =>
    obtain ⟨question, answer⟩ := e
    cases question with
    | keepSession s => exact elsewhere.elim
    | _ => cases keeping
  | _ => cases keeping

theorem eq_of_steps (steps : Steps Step i t events t') (none : kept events = []) : t' = t := by
  have others := kept_eq_nil.mp none
  exact steps.keeps (· = t)
    (fun e member _ _ step same => (step.eq_of_other (others e member)).trans same) rfl

theorem keep_of_steps (steps : Steps Step i t events t') (one : kept events = [s]) :
    ∃ now, t' = t.keep now s := by
  induction steps with
  | nil => cases one
  | @cons t t₁ t' e events step rest ih =>
    cases keeping : e.1.session? with
    | none =>
      obtain rfl := step.eq_of_other keeping
      exact ih ((kept_cons_none keeping events).symm.trans one)
    | some s' =>
      rw [kept_cons_some keeping] at one
      obtain ⟨rfl, none⟩ := List.cons.inj one
      obtain rfl := eq_of_steps rest none
      exact step.kept_of_some keeping

theorem entries_keep_of_new (new : t.find? s.id = none) (now : Int64) :
    (t.keep now s).entries = (s.id, s) :: t.entries.filter fun e => !e.2.isExpired now := by
  have others : ∀ e ∈ t.entries, e.1 ≠ s.id := by
    intro e member same
    have absent := List.lookup_eq_none_iff.mp new e member
    simp [same] at absent
  have left : (t.entries.filter fun e => !e.2.isExpired now).filter (fun e => e.1 ≠ s.id) =
      t.entries.filter fun e => !e.2.isExpired now :=
    List.filter_eq_self.mpr fun e member => by simpa using others e (List.mem_filter.mp member).1
  exact congrArg ((s.id, s) :: ·) left

theorem find?_keep_of_ne {id : String} (other : id ≠ s.id) (unused : t.find? id = none)
    (now : Int64) : (t.keep now s).find? id = none := by
  simp only [SessionStore.keep, Table.find?_insert, if_neg other]
  refine List.lookup_eq_none_iff.mpr fun e member => ?_
  exact List.lookup_eq_none_iff.mp unused e (List.mem_filter.mp member).1

end Exchange.SessionStore

end KeyService
