import KeyService.Proofs.Program.Asks

/-! Programs that keep a pair only under a lock.
Such a program looks for the pair after it has entered, and keeps one only if it has found none;
it leaves before it ends. What it has found before it entered does not count. -/
namespace KeyService.Program

/-- Where a program stands. Inside, it may have missed the pair that it is about to keep. -/
inductive Position where
  | outside
  | inside
  | missed
  deriving DecidableEq

namespace Position

def isMissing : Except KeyPair.Error KeyPair → Bool
  | .error (.missing _) => true
  | _ => false

theorem isMissing_iff {found : Except KeyPair.Error KeyPair} :
    isMissing found = true ↔ ∃ name, found = .error (.missing name) := by
  cases found with
  | ok pair => simp [isMissing]
  | error cause => cases cause <;> simp [isMissing]

/-- Only a look from the inside tells that a pair is missing. -/
def after (id : String) (position : Position) : Event → Position
  | ⟨.enter, _⟩ => inside
  | ⟨.leave, _⟩ => outside
  | ⟨.findPair name, found⟩ =>
    if position = inside ∧ name = id ∧ isMissing found then missed else position
  | ⟨.keepPair _ _, _⟩ => if position = missed then inside else position
  | _ => position

def Allows (id : String) : Position → Question → Prop
  | outside, .enter => True
  | outside, .leave => False
  | outside, .keepPair _ _ => False
  | inside, .enter => False
  | inside, .keepPair _ _ => False
  | missed, .enter => False
  | missed, .keepPair name _ => name = id
  | _, _ => True

/-- Where a program stands that began outside. -/
def reached (id : String) (events : List Event) : Position := events.foldl (after id) outside

/-- Whoever is inside was so before, unless he has just entered. -/
theorem inside_of_after {id : String} {position : Position} {e : Event} (other : e.1 ≠ .enter)
    (inside : position.after id e ≠ .outside) : position ≠ .outside := by
  rintro rfl
  obtain ⟨question, answer⟩ := e
  cases question <;> simp [after] at other inside

/-- Who has missed a pair under an id had missed it before, or has just looked for it. -/
theorem missed_of_after {id : String} {position : Position} {e : Event}
    (missed : position.after id e = .missed) :
    position = .missed ∨ ∃ name, e = ⟨.findPair id, .error (.missing name)⟩ := by
  obtain ⟨question, answer⟩ := e
  cases question with
  | findPair name =>
    simp only [after] at missed
    split at missed
    · rename_i looked
      obtain ⟨-, rfl, miss⟩ := looked
      obtain ⟨other, rfl⟩ := isMissing_iff.mp miss
      exact .inr ⟨other, rfl⟩
    · exact .inl missed
  | keepPair name pair =>
    simp only [after] at missed
    split at missed
    · cases missed
    · exact .inl missed
  | enter => simp [after] at missed
  | leave => simp [after] at missed
  | _ => exact .inl missed

theorem reached_snoc (id : String) (events : List Event) (e : Event) :
    reached id (events ++ [e]) = (reached id events).after id e := by
  simp [reached]

end Position

variable {α β ε : Type} {id : String} {position : Position} {Q R : Position → Prop}

/-- Whatever a program is told, it asks what its position allows, and it ends at a position of one
kind. -/
def Guarded (id : String) (Q : Position → Prop) : Program α → Position → Prop
  | .done _, position => Q position
  | .ask question next, position => position.Allows id question ∧
      ∀ answer, (next answer).Guarded id Q (position.after id ⟨question, answer⟩)

theorem Guarded.leads {p rest : Program α} {events : List Event}
    (guarded : p.Guarded id Q position) (led : p.Leads events rest) :
    rest.Guarded id Q (events.foldl (Position.after id) position) := by
  induction led generalizing position with
  | refl => exact guarded
  | ask _ ih => exact ih (guarded.2 _)

theorem guarded_pure {a : α} (ends : Q position) :
    (pure a : Program α).Guarded id Q position := ends

theorem guarded_bind {p : Program α} {f : α → Program β} (first : p.Guarded id R position)
    (second : ∀ a position, R position → (f a).Guarded id Q position) :
    (p >>= f).Guarded id Q position := by
  induction p generalizing position with
  | done a => exact second a position first
  | ask question next ih => exact ⟨first.1, fun answer => ih answer (first.2 answer)⟩

theorem guarded_of_draws {p : Program α} (asks : p.Asks fun q => ∃ count, q = .random count)
    (ends : Q position) : p.Guarded id Q position := by
  induction p with
  | done a => exact ends
  | ask question next ih =>
    obtain ⟨⟨count, rfl⟩, rest⟩ := asks
    constructor
    · cases position <;> trivial
    · intro answer
      cases position <;> exact ih answer (rest answer)

theorem guarded_act_bind {x : ExceptT ε Program α} {f : α → ExceptT ε Program β}
    (first : x.run.Guarded id R position) (fails : ∀ position, R position → Q position)
    (second : ∀ a position, R position → (f a).run.Guarded id Q position) :
    (x >>= f).run.Guarded id Q position := by
  rw [ExceptT.run_bind]
  apply guarded_bind first
  intro r position ends
  cases r with
  | ok a => exact second a position ends
  | error e => exact guarded_pure (fails position ends)

/-- Work that is done alone may begin outside only, and ends there. -/
theorem guarded_alone {work : Program α}
    (guarded : work.Guarded id (· ≠ .outside) .inside) :
    (alone work).Guarded id (· = .outside) .outside := by
  constructor
  · trivial
  · intro _
    apply guarded_bind guarded
    intro a position ends
    constructor
    · cases position <;> simp_all [Position.Allows]
    · intro _
      cases position <;> rfl

end KeyService.Program
