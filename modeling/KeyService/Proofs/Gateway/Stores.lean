import KeyService.Proofs.Engine.Resolve
import KeyService.Proofs.Exchange.Stores
import KeyService.Proofs.KeyPair.Backend
import KeyService.Proofs.Program.Careful

/-! The stores of a gateway.
The pairs and the sessions change only when they are asked to keep something, and time passes
with every question. What else is asked may be answered in any way. -/
namespace KeyService

structure Stores (σ : Type) where
  now : Int64
  pairs : σ
  sessions : Exchange.SessionStore

namespace Stores

variable {ι σ : Type}

def wait (s : Stores σ) (now : Int64) : Stores σ := { s with now }

def Elsewhere : Question → Prop
  | .now | .findPair _ | .keepPair _ _ | .findSession _ | .keepSession _ | .countSessions => False
  | _ => True

/-- What a program is told at some time, and what becomes of the stores. -/
inductive Step (B : KeyPair.Backend σ) : Stores σ → ι → Event → Stores σ → Prop where
  | time (s : Stores σ) (i : ι) (now : Int64) : Step B s i ⟨.now, now⟩ (s.wait now)
  | findPair (s : Stores σ) (i : ι) (now : Int64) (id : String) :
      Step B s i ⟨.findPair id, B.find s.pairs id⟩ (s.wait now)
  | keepPair {s : Stores σ} {i : ι} (now : Int64) {id : String} {pair : KeyPair} {pairs : σ} :
      B.keep s.pairs id pair = .ok pairs →
        Step B s i ⟨.keepPair id pair, .ok ()⟩ { s.wait now with pairs }
  | refusePair {s : Stores σ} {i : ι} (now : Int64) {id : String} {pair : KeyPair}
      {cause : KeyPair.Error} : B.keep s.pairs id pair = .error cause →
        Step B s i ⟨.keepPair id pair, .error cause⟩ (s.wait now)
  | findSession (s : Stores σ) (i : ι) (now : Int64) (id : String) :
      Step B s i ⟨.findSession id, s.sessions.get now id⟩ (s.wait now)
  | keepSession (s : Stores σ) (i : ι) (now : Int64) (session : Exchange.Session) :
      Step B s i ⟨.keepSession session, ()⟩
        { s.wait now with sessions := s.sessions.keep now session }
  | countSessions (s : Stores σ) (i : ι) (now : Int64) :
      Step B s i ⟨.countSessions, s.sessions.size⟩ (s.wait now)
  | other {s : Stores σ} {i : ι} (now : Int64) {e : Event} : Elsewhere e.1 →
      Step B s i e (s.wait now)

variable {B : KeyPair.Backend σ} {valid : σ → Prop} {s s' : Stores σ} {i : ι} {e : Event}
  {events : List Event} {missed : List String} {P : Question → Prop}

theorem Step.sessions (step : Step B s i e s') :
    Exchange.SessionStore.Step s.sessions i e s'.sessions := by
  cases step with
  | findSession now id => exact .find _ _ _ _
  | keepSession now session => exact .keep _ _ _ _
  | countSessions => exact .count _ _
  | other now elsewhere =>
    refine .other ?_
    obtain ⟨question, answer⟩ := e
    cases question <;> trivial
  | _ => exact .other trivial

theorem sessions_of_steps (steps : Steps (Step B) i s events s') :
    Steps Exchange.SessionStore.Step i s.sessions events s'.sessions :=
  steps.map Stores.sessions Step.sessions

theorem sessions_eq (steps : Steps (Step B) i s events s')
    (none : Exchange.SessionStore.kept events = []) : s'.sessions = s.sessions :=
  Exchange.SessionStore.eq_of_steps (sessions_of_steps steps) none

/-- Where a session is kept at the end, the store is changed by one insert, at that time. -/
theorem sessions_keep {session : Exchange.Session}
    (steps : Steps (Step B) i s (events ++ [⟨.keepSession session, ()⟩]) s')
    (none : Exchange.SessionStore.kept events = []) :
    s'.sessions = s.sessions.keep s'.now session := by
  obtain ⟨middle, before, last⟩ := steps_append.mp steps
  rw [← sessions_eq before none]
  cases last with
  | cons step rest =>
    cases rest
    cases step with
    | keepSession now => rfl
    | other now elsewhere => exact elsewhere.elim

theorem sees_cons {id : String} {pair : KeyPair} :
    Sees id pair (e :: events) ↔ Sees id pair [e] ∨ Sees id pair events := by
  simp only [Sees, List.mem_cons, List.not_mem_nil, or_false]
  exact or_or_or_comm ..

theorem sees_found {id id' : String} {pair : KeyPair} {answer : Except KeyPair.Error KeyPair} :
    Sees id pair [⟨.findPair id', answer⟩] ↔ id = id' ∧ answer = .ok pair := by
  simp only [Sees, List.mem_singleton, Sigma.mk.injEq, Question.findPair.injEq, reduceCtorEq,
    false_and, or_false]
  constructor
  · rintro ⟨rfl, same⟩
    exact ⟨rfl, (eq_of_heq same).symm⟩
  · rintro ⟨rfl, rfl⟩
    exact ⟨rfl, .rfl⟩

theorem sees_kept {id id' : String} {pair pair' : KeyPair} {answer : Except KeyPair.Error Unit} :
    Sees id pair [⟨.keepPair id' pair', answer⟩] ↔ (id = id' ∧ pair = pair') ∧ answer = .ok () := by
  simp only [Sees, List.mem_singleton, Sigma.mk.injEq, Question.keepPair.injEq, reduceCtorEq,
    false_and, false_or]
  constructor
  · rintro ⟨⟨rfl, rfl⟩, same⟩
    exact ⟨⟨rfl, rfl⟩, (eq_of_heq same).symm⟩
  · rintro ⟨⟨rfl, rfl⟩, rfl⟩
    exact ⟨⟨rfl, rfl⟩, .rfl⟩

/-- The pairs that a store had are there afterwards, and so are those that were found or kept on the
way. -/
structure Spares (B : KeyPair.Backend σ) (valid : σ → Prop) (s : Stores σ) (events : List Event)
    (s' : Stores σ) : Prop where
  valid : valid s'.pairs
  stays : ∀ id pair, B.find s.pairs id = .ok pair → B.find s'.pairs id = .ok pair
  there : ∀ id pair, Sees id pair events → B.find s'.pairs id = .ok pair

theorem Spares.cons {s₁ : Stores σ} (first : Spares B valid s [e] s₁)
    (rest : Spares B valid s₁ events s') : Spares B valid s (e :: events) s' where
  valid := rest.valid
  stays id pair there := rest.stays id pair (first.stays id pair there)
  there id pair sees := by
    rcases sees_cons.mp sees with now | later
    · exact rest.stays id pair (first.there id pair now)
    · exact rest.there id pair later

theorem Step.found {id : String} {found : Except KeyPair.Error KeyPair}
    (held : B.find s.pairs id = found) (now : Int64) :
    Step B s i ⟨.findPair id, found⟩ (s.wait now) := held ▸ .findPair s i now id

theorem Step.looked {id : String} {found : Except KeyPair.Error KeyPair}
    (step : Step B s i ⟨.findPair id, found⟩ s') : B.find s.pairs id = found := by
  cases step with
  | findPair => rfl
  | other now elsewhere => exact elsewhere.elim

def Free (B : KeyPair.Backend σ) (missed : List String) (s : Stores σ) : Prop :=
  ∀ id ∈ missed, ∀ pair, B.find s.pairs id ≠ .ok pair

theorem Step.spares (isMap : B.IsMap valid) (step : Step B s i e s') (inside : valid s.pairs)
    (may : Program.MayAsk P missed e.1) (free : Free B missed s) :
    Spares B valid s [e] s' ∧ Free B (Program.missedAfter missed e) s' := by
  cases step with
  | findPair now id =>
    refine ⟨⟨inside, fun _ _ there => there, fun id' pair sees => ?_⟩, ?_⟩
    · obtain ⟨rfl, told⟩ := sees_found.mp sees
      exact told
    · cases told : B.find s.pairs id with
      | ok pair => exact free
      | error cause =>
        cases cause with
        | missing name =>
          intro id' member pair there
          rcases List.mem_cons.mp member with rfl | member
          · exact nomatch told.symm.trans there
          · exact free id' member pair there
        | _ => exact free
  | @keepPair now id made pairs kept =>
    have absent := free id (may.missed id made rfl)
    refine ⟨⟨isMap.valid_keep inside kept, fun id' pair there => ?_, fun id' pair sees => ?_⟩, ?_⟩
    · have other : id' ≠ id := by
        rintro rfl
        exact absent pair there
      exact (isMap.find_other inside kept other).trans there
    · obtain ⟨⟨rfl, rfl⟩, -⟩ := sees_kept.mp sees
      exact isMap.find_kept inside kept
    · exact fun _ member => absurd member List.not_mem_nil
  | refusePair now failed =>
    refine ⟨⟨inside, fun _ _ there => there, fun id' pair sees => ?_⟩, ?_⟩
    · obtain ⟨-, told⟩ := sees_kept.mp sees
      cases told
    · exact fun _ member => absurd member List.not_mem_nil
  | other now elsewhere =>
    obtain ⟨question, answer⟩ := e
    cases question with
    | findPair => exact elsewhere.elim
    | keepPair => exact elsewhere.elim
    | _ => exact ⟨⟨inside, fun _ _ there => there, by simp [Sees]⟩, free⟩
  | _ => exact ⟨⟨inside, fun _ _ there => there, by simp [Sees]⟩, free⟩

/-- If single steps spare the pairs, as long as nothing is kept that was not missed before, then a
careful program does. -/
theorem spares_of_rule {rule : Stores σ → ι → Event → Stores σ → Prop}
    (each : ∀ {s e s' missed}, rule s i e s' → valid s.pairs → Program.MayAsk P missed e.1 →
      Free B missed s → Spares B valid s [e] s' ∧ Free B (Program.missedAfter missed e) s')
    {α : Type} {p : Program α} {a : α} (careful : p.Careful P missed) (given : p.Gives events a)
    (steps : Steps rule i s events s') (inside : valid s.pairs) (free : Free B missed s) :
    Spares B valid s events s' := by
  induction p generalizing s events missed with
  | done b =>
    obtain ⟨rfl, -⟩ := Program.gives_done.mp given
    cases steps
    exact ⟨inside, fun _ _ there => there, by simp [Sees]⟩
  | ask question next ih =>
    obtain ⟨answer, rest, rfl, tail⟩ := Program.gives_ask.mp given
    cases steps with
    | cons step others =>
      obtain ⟨first, free'⟩ := each step inside careful.1 free
      exact first.cons (ih answer (careful.2 answer) tail others first.valid free')

/-- A careful program takes no pair away that the store has, and whatever pair it has found or kept
on the way is there in the end. -/
theorem spares_of_careful {α : Type} (isMap : B.IsMap valid) {p : Program α} {a : α}
    (careful : p.Careful P missed) (given : p.Gives events a)
    (steps : Steps (Step B) i s events s') (inside : valid s.pairs) (free : Free B missed s) :
    Spares B valid s events s' :=
  spares_of_rule (Step.spares isMap) careful given steps inside free

end Stores

end KeyService
