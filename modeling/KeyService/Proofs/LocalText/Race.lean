import KeyService.Proofs.LocalText.Files
import KeyService.Proofs.LocalText.Served
import Mathlib.Logic.Function.Basic

/-! Loaders that race for a record.
Any number of loaders work on one directory at the same time, file operation by file
operation; each may fail, or stop for good, at any of them. They make records of their own
and try to give them a name, and only one can. All who come to an end have the keys of
that one. -/
namespace KeyService.LocalText

variable {α : Type}

/-- A program that is about to ask its next question, or at work on the files that the question is
about. -/
inductive Loader (α : Type) where
  | asking (rest : Program α)
  | working (question : Question) (work : FileWork question.Answer)
      (next : question.Answer → Program α)

namespace Loader

/-- One step of a loader. Operations on files may fail, but whatever is read or created is that of
the directory as it is then. -/
inductive Step (d : Directory) : Loader α → Loader α → Directory → Prop where
  | opens {question : Question} {work : FileWork question.Answer}
      {next : question.Answer → Program α} : files? question = some work →
      Step d (.asking (.ask question next)) (.working question work next) d
  | told {question : Question} {next : question.Answer → Program α} (answer : question.Answer) :
      files? question = none →
      Step d (.asking (.ask question next)) (.asking (next answer)) d
  | reads {question : Question} {next : question.Answer → Program α} {name : String}
      {after : Except String (Option Bytes) → FileWork question.Answer} :
      Step d (.working question (.read name after) next)
        (.working question (after (d.read name)) next) d
  | readFails {question : Question} {next : question.Answer → Program α} {name : String}
      {after : Except String (Option Bytes) → FileWork question.Answer} (e : String) :
      Step d (.working question (.read name after) next)
        (.working question (after (.error e)) next) d
  | stages {question : Question} {next : question.Answer → Program α} {content : Bytes}
      {after : Except String Unit → FileWork question.Answer} (staged : Except String Unit) :
      Step d (.working question (.stage content after) next)
        (.working question (after staged) next) d
  | creates {question : Question} {next : question.Answer → Program α} {name : String}
      {content : Bytes} {after : Except String Bool → FileWork question.Answer} {created : Bool}
      {d' : Directory} : d.create name content = .ok (created, d') →
      Step d (.working question (.create name content after) next)
        (.working question (after (.ok created)) next) d'
  | createFails {question : Question} {next : question.Answer → Program α} {name : String}
      {content : Bytes} {after : Except String Bool → FileWork question.Answer} (e : String) :
      Step d (.working question (.create name content after) next)
        (.working question (after (.error e)) next) d
  | answers {question : Question} {next : question.Answer → Program α}
      {answer : question.Answer} :
      Step d (.working question (.done answer) next) (.asking (next answer)) d

/-- A loader has come as far as true answers lead its program, and its work will end with a true
answer too. -/
def Follows (p : Program α) (d : Directory) : Loader α → Prop
  | .asking rest => ∃ events, p.Leads events rest ∧ ∀ e ∈ events, (contents d).Knows e
  | .working question work next => ∃ events, p.Leads events (.ask question next) ∧
      (∀ e ∈ events, (contents d).Knows e) ∧ work.Assures (Honest question) d

variable {p : Program α} {d d' : Directory} {loader loader' : Loader α}

theorem knows_later {events : List Event} (stays : d.Stays d')
    (known : ∀ e ∈ events, (contents d).Knows e) : ∀ e ∈ events, (contents d').Knows e :=
  fun e member => (known e member).later (grows_of_stays stays)

theorem Follows.later (follows : loader.Follows p d) (stays : d.Stays d') :
    loader.Follows p d' := by
  cases loader with
  | asking rest =>
    obtain ⟨events, led, known⟩ := follows
    exact ⟨events, led, knows_later stays known⟩
  | working question work next =>
    obtain ⟨events, led, known, assures⟩ := follows
    exact ⟨events, led, knows_later stays known, assures.later stays Honest.later⟩

theorem follows_told {question : Question} {next : question.Answer → Program α}
    {answer : question.Answer} {events : List Event} (led : p.Leads events (.ask question next))
    (known : ∀ e ∈ events, (contents d).Knows e) (honest : Honest question answer d) :
    (Loader.asking (next answer)).Follows p d := by
  refine ⟨events ++ [⟨question, answer⟩], led.snoc answer, fun e member => ?_⟩
  rcases List.mem_append.mp member with before | now
  · exact known e before
  · rw [List.mem_singleton.mp now]
    exact honest

theorem Step.stays (step : loader.Step d loader' d') : d.Stays d' := by
  cases step with
  | creates done => exact Directory.stays_create done
  | _ => exact .refl _

theorem Step.follows (step : Step d loader loader' d') (follows : loader.Follows p d) :
    loader'.Follows p d' := by
  cases step with
  | opens made =>
    obtain ⟨events, led, known⟩ := follows
    exact ⟨events, led, known, files?_assures made d⟩
  | told answer idle =>
    obtain ⟨events, led, known⟩ := follows
    exact follows_told led known (honest_of_idle idle answer d)
  | reads =>
    obtain ⟨events, led, known, assures⟩ := follows
    exact ⟨events, led, known, (assures d (.refl d)).1⟩
  | readFails e =>
    obtain ⟨events, led, known, assures⟩ := follows
    exact ⟨events, led, known, (assures d (.refl d)).2 e⟩
  | stages staged =>
    obtain ⟨events, led, known, assures⟩ := follows
    exact ⟨events, led, known, assures staged⟩
  | creates done =>
    obtain ⟨events, led, known, assures⟩ := follows
    exact ⟨events, led, knows_later (Directory.stays_create done) known,
      (assures d (.refl d)).1 _ _ done⟩
  | createFails e =>
    obtain ⟨events, led, known, assures⟩ := follows
    exact ⟨events, led, known, (assures d (.refl d)).2 e⟩
  | answers =>
    obtain ⟨events, led, known, honest⟩ := follows
    exact follows_told led known honest

end Loader

variable {ι : Type} [DecidableEq ι]

/-- Loaders take their steps in any order. Whoever takes none for ever has stopped. -/
inductive Race (start : ι → Loader α) (origin : Directory) :
    (ι → Loader α) → Directory → Prop where
  | start : Race start origin start origin
  | step {loaders : ι → Loader α} {d d' : Directory} {i : ι} {loader : Loader α} :
      Race start origin loaders d → (loaders i).Step d loader d' →
      Race start origin (Function.update loaders i loader) d'

namespace Race

variable {start loaders loaders' : ι → Loader α} {origin d d' : Directory}

theorem trans (first : Race start origin loaders d) (later : Race loaders d loaders' d') :
    Race start origin loaders' d' := by
  induction later with
  | start => exact first
  | step _ step ih => exact ih.step step

theorem stays (race : Race start origin loaders d) : origin.Stays d := by
  induction race with
  | start => exact .refl _
  | step _ step ih => exact ih.trans step.stays

/-- While one loader takes a step, the others are told nothing, and what they were told remains
true. -/
theorem follows {p : ι → Program α} (race : Race start origin loaders d)
    (begun : ∀ i, (start i).Follows (p i) origin) : ∀ i, (loaders i).Follows (p i) d := by
  induction race with
  | start => exact begun
  | @step loaders d d' i loader _ step ih =>
    intro j
    by_cases same : j = i
    · subst same
      rw [Function.update_self]
      exact step.follows (ih j)
    · rw [Function.update_of_ne same]
      exact (ih j).later step.stays

end Race

end KeyService.LocalText
