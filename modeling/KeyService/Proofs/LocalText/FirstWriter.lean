import KeyService.Proofs.LocalText.Backend
import KeyService.Proofs.Store.Calls
import Mathlib.Data.List.Basic

/-! The stores of records answer alike.
Whatever is asked of them, each of the three answers with the record that was saved first
under the name that is asked for. So nobody can tell by the answers which of them is used,
nor whether one was closed and opened again in between. -/
namespace KeyService.LocalText

inductive Operation where
  | get (appId header : String)
  | save (record : Record)

namespace Operation

def name : Operation → String × String
  | .get appId header => (appId, header)
  | .save record => record.name

def saved? (name : String × String) : Operation → Option Record
  | .get _ _ => none
  | .save record => if record.name = name then some record else none

end Operation

/-- What is answered: the record that is there, if there is one. -/
abbrev Reply := Except Error (Option Record)

def firstSaved (ops : List Operation) (name : String × String) : Option Record :=
  ops.findSome? (·.saved? name)

/-- Every operation is answered with the record that was saved first under its name, be it by
the operation itself. -/
def firstReplies (ops : List Operation) : List Reply :=
  ops.mapIdx fun i op => .ok (firstSaved (ops.take (i + 1)) op.name)

theorem firstSaved_append (before after : List Operation) (name : String × String) :
    firstSaved (before ++ after) name = (firstSaved before name).or (firstSaved after name) := by
  rw [firstSaved, List.findSome?_append]
  rfl

theorem saved?_of_ne {op : Operation} {name : String × String} (differ : op.name ≠ name) :
    op.saved? name = none := by
  cases op with
  | get => rfl
  | save record => exact if_neg differ

/-- Operations under other names do not matter. -/
theorem firstSaved_filter (ops : List Operation) (name : String × String) :
    firstSaved (ops.filter (·.name = name)) name = firstSaved ops name := by
  induction ops with
  | nil => rfl
  | cons op ops ih =>
    by_cases same : op.name = name
    · rw [List.filter_cons_of_pos (by simpa using same)]
      simp only [firstSaved, List.findSome?_cons] at ih ⊢
      rw [ih]
    · rw [List.filter_cons_of_neg (by simpa using same), ih]
      simp only [firstSaved, List.findSome?_cons, saved?_of_ne same]

namespace Backend

open Store (work lives work_alike lives_eq_work)

variable {σ : Type}

def perform (B : Backend σ) (s : σ) : Operation → Reply × σ
  | .get appId header => (B.find s appId header, s)
  | .save record =>
    let (kept, s) := B.keep s record
    (kept.map some, s)

/-- The list of all operations so far, from which an answer can be read off. -/
def record (before : List Operation) (op : Operation) : Reply × List Operation :=
  (.ok (firstSaved (before ++ [op]) op.name), before ++ [op])

theorem work_record (before ops : List Operation) :
    (work record before ops).1 =
      ops.mapIdx fun i op => .ok (firstSaved (before ++ ops.take (i + 1)) op.name) := by
  induction ops generalizing before with
  | nil => rfl
  | cons op ops ih =>
    have later := ih (before ++ [op])
    simp only [List.append_assoc, List.singleton_append] at later
    rw [List.mapIdx_cons]
    exact congrArg (_ :: ·) later

theorem keep_firstSaved (before : List Operation) (r : Record) :
    Contents.keep (firstSaved before) r = firstSaved (before ++ [.save r]) := by
  funext name
  rw [Contents.keep, firstSaved_append]
  by_cases same : name = r.name
  · have saved : firstSaved [.save r] name = some r := by
      simp [firstSaved, Operation.saved?, same]
    rw [if_pos same, saved]
    cases firstSaved before name <;> rfl
  · have unsaved : firstSaved [.save r] name = none := by
      simp [firstSaved, Operation.saved?, Ne.symm same]
    rw [if_neg same, unsaved, Option.or_none]

variable {B : Backend σ} {named : String × String → Prop} {valid : σ → Prop}

theorem KeepsFirst.perform (keeps : B.KeepsFirst named valid) {s : σ} {before : List Operation}
    {op : Operation} (inside : valid s) (shown : B.Shows named s (firstSaved before))
    (usable : named op.name) :
    (B.perform s op).1 = (record before op).1 ∧ valid (B.perform s op).2 ∧
      B.Shows named (B.perform s op).2 (firstSaved (record before op).2) := by
  cases op with
  | get appId header =>
    have same : firstSaved (before ++ [.get appId header]) = firstSaved before := by
      funext name
      rw [firstSaved_append]
      exact Option.or_none
    simp only [record, same]
    exact ⟨shown (appId, header) usable, inside, shown⟩
  | save r =>
    obtain ⟨kept, stays, after⟩ := keeps.keep inside shown usable
    have now : firstSaved (before ++ [.save r]) r.name =
        some ((firstSaved before r.name).getD r) := by
      rw [← keep_firstSaved, Contents.keep, if_pos rfl]
    refine ⟨?_, stays, keep_firstSaved before r ▸ after⟩
    change (B.keep s r).1.map some = .ok (firstSaved (before ++ [.save r]) r.name)
    rw [kept, now]
    rfl

theorem KeepsFirst.replies (keeps : B.KeepsFirst named valid) {ops : List Operation}
    (usable : ∀ op ∈ ops, named op.name) : (work B.perform B.empty ops).1 = firstReplies ops := by
  have begun : valid B.empty ∧ B.Shows named B.empty (firstSaved []) :=
    ⟨keeps.valid_empty, fun _ fit => keeps.find_empty fit⟩
  have alike : (work B.perform B.empty ops).1 = (work record [] ops).1 := by
    refine work_alike (R := fun s before => valid s ∧ B.Shows named s (firstSaved before)) ?_
      begun usable
    intro s before op both fit
    exact keeps.perform both.1 both.2 fit
  rw [alike, work_record]
  rfl

/-- Whatever is asked of them in whatever sessions, the three stores answer each operation with the
record that was saved first under its name, and that record does not depend on operations under
other names. -/
theorem records_agree (sessions : List (List Operation)) :
    (work memory.perform memory.empty sessions.flatten).1 = firstReplies sessions.flatten ∧
      ((∀ op ∈ sessions.flatten, Directory.isName (fileName op.name.1 op.name.2) = true) →
        lives directory.perform Directory.opened none sessions = firstReplies sessions.flatten) ∧
      lives database.perform (Rows.opened 2) none sessions = firstReplies sessions.flatten ∧
      ∀ ops name, firstSaved (ops.filter (·.name = name)) name = firstSaved ops name := by
  refine ⟨memory_keepsFirst.replies fun _ _ => trivial, fun short => ?_, ?_, firstSaved_filter⟩
  · rw [lives_eq_work directory.perform fun _ => rfl]
    exact directory_keepsFirst.replies short
  · rw [lives_eq_work database.perform fun _ => rfl]
    exact database_keepsFirst.replies fun _ _ => trivial

/-- Two applications save records, one of them twice, and the stores are opened again. -/
theorem records_agree_small :
    let first : Record := ⟨"app", "v1.", "c2FsdA==", "a2V5", "", "2026-01-01T00:00:00+00:00"⟩
    let second : Record := { first with rootKeySalt := "" }
    let other : Record := { first with appId := "" }
    let sessions : List (List Operation) :=
      [[.get "app" "v1.", .save first, .save other], [.save second, .get "app" "v1.", .get "" "v1."]]
    lives directory.perform Directory.opened none sessions =
      [.ok none, .ok (some first), .ok (some other), .ok (some first), .ok (some first),
        .ok (some other)] := by
  intro first second other sessions
  have short : ∀ op ∈ sessions.flatten,
      Directory.isName (fileName op.name.1 op.name.2) = true := by decide
  exact ((records_agree sessions).2.1 short).trans (by decide)

end Backend

end KeyService.LocalText
