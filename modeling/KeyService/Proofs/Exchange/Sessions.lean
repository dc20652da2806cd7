import KeyService.Exchange.Session
import KeyService.Proofs.Store.Calls
import KeyService.Proofs.Store.Rows
import Mathlib.Data.List.Basic
import Mathlib.Data.List.Induction

/-! What a store of sessions answers, whatever was asked of it before.
A session is found until its last moment is over. After that, the store still tells that it is
over, up to the next time that any session is kept; then it forgets it. -/
namespace KeyService.Exchange.SessionStore

open Store (work state_append getElem?_work)

inductive Call where
  | keep (session : Session)
  | get (id : String)

/-- A call, with what the clock says when it is made. -/
structure Visit where
  time : Int64
  call : Call

/-- What a visit is answered, and the store afterwards. Whoever keeps a session is given it back. -/
def perform (t : SessionStore) (v : Visit) : Except Error Session × SessionStore :=
  match v.call with
  | .keep s => (.ok s, t.keep v.time s)
  | .get id => (t.get v.time id, t)

def replies (visits : List Visit) : List (Except Error Session) := (work perform .empty visits).1

def after (visits : List Visit) : SessionStore := (work perform .empty visits).2

/-- The session that was kept under an id most recently, with the visits since then. -/
structure LastKept (visits : List Visit) (id : String) (s : Session) (later : List Visit) :
    Prop where
  named : s.id = id
  kept : ∃ before time, visits = before ++ ⟨time, .keep s⟩ :: later
  notAgain : ∀ v ∈ later, ∀ other, v.call = .keep other → other.id ≠ id

/-- Whenever a session was kept during the visits, `s` was not over yet. -/
def Spared (s : Session) (visits : List Visit) : Prop :=
  ∀ v ∈ visits, ∀ other, v.call = .keep other → v.time ≤ s.expireTime

/-- The most recent session of an id still holds. -/
def Holds (visits : List Visit) (now : Int64) (id : String) (s : Session) : Prop :=
  (∃ later, LastKept visits id s later) ∧ now ≤ s.expireTime

/-- The most recent session of an id is over, and was not at any time when one was kept since. -/
def Lapsed (visits : List Visit) (now : Int64) (id : String) : Prop :=
  ∃ s later, LastKept visits id s later ∧ s.expireTime < now ∧ Spared s later

theorem live_iff {s : Session} {now : Int64} : s.isExpired now = false ↔ now ≤ s.expireTime := by
  rw [Session.isExpired, decide_eq_false_iff_not, Int64.not_lt]

theorem unique_perform {t : SessionStore} (unique : t.Unique) (v : Visit) :
    (perform t v).2.Unique := by
  unfold perform
  split
  · exact (unique.filter _).insert _ _
  · exact unique

/-- What is found after a visit: the session that was kept, or the one that was found before unless
another one was kept under its id or after its end. -/
theorem find?_perform {t : SessionStore} (unique : t.Unique) {v : Visit} {id : String}
    {s : Session} : (perform t v).2.find? id = some s ↔
      (v.call = .keep s ∧ s.id = id) ∨
      (t.find? id = some s ∧ ∀ k, v.call = .keep k → k.id ≠ id ∧ v.time ≤ s.expireTime) := by
  obtain ⟨now, call⟩ := v
  cases call with
  | get other => simp [perform]
  | keep k =>
    change ((t.filter fun _ other => !other.isExpired now).insert k.id k).find? id = some s ↔ _
    rw [Table.find?_insert, unique.find?_filter]
    by_cases same : id = k.id
    · subst same
      simp only [if_true, Option.some.injEq, Call.keep.injEq]
      constructor
      · rintro rfl
        exact .inl ⟨rfl, rfl⟩
      · rintro (⟨rfl, -⟩ | ⟨-, other⟩)
        · rfl
        · exact absurd rfl (other k rfl).1
    · simp only [if_neg same, Option.filter_eq_some_iff, Bool.not_eq_true', live_iff,
        Call.keep.injEq]
      constructor
      · rintro ⟨found, early⟩
        exact .inr ⟨found, fun k' eq => eq ▸ ⟨Ne.symm same, early⟩⟩
      · rintro (⟨rfl, named⟩ | ⟨found, spared⟩)
        · exact absurd named.symm same
        · exact ⟨found, (spared k rfl).2⟩

variable {visits later : List Visit} {v : Visit} {id : String} {s : Session} {now : Int64}

theorem after_snoc (visits : List Visit) (v : Visit) :
    after (visits ++ [v]) = (perform (after visits) v).2 := state_append ..

theorem unique_after (visits : List Visit) : (after visits).Unique := by
  induction visits using List.reverseRecOn with
  | nil => exact Table.unique_empty
  | append_singleton visits v ih =>
    rw [after_snoc]
    exact unique_perform ih v

theorem lastKept_snoc : LastKept (visits ++ [v]) id s later ↔
    (v.call = .keep s ∧ s.id = id ∧ later = []) ∨
    ∃ since, later = since ++ [v] ∧ LastKept visits id s since ∧
      ∀ k, v.call = .keep k → k.id ≠ id := by
  constructor
  · rintro ⟨named, ⟨before, time, parts⟩, notAgain⟩
    rcases List.eq_nil_or_concat' later with rfl | ⟨since, last, rfl⟩
    · obtain ⟨-, same⟩ := List.append_inj' parts rfl
      obtain rfl := (List.cons.inj same).1
      exact .inl ⟨rfl, named, rfl⟩
    · rw [← List.cons_append, ← List.append_assoc] at parts
      obtain ⟨rfl, same⟩ := List.append_inj' parts rfl
      obtain rfl := (List.cons.inj same).1
      refine .inr ⟨since, rfl, ⟨named, ⟨before, time, rfl⟩, fun w member => ?_⟩, ?_⟩
      · exact notAgain w (List.mem_append_left _ member)
      · exact notAgain v (by simp)
  · rintro (⟨call, named, rfl⟩ | ⟨since, rfl, ⟨named, ⟨before, time, rfl⟩, notAgain⟩, other⟩)
    · exact ⟨named, ⟨visits, v.time, by rw [← call]⟩, by simp⟩
    · refine ⟨named, ⟨before, time, by simp⟩, fun w member => ?_⟩
      rcases List.mem_append.mp member with member | member
      · exact notAgain w member
      · rw [List.mem_singleton.mp member]
        exact other

theorem spared_snoc : Spared s (later ++ [v]) ↔
    Spared s later ∧ ∀ k, v.call = .keep k → v.time ≤ s.expireTime := by
  constructor
  · intro spared
    exact ⟨fun w member => spared w (List.mem_append_left _ member), spared v (by simp)⟩
  · rintro ⟨spared, last⟩ w member
    rcases List.mem_append.mp member with member | member
    · exact spared w member
    · rw [List.mem_singleton.mp member]
      exact last

/-- The store has the most recent session of an id, unless a session was kept after its end. -/
theorem find?_after :
    (after visits).find? id = some s ↔ ∃ later, LastKept visits id s later ∧ Spared s later := by
  induction visits using List.reverseRecOn with
  | nil =>
    constructor
    · intro found
      cases found
    · rintro ⟨later, ⟨-, ⟨before, time, none⟩, -⟩, -⟩
      cases before <;> cases none
  | append_singleton visits v ih =>
    rw [after_snoc, find?_perform (unique_after visits), ih]
    constructor
    · rintro (⟨call, named⟩ | ⟨⟨since, last, spared⟩, further⟩)
      · exact ⟨[], lastKept_snoc.mpr (.inl ⟨call, named, rfl⟩), by simp [Spared]⟩
      · exact ⟨since ++ [v], lastKept_snoc.mpr (.inr ⟨since, rfl, last, fun k eq => (further k eq).1⟩),
          spared_snoc.mpr ⟨spared, fun k eq => (further k eq).2⟩⟩
    · rintro ⟨later, last, spared⟩
      rcases lastKept_snoc.mp last with ⟨call, named, -⟩ | ⟨since, rfl, last, other⟩
      · exact .inl ⟨call, named⟩
      · obtain ⟨spared, early⟩ := spared_snoc.mp spared
        exact .inr ⟨⟨since, last, spared⟩, fun k eq => ⟨other k eq, early k eq⟩⟩

theorem get_of_none {t : SessionStore} (missing : t.find? id = none) :
    t.get now id = .error (.unknownSession id) := by
  rw [get, missing]

theorem get_of_some {t : SessionStore} (found : t.find? id = some s) :
    t.get now id = if s.expireTime < now then .error (.expired id) else .ok s := by
  rw [get, found]
  simp only [Session.isExpired, decide_eq_true_eq]

theorem get_ok {t : SessionStore} :
    t.get now id = .ok s ↔ t.find? id = some s ∧ now ≤ s.expireTime := by
  cases found : t.find? id with
  | none => simp [get_of_none found]
  | some other =>
    rw [get_of_some found, Option.some.injEq]
    split
    · rename_i late
      simp only [reduceCtorEq, false_iff]
      rintro ⟨rfl, early⟩
      exact Int64.not_le.mpr late early
    · rename_i early
      rw [Except.ok.injEq]
      exact ⟨fun same => ⟨same, same ▸ Int64.not_lt.mp early⟩, And.left⟩

theorem get_expired {t : SessionStore} :
    t.get now id = .error (.expired id) ↔ ∃ s, t.find? id = some s ∧ s.expireTime < now := by
  cases found : t.find? id with
  | none => simp [get_of_none found]
  | some other =>
    rw [get_of_some found]
    split <;> simp_all

theorem get_holds (early : ∀ v ∈ visits, v.time ≤ now) :
    (after visits).get now id = .ok s ↔ Holds visits now id s := by
  rw [get_ok, find?_after]
  constructor
  · rintro ⟨⟨later, last, -⟩, lasts⟩
    exact ⟨⟨later, last⟩, lasts⟩
  · rintro ⟨⟨later, last⟩, lasts⟩
    -- All visits were made by now, when the session still holds.
    refine ⟨⟨later, last, fun v member _ _ => ?_⟩, lasts⟩
    obtain ⟨before, time, rfl⟩ := last.kept
    exact Int64.le_trans (early v (by simp [member])) lasts

theorem get_lapsed : (after visits).get now id = .error (.expired id) ↔ Lapsed visits now id := by
  simp only [get_expired, find?_after]
  constructor
  · rintro ⟨s, ⟨later, last, spared⟩, ended⟩
    exact ⟨s, later, last, ended, spared⟩
  · rintro ⟨s, later, last, ended, spared⟩
    exact ⟨s, ⟨later, last, spared⟩, ended⟩

theorem get_otherwise (early : ∀ v ∈ visits, v.time ≤ now) :
    (after visits).get now id = .error (.unknownSession id) ↔
      (∀ s, ¬ Holds visits now id s) ∧ ¬ Lapsed visits now id := by
  simp only [← get_holds early, ← get_lapsed]
  cases found : (after visits).find? id with
  | none => simp [get_of_none found]
  | some s =>
    rw [get_of_some found]
    split <;> simp

/-- Under the id of a session that is kept, there is this session and no other one. -/
theorem entries_keep (t : SessionStore) (now : Int64) (s : Session) :
    (t.keep now s).entries.filter (fun e => e.1 = s.id) = [(s.id, s)] ∧
      ∀ e ∈ (t.keep now s).entries, e ≠ (s.id, s) → e.2.isExpired now = false := by
  constructor
  · change List.filter _ ((s.id, s) :: List.filter _ _) = _
    rw [List.filter_cons_of_pos (by simp), List.filter_filter, List.filter_eq_nil_iff.mpr (by simp)]
  · intro e member differs
    rcases List.mem_cons.mp member with rfl | member
    · exact absurd rfl differs
    · obtain ⟨kept, -⟩ := List.mem_filter.mp member
      simpa using (List.mem_filter.mp kept).2

/-- In a run of visits by a clock that does not go back, a look-up gives the most recent session of
the id as long as it holds, says that it is over until a session is kept after that, and else knows
nothing of the id. Whenever a session is kept, it stands alone under its id, and no other
session in the store is over. -/
theorem answers_of_visits (ordered : visits.Pairwise fun v w => v.time ≤ w.time) :
    (∀ before now id rest, visits = before ++ ⟨now, .get id⟩ :: rest →
      (∀ s, (replies visits)[before.length]? = some (.ok s) ↔ Holds before now id s) ∧
      ((replies visits)[before.length]? = some (.error (.expired id)) ↔ Lapsed before now id) ∧
      ((replies visits)[before.length]? = some (.error (.unknownSession id)) ↔
        (∀ s, ¬ Holds before now id s) ∧ ¬ Lapsed before now id)) ∧
    ∀ before now s rest, visits = before ++ ⟨now, .keep s⟩ :: rest →
      let t := after (before ++ [⟨now, .keep s⟩])
      t.entries.filter (fun e => e.1 = s.id) = [(s.id, s)] ∧
        ∀ e ∈ t.entries, e ≠ (s.id, s) → e.2.isExpired now = false := by
  constructor
  · rintro before now id rest rfl
    have early : ∀ v ∈ before, v.time ≤ now := fun v member =>
      (List.pairwise_append.mp ordered).2.2 v member _ List.mem_cons_self
    have answer : (replies (before ++ ⟨now, .get id⟩ :: rest))[before.length]? =
        some ((after before).get now id) := getElem?_work ..
    simp only [answer, Option.some.injEq]
    exact ⟨fun s => get_holds early, get_lapsed, get_otherwise early⟩
  · rintro before now s rest -
    rw [after_snoc]
    exact entries_keep (after before) now s

/-- A session is looked up at its last moment, just after it, and after another one was kept. -/
theorem answers_of_visits_small :
    let first : Session := ⟨"peer", "a", [1], [2], 128, 10⟩
    let other : Session := ⟨"peer", "b", [3], [4], 128, 100⟩
    let kept : List Visit := [⟨5, .keep first⟩, ⟨10, .get "a"⟩]
    let visits : List Visit := kept ++ [⟨11, .get "a"⟩, ⟨12, .keep other⟩, ⟨12, .get "a"⟩]
    (visits.Pairwise fun v w => v.time ≤ w.time) ∧ Holds [⟨5, .keep first⟩] 10 "a" first ∧
      Lapsed kept 11 "a" ∧ ¬ Lapsed (visits.take 4) 12 "a" ∧
      ∀ e ∈ (after (visits.take 4)).entries, e ≠ ("b", other) → e.2.isExpired 12 = false := by
  intro first other kept visits
  have ordered : visits.Pairwise fun v w => v.time ≤ w.time := by decide
  obtain ⟨answered, stored⟩ := answers_of_visits ordered
  refine ⟨ordered, ?_, ?_, ?_, ?_⟩
  · exact ((answered [⟨5, .keep first⟩] 10 "a" (visits.drop 2) rfl).1 first).mp rfl
  · exact (answered kept 11 "a" (visits.drop 3) rfl).2.1.mp rfl
  · exact ((answered (visits.take 4) 12 "a" [] rfl).2.2.mp rfl).2
  · exact (stored (visits.take 3) 12 other [⟨12, .get "a"⟩] rfl).2

end KeyService.Exchange.SessionStore
