import KeyService.Proofs.KeyPair.Backend
import KeyService.Proofs.Store.Calls
import Mathlib.Logic.Function.Basic

/-! The stores of pairs answer alike.
Each of the three answers every call as a plain map would, so nobody can tell by the
answers which of them is used, nor whether one was closed and opened again in between. -/
namespace KeyService.KeyPair

inductive Operation where
  | set (id : String) (pair : KeyPair)
  | get (id : String)
  | destroy

/-- What is answered: only a look-up is answered with a pair. -/
abbrev Reply := Except Error (Option KeyPair)

namespace Backend

open Store (work lives work_alike lives_eq_work)

variable {σ : Type}

/-- A store that refuses a pair stays as it is. -/
def perform (B : Backend σ) (s : σ) : Operation → Reply × σ
  | .set id pair =>
    match B.keep s id pair with
    | .ok s' => (.ok none, s')
    | .error e => (.error e, s)
  | .get id => ((B.find s id).map some, s)
  | .destroy => (.ok none, B.clear s)

/-- A map from ids to pairs, which refuses what is not an id. -/
def plain : Backend (String → Option KeyPair) where
  empty _ := none
  find m id := orMissing id (m id)
  keep m id pair :=
    if isId id then .ok (Function.update m id (some pair)) else .error (.badId id)
  clear _ _ := none

/-- What a store does beside keeping pairs: it begins empty, can be emptied, and takes every pair
under an id and nothing else. -/
structure IsStore (B : Backend σ) (valid : σ → Prop) : Prop extends B.IsMap valid where
  valid_empty : valid B.empty
  valid_clear : ∀ {s : σ}, valid s → valid (B.clear s)
  find_empty : ∀ id, B.find B.empty id = .error (.missing id)
  find_clear : ∀ {s : σ}, valid s → ∀ id, B.find (B.clear s) id = .error (.missing id)
  keeps : ∀ {s : σ} {id : String}, valid s → isId id = true → ∀ pair,
    ∃ s', B.keep s id pair = .ok s'
  refuses : ∀ {s : σ} {id : String}, isId id = false → ∀ pair,
    B.keep s id pair = .error (.badId id)

/-- A store has under every id what a map has there. -/
def Shows (B : Backend σ) (s : σ) (m : String → Option KeyPair) : Prop :=
  ∀ id, B.find s id = plain.find m id

section Simulation

variable {B : Backend σ} {valid : σ → Prop} {s : σ} {m : String → Option KeyPair}

theorem IsStore.shows_kept (store : B.IsStore valid) (inside : valid s) (shown : B.Shows s m)
    {s' : σ} {id : String} {pair : KeyPair} (kept : B.keep s id pair = .ok s') :
    B.Shows s' (Function.update m id (some pair)) := by
  intro other
  by_cases same : other = id
  · subst same
    rw [store.find_kept inside kept]
    simp only [plain, Function.update_self, orMissing]
  · rw [store.find_other inside kept same, shown other]
    simp only [plain, Function.update_of_ne same]

/-- A store and a map that have the same pairs answer a call alike, and have the same pairs
afterwards. -/
theorem IsStore.perform (store : B.IsStore valid) (inside : valid s) (shown : B.Shows s m)
    (op : Operation) :
    (B.perform s op).1 = (plain.perform m op).1 ∧ valid (B.perform s op).2 ∧
      B.Shows (B.perform s op).2 (plain.perform m op).2 := by
  cases op with
  | get id =>
    have found : (B.find s id).map some = (plain.find m id).map some := congrArg _ (shown id)
    exact ⟨found, inside, shown⟩
  | destroy => exact ⟨rfl, store.valid_clear inside, store.find_clear inside⟩
  | set id pair =>
    by_cases good : isId id = true
    · obtain ⟨s', kept⟩ := store.keeps inside good pair
      have mapped : plain.keep m id pair = .ok (Function.update m id (some pair)) := if_pos good
      simp only [Backend.perform, kept, mapped]
      exact ⟨trivial, store.valid_keep inside kept, store.shows_kept inside shown kept⟩
    · have refused := store.refuses (s := s) (Bool.not_eq_true _ ▸ good) pair
      have unmapped : plain.keep m id pair = .error (.badId id) := if_neg good
      simp only [Backend.perform, refused, unmapped]
      exact ⟨trivial, inside, shown⟩

/-- Calls of a store that begins empty are answered as by a map that begins empty. -/
theorem IsStore.replies (store : B.IsStore valid) (ops : List Operation) :
    (work B.perform B.empty ops).1 = (work plain.perform plain.empty ops).1 := by
  have begun : valid B.empty ∧ B.Shows B.empty plain.empty := ⟨store.valid_empty, store.find_empty⟩
  refine work_alike (P := fun _ => True) (R := fun s m => valid s ∧ B.Shows s m) ?_ begun
    fun _ _ => trivial
  intro s m op both _
  exact store.perform both.1 both.2 op

end Simulation

theorem keep_of_checkId {α : Type} {id : String} (good : isId id = true)
    (next : Except Error α) : (checkId id >>= fun _ => next) = next := by
  rw [checkId, if_pos good]
  rfl

theorem refuse_of_checkId {α : Type} {id : String} (bad : isId id = false)
    (next : Except Error α) : (checkId id >>= fun _ => next) = .error (.badId id) := by
  rw [checkId, if_neg (ne_true_of_eq_false bad)]
  rfl

theorem memory_isStore : memory.IsStore fun _ => True where
  toIsMap := memory_isMap
  valid_empty := trivial
  valid_clear _ := trivial
  find_empty _ := rfl
  find_clear _ _ := rfl
  keeps _ good _ := ⟨_, keep_of_checkId good _⟩
  refuses bad _ := refuse_of_checkId bad _

/-- A name with something before the extension is that of a document. -/
theorem isDocument_append {stem : String} (filled : stem ≠ "") :
    isDocument (stem ++ ".json") = true := by
  have some := List.length_pos_iff.mpr (mt String.toList_eq_nil_iff.mp filled)
  have long : 5 < (stem ++ ".json").toList.length := by
    simp
    omega
  rw [isDocument, Bool.and_eq_true, List.isSuffixOf_iff_suffix]
  exact ⟨⟨stem.toList, (String.toList_append ..).symm⟩, decide_eq_true long⟩

theorem isDocument_fileName {id : String} (good : isId id = true) :
    isDocument (fileName id) = true := by
  simp only [isId, Bool.and_eq_true, decide_eq_true_eq] at good
  exact isDocument_append good.1.1.1.1

/-- A directory in which no document has the name of an id has no pair under it. -/
theorem directory_missing {d : Directory} {id : String}
    (free : isId id = true → d.find? (fileName id) = none) :
    directory.find d id = .error (.missing id) := by
  by_cases good : isId id = true
  · simp only [directory, if_pos good, Directory.read, if_pos (isName_fileName good), free good]
  · simp only [directory, if_neg good]

theorem directory_isStore : directory.IsStore fun _ => True where
  toIsMap := directory_isMap
  valid_empty := trivial
  valid_clear _ := trivial
  find_empty _ := directory_missing fun _ => rfl
  find_clear _ _ := by
    refine directory_missing fun good => ?_
    simp [directory, Table.find?_filter, isDocument_fileName good]
  keeps {d id} _ good pair := by
    let content := Bytes.ofText (codec.print pair)
    have written : (d.replace (fileName id) content).mapError Error.storage =
        .ok (d.insert (fileName id) content) := by
      rw [Directory.replace, if_pos (isName_fileName good)]
      rfl
    exact ⟨_, (keep_of_checkId good _).trans written⟩
  refuses bad _ := refuse_of_checkId bad _

theorem database_isStore : database.IsStore Keyed where
  toIsMap := database_isMap
  valid_empty := rfl
  valid_clear keyed := keyed
  find_empty _ := rfl
  find_clear _ _ := rfl
  keeps _ good _ := ⟨_, keep_of_checkId good _⟩
  refuses bad _ := refuse_of_checkId bad _

/-- Whatever is asked of them in whatever sessions, the three stores give the replies of a map that
is asked the same. -/
theorem stores_agree (sessions : List (List Operation)) :
    let replies := (work plain.perform plain.empty sessions.flatten).1
    (work memory.perform memory.empty sessions.flatten).1 = replies ∧
      lives directory.perform Directory.opened none sessions = replies ∧
      lives database.perform (Rows.opened 1) none sessions = replies := by
  refine ⟨memory_isStore.replies _, ?_, ?_⟩
  · rw [lives_eq_work directory.perform fun _ => rfl]
    exact directory_isStore.replies _
  · rw [lives_eq_work database.perform fun _ => rfl]
    exact database_isStore.replies _

end Backend

end KeyService.KeyPair
