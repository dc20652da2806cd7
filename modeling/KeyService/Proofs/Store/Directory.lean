import KeyService.Proofs.Store.Rows
import KeyService.Store.Directory

/-! Work on a directory that others work on too.
Between two steps of one piece of work, any others may have created files; no file that is
there changes. What a piece of work assures is what holds of its result however much was
created meanwhile, and whichever steps failed. -/
namespace KeyService

namespace Directory

/-- All files of the first directory are in the second one, as they were. -/
def Stays (d d' : Directory) : Prop :=
  ∀ name content, d.find? name = some content → d'.find? name = some content

theorem Stays.refl (d : Directory) : d.Stays d := fun _ _ there => there

theorem Stays.trans {d d' d'' : Directory} (first : d.Stays d') (second : d'.Stays d'') :
    d.Stays d'' := fun name content there => second name content (first name content there)

theorem create_eq {d d' : Directory} {name : String} {content : Bytes} {created : Bool}
    (done : d.create name content = .ok (created, d')) :
    (created = true ∧ d.find? name = none ∧ d' = d.insert name content) ∨
      (created = false ∧ d' = d) := by
  unfold create at done
  split at done
  · split at done
    · cases done
      exact .inr ⟨rfl, rfl⟩
    · rename_i free
      cases done
      exact .inl ⟨rfl, free, rfl⟩
  · cases done

theorem stays_create {d d' : Directory} {name : String} {content : Bytes} {created : Bool}
    (done : d.create name content = .ok (created, d')) : d.Stays d' := by
  rcases create_eq done with ⟨-, free, rfl⟩ | ⟨-, rfl⟩
  · intro other known there
    have differ : other ≠ name := by
      rintro rfl
      rw [free] at there
      cases there
    rw [Table.find?_insert, if_neg differ]
    exact there
  · exact .refl _

end Directory

namespace FileWork

variable {α : Type}

/-- Whatever is created before each step, and whichever steps fail, the work ends with a result of
which `post` holds in the directory as it is then. -/
def Assures (post : α → Directory → Prop) : FileWork α → Directory → Prop
  | .done a, d => post a d
  | .read name next, d => ∀ d', d.Stays d' →
    (next (d'.read name)).Assures post d' ∧ ∀ e, (next (.error e)).Assures post d'
  | .stage _ next, d => ∀ answer, (next answer).Assures post d
  | .create name content next, d => ∀ d', d.Stays d' →
    (∀ created d'', d'.create name content = .ok (created, d'') →
      (next (.ok created)).Assures post d'') ∧
    ∀ e, (next (.error e)).Assures post d'

/-- What others create does not matter, if it does not matter for `post`. -/
theorem Assures.later {post : α → Directory → Prop} {work : FileWork α} {d d' : Directory}
    (assures : work.Assures post d) (stays : d.Stays d')
    (stable : ∀ {a d d'}, d.Stays d' → post a d → post a d') : work.Assures post d' := by
  induction work with
  | done a => exact stable stays assures
  | read name next => exact fun d'' further => assures d'' (stays.trans further)
  | stage content next ih => exact fun answer => ih answer (assures answer)
  | create name content next => exact fun d'' further => assures d'' (stays.trans further)

/-- Files are read and created under one name only. -/
def StaysAt (name : String) : FileWork α → Prop
  | .done _ => True
  | .read other next => other = name ∧ ∀ answer, (next answer).StaysAt name
  | .stage _ next => ∀ answer, (next answer).StaysAt name
  | .create other _ next => other = name ∧ ∀ answer, (next answer).StaysAt name

variable {name : String} {work : FileWork α} {d d' : Directory}

theorem StaysAt.others (stays : work.StaysAt name) {other : String} (differ : other ≠ name) :
    (work.run d).2.find? other = d.find? other := by
  induction work generalizing d with
  | done a => rfl
  | read known next ih => exact ih _ (stays.2 _)
  | stage content next ih => exact ih _ (stays _)
  | create known content next ih =>
    obtain ⟨rfl, later⟩ := stays
    simp only [run]
    split
    · rename_i created d₁ done
      rw [ih _ (later _)]
      rcases Directory.create_eq done with ⟨-, -, rfl⟩ | ⟨-, rfl⟩
      · rw [Table.find?_insert, if_neg differ]
      · rfl
    · exact ih _ (later _)

theorem StaysAt.result (stays : work.StaysAt name) (same : d.find? name = d'.find? name) :
    (work.run d).1 = (work.run d').1 := by
  induction work generalizing d d' with
  | done a => rfl
  | read known next ih =>
    obtain ⟨rfl, later⟩ := stays
    have read : d.read known = d'.read known := by simp only [Directory.read, same]
    simp only [run, read]
    exact ih _ (later _) same
  | stage content next ih => exact ih _ (stays _) same
  | create known content next ih =>
    obtain ⟨rfl, later⟩ := stays
    simp only [run, Directory.create, same]
    by_cases usable : Directory.isName known = true
    · simp only [if_pos usable]
      cases d'.find? known with
      | some there => exact ih _ (later _) same
      | none =>
        apply ih _ (later _)
        simp [Table.find?_insert]
    · simp only [if_neg usable]
      exact ih _ (later _) same

end FileWork

end KeyService
