/-! Tables: finitely many keys with one value each.
The view of a table is its look-up function; every operation is described by what it
does to that function. -/
namespace KeyService

structure Table (κ ν : Type) where
  entries : List (κ × ν)

namespace Table

variable {κ ν : Type}

def empty : Table κ ν := ⟨[]⟩

def size (t : Table κ ν) : Nat := t.entries.length

def filter (t : Table κ ν) (test : κ → ν → Bool) : Table κ ν :=
  ⟨t.entries.filter fun e => test e.1 e.2⟩

variable [DecidableEq κ]

def find? (t : Table κ ν) (key : κ) : Option ν := t.entries.lookup key

def insert (t : Table κ ν) (key : κ) (value : ν) : Table κ ν :=
  ⟨(key, value) :: t.entries.filter fun e => e.1 ≠ key⟩

@[simp] theorem find?_empty (key : κ) : (empty : Table κ ν).find? key = none := rfl

theorem lookup_filter_ne {entries : List (κ × ν)} {key other : κ} (differ : other ≠ key) :
    (entries.filter fun e => e.1 ≠ key).lookup other = entries.lookup other := by
  induction entries with
  | nil => rfl
  | cons e rest ih =>
    by_cases same : e.1 = key
    · have skip : (other == e.1) = false := by simp [same, differ]
      rw [List.filter_cons_of_neg (by simpa using same), List.lookup_cons, skip]
      exact ih
    · rw [List.filter_cons_of_pos (by simpa using same), List.lookup_cons, List.lookup_cons, ih]

/-- The new value is found under its key, and nothing changes under another one. -/
theorem find?_insert (t : Table κ ν) (key other : κ) (value : ν) :
    (t.insert key value).find? other = if other = key then some value else t.find? other := by
  by_cases same : other = key
  · simp [find?, insert, same]
  · have skip : (other == key) = false := by simpa using same
    simp only [find?, insert, List.lookup_cons, skip, if_neg same]
    exact lookup_filter_ne same

end Table

end KeyService
