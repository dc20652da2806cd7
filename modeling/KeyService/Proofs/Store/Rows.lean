import KeyService.Store.Rows
import KeyService.Store.Table

/-! Look-ups after a change of a table or of a relation.
The view of either is its look-up by key, and each change is told by what it does to
that view. -/
namespace KeyService

namespace Table

variable {κ ν : Type}

/-- No key stands twice in the table. -/
def Unique (t : Table κ ν) : Prop := (t.entries.map Prod.fst).Nodup

theorem unique_empty : (empty : Table κ ν).Unique := List.nodup_nil

theorem Unique.filter {t : Table κ ν} (unique : t.Unique) (test : κ → ν → Bool) :
    (t.filter test).Unique := unique.sublist (List.filter_sublist.map Prod.fst)

variable [DecidableEq κ]

/-- A filter that looks at keys alone keeps or drops all that stands under a key. -/
theorem find?_filter (t : Table κ ν) (test : κ → Bool) (key : κ) :
    (t.filter fun k _ => test k).find? key = if test key then t.find? key else none := by
  cases t with
  | mk entries =>
    change (entries.filter fun e => test e.1).lookup key =
      if test key then entries.lookup key else none
    induction entries with
    | nil => exact (ite_self none).symm
    | cons e rest ih =>
      rw [List.filter_cons]
      by_cases same : key = e.1
      · subst same
        by_cases kept : test e.1 = true
        · rw [if_pos kept, if_pos kept, List.lookup_cons_self, List.lookup_cons_self]
        · rw [if_neg kept, ih, if_neg kept, if_neg kept]
      · have skip : (key == e.1) = false := beq_eq_false_iff_ne.mpr same
        by_cases kept : test e.1 = true
        · rw [if_pos kept, List.lookup_cons, List.lookup_cons, skip]
          exact ih
        · rw [if_neg kept, List.lookup_cons, skip]
          exact ih

theorem Unique.insert {t : Table κ ν} (unique : t.Unique) (key : κ) (value : ν) :
    (t.insert key value).Unique := by
  refine List.nodup_cons.mpr ⟨?_, unique.sublist (List.filter_sublist.map Prod.fst)⟩
  intro member
  obtain ⟨e, kept, same⟩ := List.mem_map.mp member
  simpa [same] using (List.mem_filter.mp kept).2

/-- A filter that looks at values does not uncover an older value of a key. -/
theorem Unique.find?_filter {t : Table κ ν} (unique : t.Unique) (test : κ → ν → Bool) (key : κ) :
    (t.filter test).find? key = (t.find? key).filter (test key) := by
  cases t with
  | mk entries =>
    change (entries.filter fun e => test e.1 e.2).lookup key =
      (entries.lookup key).filter (test key)
    induction entries with
    | nil => rfl
    | cons e rest ih =>
      obtain ⟨fresh, unique⟩ := List.nodup_cons.mp unique
      rw [List.filter_cons]
      by_cases same : key = e.1
      · subst same
        rw [List.lookup_cons_self, Option.filter_some]
        by_cases kept : test e.1 e.2 = true
        · rw [if_pos kept, if_pos kept, List.lookup_cons_self]
        · rw [if_neg kept, if_neg kept]
          refine List.lookup_eq_none_iff.mpr fun other member => bne_iff_ne.mpr ?_
          intro same
          exact fresh (same ▸ List.mem_map_of_mem (List.mem_filter.mp member).1)
      · have skip : (key == e.1) = false := beq_eq_false_iff_ne.mpr same
        by_cases kept : test e.1 e.2 = true
        · rw [if_pos kept, List.lookup_cons, List.lookup_cons, skip]
          exact ih unique
        · rw [if_neg kept, List.lookup_cons, skip]
          exact ih unique

end Table

namespace Rows

theorem hasKey_iff {r : Rows} {key row : List String} :
    r.hasKey key row = true ↔ row.take r.keyColumns = key := decide_eq_true_iff

theorem select_append (r : Rows) (row key : List String) :
    (r.rows ++ [row]).find? (r.hasKey key) =
      (r.select? key).or (if row.take r.keyColumns = key then some row else none) := by
  rw [List.find?_append, List.find?_singleton]
  simp only [hasKey_iff, select?]

theorem select_insertOrReplace (r : Rows) (row key : List String) :
    (r.insertOrReplace row).select? key =
      if key = row.take r.keyColumns then some row else r.select? key := by
  change (r.rows.filter _ ++ [row]).find? (r.hasKey key) = _
  rw [List.find?_append, List.find?_filter, List.find?_singleton]
  by_cases same : key = row.take r.keyColumns
  · subst same
    have gone : r.rows.find? (fun other => (!r.hasKey (row.take r.keyColumns) other) = true ∧
        r.hasKey (row.take r.keyColumns) other) = none :=
      List.find?_eq_none.mpr fun other _ => by simp
    rw [gone, if_pos rfl, Option.none_or, if_pos (hasKey_iff.mpr rfl)]
  · have stays : (fun other => decide ((!r.hasKey (row.take r.keyColumns) other) = true ∧
        r.hasKey key other = true)) = r.hasKey key := by
      funext other
      by_cases found : other.take r.keyColumns = key <;> simp [hasKey, found, same]
    have differ : ¬ r.hasKey key row = true := fun found => same (hasKey_iff.mp found).symm
    rw [stays, if_neg same, if_neg differ, Option.or_none]
    rfl

theorem insertOrIgnore_of_taken {r : Rows} {row first : List String}
    (taken : r.select? (row.take r.keyColumns) = some first) : r.insertOrIgnore row = r := by
  have member : r.rows.any (r.hasKey (row.take r.keyColumns)) = true :=
    List.any_eq_true.mpr ⟨first, List.mem_of_find?_eq_some taken, List.find?_some taken⟩
  exact if_pos member

theorem select_insertOrIgnore {r : Rows} {row : List String}
    (free : r.select? (row.take r.keyColumns) = none) (key : List String) :
    (r.insertOrIgnore row).select? key =
      if key = row.take r.keyColumns then some row else r.select? key := by
  have absent : ¬ r.rows.any (r.hasKey (row.take r.keyColumns)) = true := by
    intro taken
    obtain ⟨other, member, found⟩ := List.any_eq_true.mp taken
    exact List.find?_eq_none.mp free other member found
  rw [insertOrIgnore, if_neg absent]
  change (r.rows ++ [row]).find? (r.hasKey key) = _
  rw [select_append]
  by_cases same : key = row.take r.keyColumns
  · rw [if_pos same, if_pos same.symm, same, free, Option.none_or]
  · rw [if_neg same, if_neg (Ne.symm same), Option.or_none]

@[simp] theorem keyColumns_insertOrIgnore (r : Rows) (row : List String) :
    (r.insertOrIgnore row).keyColumns = r.keyColumns := by
  unfold insertOrIgnore
  split <;> rfl

end Rows

end KeyService
