import KeyService.KeyPair.Store
import KeyService.Proofs.Json.Object
import KeyService.Proofs.Store.Rows

/-! What users of a store of pairs rely on.
A pair that was kept is found, and nothing changes under another id. A store may rely on
an invariant of its contents, which it has to preserve. -/
namespace KeyService.KeyPair

variable {σ : Type}

/-- Look-ups see what was kept, as those of a map do, while the contents are as they should be. -/
structure Backend.IsMap (B : Backend σ) (valid : σ → Prop) : Prop where
  valid_keep : ∀ {s s' : σ} {id : String} {pair : KeyPair}, valid s → B.keep s id pair = .ok s' →
    valid s'
  find_kept : ∀ {s s' : σ} {id : String} {pair : KeyPair}, valid s → B.keep s id pair = .ok s' →
    B.find s' id = .ok pair
  find_other : ∀ {s s' : σ} {id other : String} {pair : KeyPair}, valid s →
    B.keep s id pair = .ok s' → other ≠ id → B.find s' other = B.find s other

theorem reads_shape (layout : Json.Layout) (pair : KeyPair) :
    Json.Reads codec.shape layout (codec.write pair) (codec.write pair) := by
  refine Json.reads_record ?_ (by simp) rfl
  intro m member
  simp only [List.mem_cons, List.not_mem_nil, or_false] at member
  rcases member with rfl | rfl | rfl
  all_goals exact ⟨_, rfl, Json.reads_text _ _⟩

theorem parse_print (pair : KeyPair) : codec.parse (Bytes.ofText (codec.print pair)) = .ok pair :=
  codec.parse_written (reads_shape .compact pair) rfl

namespace Backend

theorem ok_of_checkId {α : Type} {id : String} {next : Except Error α} {b : α}
    (kept : (checkId id >>= fun _ => next) = .ok b) : isId id = true ∧ next = .ok b := by
  rw [checkId] at kept
  split at kept
  · rename_i good
    exact ⟨good, kept⟩
  · cases kept

theorem memory_isMap : memory.IsMap fun _ => True where
  valid_keep _ _ := trivial
  find_kept _ kept := by
    obtain rfl := Except.ok.inj (ok_of_checkId kept).2
    simp only [memory, Table.find?_insert, if_true]
    rfl
  find_other _ kept differ := by
    obtain rfl := Except.ok.inj (ok_of_checkId kept).2
    simp only [memory, Table.find?_insert, if_neg differ]

def Keyed (r : Rows) : Prop := r.keyColumns = 1

theorem select_row {r : Rows} (keyed : Keyed r) (id other : String) (rest : List String) :
    (r.insertOrReplace (id :: rest)).select? [other] =
      if other = id then some (id :: rest) else r.select? [other] := by
  rw [Rows.select_insertOrReplace, show r.keyColumns = 1 from keyed]
  simp

theorem database_isMap : database.IsMap Keyed where
  valid_keep keyed kept := by
    obtain rfl := Except.ok.inj (ok_of_checkId kept).2
    exact keyed
  find_kept keyed kept := by
    obtain rfl := Except.ok.inj (ok_of_checkId kept).2
    simp only [database, select_row keyed, if_true]
  find_other keyed kept differ := by
    obtain rfl := Except.ok.inj (ok_of_checkId kept).2
    simp only [database, select_row keyed, if_neg differ]

theorem short_fileName {id : String} (good : isId id = true) :
    (fileName id).utf8ByteSize ≤ 133 := by
  simp only [isId, Bool.and_eq_true, decide_eq_true_eq] at good
  have short := good.1.1.1.2
  have length : (fileName id).utf8ByteSize = id.utf8ByteSize + 5 := String.utf8ByteSize_append ..
  omega

theorem isName_fileName {id : String} (good : isId id = true) :
    Directory.isName (fileName id) = true := by
  have short := short_fileName good
  apply decide_eq_true
  omega

theorem fileName_inj {id other : String} : fileName other = fileName id ↔ other = id := by
  constructor
  · intro same
    have lists := congrArg String.toList same
    simp only [fileName, String.toList_append, List.append_cancel_right_eq] at lists
    exact String.toList_inj.mp lists
  · rintro rfl
    rfl

theorem directory_isMap : directory.IsMap fun _ => True where
  valid_keep _ _ := trivial
  find_kept {_ _ id _} _ kept := by
    obtain ⟨good, written⟩ := ok_of_checkId kept
    have name := isName_fileName good
    rw [Directory.replace, if_pos name] at written
    obtain rfl := Except.ok.inj written
    simp only [directory, if_pos good, Directory.read, if_pos name, Table.find?_insert, if_true,
      parse_print]
  find_other _ kept differ := by
    obtain ⟨good, written⟩ := ok_of_checkId kept
    rw [Directory.replace, if_pos (isName_fileName good)] at written
    obtain rfl := Except.ok.inj written
    simp only [directory, Directory.read, Table.find?_insert, fileName_inj, if_neg differ]

end Backend

end KeyService.KeyPair
