import KeyService.LocalText.Store
import KeyService.Proofs.Bytes.Base64
import KeyService.Proofs.Json.Object
import KeyService.Proofs.Store.Rows
import KeyService.Proofs.Text.Pieces

/-! What users of a store of records rely on.
The first record that is kept under a name stays there, and nothing changes under another
name. A store may be unable to use some names, as a directory cannot use long ones. -/
namespace KeyService.LocalText

def Record.name (r : Record) : String × String := (r.appId, r.markHeader)

abbrev Contents := String × String → Option Record

variable {σ : Type}

/-- The contents after a record was kept. -/
def Contents.keep (c : Contents) (r : Record) : Contents := fun name =>
  if name = r.name then some ((c name).getD r) else c name

namespace Backend

/-- The first writer wins: a name that is taken stays as it is, and one that is free is taken. -/
structure KeepsFirst (B : Backend σ) (named : String × String → Prop) (valid : σ → Prop) :
    Prop where
  valid_empty : valid B.empty
  find_empty : ∀ {name}, named name → B.find B.empty name.1 name.2 = .ok none
  keep_taken : ∀ {s : σ} {r first : Record}, valid s → named r.name →
    B.find s r.appId r.markHeader = .ok (some first) → B.keep s r = (.ok first, s)
  keep_free : ∀ {s : σ} {r : Record}, valid s → named r.name →
    B.find s r.appId r.markHeader = .ok none → ∃ s', B.keep s r = (.ok r, s') ∧ valid s' ∧
      ∀ {name}, named name → B.find s' name.1 name.2 =
        if name = r.name then .ok (some r) else B.find s name.1 name.2

/-- A store has under every name it can use what the contents have there. -/
def Shows (B : Backend σ) (named : String × String → Prop) (s : σ) (c : Contents) : Prop :=
  ∀ name, named name → B.find s name.1 name.2 = .ok (c name)

theorem KeepsFirst.keep {B : Backend σ} {named : String × String → Prop} {valid : σ → Prop}
    (keeps : B.KeepsFirst named valid) {s : σ} {c : Contents} {r : Record} (inside : valid s)
    (shown : B.Shows named s c) (usable : named r.name) :
    (B.keep s r).1 = .ok ((c r.name).getD r) ∧ valid (B.keep s r).2 ∧
      B.Shows named (B.keep s r).2 (c.keep r) := by
  have there := shown r.name usable
  cases first : c r.name with
  | some kept =>
    rw [first] at there
    rw [keeps.keep_taken inside usable there]
    refine ⟨rfl, inside, fun name other => ?_⟩
    rw [shown name other, Contents.keep]
    split
    · rename_i same
      rw [same, first]
      rfl
    · rfl
  | none =>
    rw [first] at there
    obtain ⟨s', kept, stays, after⟩ := keeps.keep_free inside usable there
    rw [kept]
    refine ⟨rfl, stays, fun name other => ?_⟩
    rw [after other, Contents.keep]
    split
    · rename_i same
      rw [same, first]
      rfl
    · exact shown name other

end Backend

theorem Record.reads_shape (layout : Json.Layout) (r : Record) :
    Json.Reads codec.shape layout (codec.write r) (codec.write r) := by
  refine Json.reads_record ?_ (by simp) rfl
  intro m member
  simp only [List.mem_cons, List.not_mem_nil, or_false] at member
  rcases member with rfl | rfl | rfl | rfl | rfl | rfl
  all_goals exact ⟨_, rfl, Json.reads_text _ _⟩

theorem parse_pretty (r : Record) :
    Record.codec.parse (Bytes.ofText (Record.codec.pretty r)) = .ok r :=
  Record.codec.parse_written (r.reads_shape (.indented 0)) rfl

namespace Backend

theorem memory_keepsFirst : memory.KeepsFirst (fun _ => True) fun _ => True where
  valid_empty := trivial
  find_empty _ := rfl
  keep_taken {t r first} _ _ there := by
    have taken : t.find? (r.appId, r.markHeader) = some first := Except.ok.inj there
    simp only [memory, taken]
  keep_free {t r} _ _ there := by
    have free : t.find? (r.appId, r.markHeader) = none := Except.ok.inj there
    refine ⟨t.insert r.name r, by simp only [memory, free, Record.name], trivial, ?_⟩
    intro name _
    simp only [memory, Table.find?_insert]
    split <;> rfl

/-- A directory can use the names that are short enough for a file. -/
def isFileName (name : String × String) : Prop := Directory.isName (fileName name.1 name.2) = true

theorem text_of_symbols {s t : String} (same : (Base64.urlSafe.encode (Bytes.ofText s)).toList =
    (Base64.urlSafe.encode (Bytes.ofText t)).toList) : s = t :=
  Bytes.ofText_inj (Base64.Form.encode_inj Base64.Form.urlSafe_proper (String.toList_inj.mp same))

theorem toList_fileName (appId header : String) :
    (fileName appId header).toList = ((Base64.urlSafe.encode (Bytes.ofText appId)).toList ++
      '.' :: (Base64.urlSafe.encode (Bytes.ofText header)).toList) ++ ".json".toList := by
  simp [fileName]

theorem fileName_inj (name other : String × String) :
    fileName other.1 other.2 = fileName name.1 name.2 ↔ other = name := by
  constructor
  · intro same
    have lists := congrArg String.toList same
    rw [toList_fileName, toList_fileName, List.append_cancel_right_eq] at lists
    obtain ⟨apps, headers⟩ := Text.cut_last (Base64.Form.pointless_encode _)
      (Base64.Form.pointless_encode _) lists
    exact Prod.ext (text_of_symbols apps) (text_of_symbols headers)
  · rintro rfl
    rfl

theorem directory_find {d : Directory} {name : String × String} (short : isFileName name) :
    directory.find d name.1 name.2 = ofFile (.ok (d.find? (fileName name.1 name.2))) := by
  have read : d.read (fileName name.1 name.2) = .ok (d.find? (fileName name.1 name.2)) :=
    if_pos short
  simp only [directory, findFile, FileWork.run, read]

theorem ofFile_written (r : Record) :
    ofFile (.ok (some (Bytes.ofText (Record.codec.pretty r)))) = .ok (some r) := by
  simp only [ofFile, parse_pretty]

theorem free_of_ofFile {file : Option Bytes} (read : ofFile (.ok file) = .ok none) :
    file = none := by
  cases file with
  | none => rfl
  | some content =>
    simp only [ofFile] at read
    split at read <;> cases read

theorem directory_keepsFirst : directory.KeepsFirst isFileName fun _ => True where
  valid_empty := trivial
  find_empty short := (directory_find short).trans rfl
  keep_taken {d r first} _ short there := by
    have taken : ofFile (d.read (fileName r.appId r.markHeader)) = .ok (some first) := there
    simp only [directory, keepFile, FileWork.run, taken]
  keep_free {d r} _ short there := by
    have free : d.find? (fileName r.appId r.markHeader) = none :=
      free_of_ofFile ((directory_find short).symm.trans there)
    have looked : ofFile (d.read (fileName r.appId r.markHeader)) = .ok none := there
    have usable : Directory.isName (fileName r.appId r.markHeader) = true := short
    obtain ⟨content, written⟩ : ∃ content, Bytes.ofText (Record.codec.pretty r) = content :=
      ⟨_, rfl⟩
    have created : d.create (fileName r.appId r.markHeader) content =
        .ok (true, d.insert (fileName r.appId r.markHeader) content) := by
      rw [Directory.create, if_pos usable, free]
    refine ⟨d.insert (fileName r.appId r.markHeader) content, ?_, trivial, fun {name} other => ?_⟩
    · simp only [directory, keepFile, nameFile, FileWork.run, looked, written, created]
    · have sameFile : fileName name.1 name.2 = fileName r.appId r.markHeader ↔ name = r.name :=
        fileName_inj r.name name
      rw [directory_find other, directory_find other, Table.find?_insert]
      by_cases same : name = r.name
      · rw [if_pos (sameFile.mpr same), if_pos same, ← written, ofFile_written]
      · rw [if_neg (mt sameFile.mp same), if_neg same]

/-- Whoever gives a record its name too late gets the one that is there. -/
theorem nameFile_late {d : Directory} {r first : Record} (short : isFileName r.name)
    (there : directory.find d r.appId r.markHeader = .ok (some first)) :
    (nameFile r).run d = (.ok first, d) := by
  have usable : Directory.isName (fileName r.appId r.markHeader) = true := short
  have looked : ofFile (d.read (fileName r.appId r.markHeader)) = .ok (some first) := there
  have refused : d.create (fileName r.appId r.markHeader)
      (Bytes.ofText (Record.codec.pretty r)) = .ok (false, d) := by
    rw [Directory.read, if_pos usable] at looked
    rw [Directory.create, if_pos usable]
    cases file : d.find? (fileName r.appId r.markHeader) with
    | none =>
      rw [file] at looked
      cases looked
    | some content => rfl
  simp only [nameFile, takeFirst, FileWork.run, refused, looked]

def Keyed (r : Rows) : Prop := r.keyColumns = 2

theorem key_toRow {t : Rows} (keyed : Keyed t) (r : Record) :
    (toRow r).take t.keyColumns = [r.appId, r.markHeader] := by
  rw [show t.keyColumns = 2 from keyed]
  rfl

theorem taken_of_ofRow? {row : Option (List String)} {first : Record}
    (read : ofRow? row = .ok (some first)) : ∃ columns, row = some columns := by
  cases row with
  | none => cases read
  | some columns => exact ⟨columns, rfl⟩

theorem free_of_ofRow? {row : Option (List String)} (read : ofRow? row = .ok none) :
    row = none := by
  unfold ofRow? at read
  split at read
  · rfl
  · cases read
  · cases read

theorem database_keep {t : Rows} {r first : Record} (looked : ofRow?
    ((t.insertOrIgnore (toRow r)).select? [r.appId, r.markHeader]) = .ok (some first)) :
    database.keep t r = (.ok first, t.insertOrIgnore (toRow r)) := by
  simp only [database, looked]

theorem database_keepsFirst : database.KeepsFirst (fun _ => True) Keyed where
  valid_empty := rfl
  find_empty _ := rfl
  keep_taken {t r first} keyed _ there := by
    have looked : ofRow? (t.select? [r.appId, r.markHeader]) = .ok (some first) := there
    obtain ⟨columns, taken⟩ := taken_of_ofRow? looked
    have same : t.insertOrIgnore (toRow r) = t :=
      Rows.insertOrIgnore_of_taken ((key_toRow keyed r).symm ▸ taken)
    rw [database_keep (same.symm ▸ looked), same]
  keep_free {t r} keyed _ there := by
    have free : t.select? [r.appId, r.markHeader] = none := free_of_ofRow? there
    have free' : t.select? ((toRow r).take t.keyColumns) = none := by
      rw [key_toRow keyed r]
      exact free
    have after := Rows.select_insertOrIgnore free'
    rw [key_toRow keyed r] at after
    have looked : ofRow? ((t.insertOrIgnore (toRow r)).select? [r.appId, r.markHeader]) =
        .ok (some r) := by
      rw [after, if_pos rfl]
      rfl
    refine ⟨_, database_keep looked, (Rows.keyColumns_insertOrIgnore ..).trans keyed, ?_⟩
    intro name _
    by_cases same : name = r.name
    · rw [if_pos same, same]
      exact looked
    · have differ : [name.1, name.2] ≠ [r.appId, r.markHeader] := by
        intro keys
        simp only [List.cons.injEq, and_true] at keys
        exact same (Prod.ext keys.1 keys.2)
      rw [if_neg same]
      simp only [database, after, if_neg differ]

end Backend

end KeyService.LocalText
