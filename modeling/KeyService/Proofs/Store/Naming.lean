import KeyService.Proofs.KeyPair.Agreement
import KeyService.Proofs.LocalText.Backend
import KeyService.Proofs.Store.Directory

/-! The names of stored files.
Whatever texts a file is named for, it is directly in the directory of its store, and no other
texts name it. A pair has a file only under an id; nothing else comes to be a name at all. -/
namespace KeyService

namespace Directory

/-- A name that a directory can have an entry under: one component, and none of the two that mean a
directory. -/
structure IsEntry (name : String) : Prop where
  filled : name ≠ ""
  flat : '/' ∉ name.toList
  unended : '\x00' ∉ name.toList
  notHere : name ≠ "."
  notAbove : name ≠ ".."

/-- Where one component of a path leads. -/
def step (dir : List String) (component : String) : List String :=
  if component = "" ∨ component = "." then dir
  else if component = ".." then dir.dropLast
  else dir ++ [component]

/-- Where a path leads from a directory. A path that begins with a slash leads there from
everywhere. -/
def locate (dir : List String) (path : String) : List String :=
  (Text.pieces '/' path).foldl step (if Text.startsWith path "/" then [] else dir)

theorem pieces_of_flat {name : String} (flat : '/' ∉ name.toList) :
    Text.pieces '/' name = [name] := by
  have free : ∀ part ∈ [name], '/' ∉ part.toList := by simpa using flat
  have joined := Text.pieces_joined (List.cons_ne_nil name []) free
  rwa [String.intercalate_singleton] at joined

theorem relative_of_flat {name : String} (flat : '/' ∉ name.toList) :
    Text.startsWith name "/" = false := by
  rw [← Bool.not_eq_true, Text.startsWith, List.isPrefixOf_iff_prefix]
  intro begins
  exact flat (begins.subset (List.mem_singleton_self '/'))

theorem IsEntry.locate {name : String} (entry : IsEntry name) (dir : List String) :
    locate dir name = dir ++ [name] := by
  rw [Directory.locate, pieces_of_flat entry.flat, relative_of_flat entry.flat]
  simp [step, entry.filled, entry.notHere, entry.notAbove]

theorem isEntry_json {stem : String} (flat : ∀ c ∈ stem.toList, c ≠ '/' ∧ c ≠ '\x00') :
    IsEntry (stem ++ ".json") := by
  have long : 5 ≤ (stem ++ ".json").toList.length := by simp
  have slashless : '/' ∉ stem.toList := fun member => (flat _ member).1 rfl
  have unended : '\x00' ∉ stem.toList := fun member => (flat _ member).2 rfl
  refine ⟨?_, by simpa using slashless, by simpa using unended, ?_, ?_⟩
  all_goals
    intro same
    rw [same] at long
    exact absurd long (by decide)

/-- There is something before the last point of a name, and this text after it. -/
def HasExtension (name ext : String) : Prop :=
  ∃ stem, stem ≠ "" ∧ name = stem ++ "." ++ ext ∧ '.' ∉ ext.toList

end Directory

namespace LocalText.Backend

theorem isEntry_fileName (appId header : String) : Directory.IsEntry (fileName appId header) := by
  apply Directory.isEntry_json
  intro c member
  simp only [String.toList_append, List.mem_append] at member
  rcases member with (member | member) | member
  · exact Base64.Form.flat_encode member
  · obtain rfl : c = '.' := by simpa using member
    decide
  · exact Base64.Form.flat_encode member

theorem takeFirst_staysAt (name : String) : (takeFirst name).StaysAt name := by
  refine ⟨rfl, fun file => ?_⟩
  dsimp only
  split <;> trivial

theorem nameFile_staysAt (r : Record) : (nameFile r).StaysAt (fileName r.appId r.markHeader) := by
  refine ⟨rfl, fun created => ?_⟩
  dsimp only
  split
  · trivial
  · trivial
  · exact takeFirst_staysAt _

theorem keepFile_staysAt (r : Record) : (keepFile r).StaysAt (fileName r.appId r.markHeader) := by
  refine ⟨rfl, fun file => ?_⟩
  dsimp only
  split
  · trivial
  · trivial
  · intro staged
    dsimp only
    split
    · trivial
    · exact nameFile_staysAt r

theorem findFile_staysAt (appId header : String) :
    (findFile appId header).StaysAt (fileName appId header) := ⟨rfl, fun _ => trivial⟩

/-- One file for an application and a header: nothing else is looked at or changed on their
account. -/
structure Filed (appId header : String) : Prop where
  entry : Directory.IsEntry (fileName appId header)
  inside : ∀ dir, Directory.locate dir (fileName appId header) = dir ++ [fileName appId header]
  find : ∀ d d', d.find? (fileName appId header) = d'.find? (fileName appId header) →
    directory.find d appId header = directory.find d' appId header
  keep : ∀ d (r : Record), r.name = (appId, header) → ∀ other, other ≠ fileName appId header →
    (directory.keep d r).2.find? other = d.find? other

theorem filed (appId header : String) : Filed appId header where
  entry := isEntry_fileName appId header
  inside := (isEntry_fileName appId header).locate
  find _ _ same := (findFile_staysAt appId header).result same
  keep d r named other differ := by
    obtain ⟨rfl, rfl⟩ := Prod.mk.inj named
    exact (keepFile_staysAt r).others differ

end LocalText.Backend

namespace KeyPair.Backend

theorem isDocument_iff {name : String} :
    isDocument name = true ↔ Directory.HasExtension name "json" := by
  constructor
  · intro document
    rw [isDocument, Bool.and_eq_true, List.isSuffixOf_iff_suffix, decide_eq_true_iff] at document
    obtain ⟨⟨stem, whole⟩, long⟩ := document
    refine ⟨String.ofList stem, ?_, ?_, by decide⟩
    · intro blank
      obtain rfl : stem = [] := by simpa using blank
      rw [← whole] at long
      exact absurd long (by decide)
    · apply String.toList_inj.mp
      simp [← whole]
  · rintro ⟨stem, filled, rfl, -⟩
    rw [String.append_assoc]
    exact isDocument_append filled

theorem isEntry_fileName {id : String} (good : isId id = true) :
    Directory.IsEntry (fileName id) := by
  simp only [isId, Bool.and_eq_true, List.all_eq_true] at good
  have plain := good.1.1.2
  apply Directory.isEntry_json
  intro c member
  constructor
  · rintro rfl
    exact absurd (plain _ member) (by decide)
  · rintro rfl
    exact absurd (plain _ member) (by decide)

/-- One document for an id: nothing else is looked at or changed on its account. -/
structure Filed (id : String) : Prop where
  entry : Directory.IsEntry (fileName id)
  inside : ∀ dir, Directory.locate dir (fileName id) = dir ++ [fileName id]
  short : (fileName id).utf8ByteSize ≤ 133
  find : ∀ d d', d.find? (fileName id) = d'.find? (fileName id) →
    directory.find d id = directory.find d' id
  keep : ∀ d pair, ∃ d', directory.keep d id pair = .ok d' ∧
    ∀ name, d'.find? name =
      if name = fileName id then some (Bytes.ofText (codec.print pair)) else d.find? name
  clear : isDocument (fileName id) = true ∧ ∀ d, (directory.clear d).find? (fileName id) = none

/-- What is not an id has no document: it is refused whatever there is in the directory. -/
structure Unfiled (id : String) : Prop where
  find : ∀ d, directory.find d id = .error (.missing id)
  keep : ∀ d pair, directory.keep d id pair = .error (.badId id)

theorem unfiled_of_isId {id : String} (bad : isId id = false) : Unfiled id where
  find _ := directory_missing fun good => absurd (bad.symm.trans good) Bool.false_ne_true
  keep _ _ := refuse_of_checkId bad _

theorem filed_of_isId {id : String} (good : isId id = true) : Filed id where
  entry := isEntry_fileName good
  inside := (isEntry_fileName good).locate
  short := short_fileName good
  find d d' same := by
    simp only [directory, Directory.read, isName_fileName good, if_true, same]
  keep d pair := by
    refine ⟨d.insert (fileName id) (Bytes.ofText (codec.print pair)), ?_, fun name => ?_⟩
    · refine (keep_of_checkId good _).trans ?_
      rw [Directory.replace, if_pos (isName_fileName good)]
      rfl
    · exact Table.find?_insert ..
  clear := by
    have document := isDocument_fileName good
    exact ⟨document, fun d => by simp [directory, Table.find?_filter, document]⟩

end KeyPair.Backend

/-- Records and pairs have files of their own, each of them directly in the directory of its store
and apart from those of all other names. A text that is not an id reaches no file. -/
theorem files_named_apart :
    (∀ appId header, LocalText.Backend.Filed appId header) ∧
    (∀ name other : String × String,
      LocalText.Backend.fileName other.1 other.2 = LocalText.Backend.fileName name.1 name.2 →
        other = name) ∧
    (∀ id, KeyPair.isId id = false → KeyPair.Backend.Unfiled id) ∧
    (∀ id, KeyPair.isId id = true → KeyPair.Backend.Filed id) ∧
    (∀ id other, KeyPair.Backend.fileName other = KeyPair.Backend.fileName id → other = id) ∧
    ∀ name, KeyPair.Backend.isDocument name = true ↔ Directory.HasExtension name "json" := by
  refine ⟨LocalText.Backend.filed, fun name other => ?_, fun id => ?_, fun id => ?_,
    fun id other => ?_, fun name => ?_⟩
  · exact (LocalText.Backend.fileName_inj name other).mp
  · exact KeyPair.Backend.unfiled_of_isId
  · exact KeyPair.Backend.filed_of_isId
  · exact KeyPair.Backend.fileName_inj.mp
  · exact KeyPair.Backend.isDocument_iff

open KeyPair KeyPair.Backend in
/-- An id may be all points. The extension alone is no document. -/
example : isId "..." = true ∧ isDocument (fileName "...") = true ∧ isDocument ".json" = false := by
  decide

end KeyService
