import KeyService.KeyPair.Basic
import KeyService.Store.Directory
import KeyService.Store.Rows

/-! The three stores of key pairs.
A pair is kept in memory, as a document in a directory, or as a row of a database.
Each kind checks an id before it keeps a pair under it. -/
namespace KeyService.KeyPair

structure Backend (σ : Type) where
  empty : σ
  find : σ → String → Except Error KeyPair
  keep : σ → String → KeyPair → Except Error σ
  clear : σ → σ

def orMissing {α : Type} (id : String) : Option α → Except Error α
  | some a => .ok a
  | none => .error (.missing id)

namespace Backend

def memory : Backend (Table String KeyPair) where
  empty := .empty
  find t id := orMissing id (t.find? id)
  keep t id pair := do
    checkId id
    return t.insert id pair
  clear _ := .empty

def fileName (id : String) : String := id ++ ".json"

def isDocument (name : String) : Bool :=
  ".json".toList.isSuffixOf name.toList && 5 < name.toList.length

/-- One document a pair in a directory; other files of the directory are left alone. -/
def directory : Backend Directory where
  empty := .empty
  find d id :=
    if isId id then
      match d.read (fileName id) with
      | .ok none => .error (.missing id)
      | .ok (some content) =>
        match codec.parse content with
        | .ok pair => .ok pair
        | .error _ => .error (.storage "broken document")
      | .error e => .error (.storage e)
    else .error (.missing id)
  keep d id pair := do
    checkId id
    (d.replace (fileName id) (Bytes.ofText (codec.print pair))).mapError .storage
  clear d := d.filter fun name _ => !isDocument name

def database : Backend Rows where
  empty := .ofKey 1
  find r id :=
    match r.select? [id] with
    | some [_, algorithm, publicKey, privateKey] => .ok ⟨algorithm, publicKey, privateKey⟩
    | some _ => .error (.storage "broken row")
    | none => .error (.missing id)
  keep r id pair := do
    checkId id
    return r.insertOrReplace [id, pair.algorithm, pair.publicKey, pair.privateKey]
  clear r := r.deleteAll

end Backend

end KeyService.KeyPair
