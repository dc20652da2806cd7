import KeyService.Bytes.Base64
import KeyService.LocalText.Error
import KeyService.LocalText.Record
import KeyService.Store.Directory
import KeyService.Store.Rows

/-! The three stores of key records.
A record is kept under its application and its header. The first record that is
kept stays: whoever keeps another one under the same name is given the first. -/
namespace KeyService.LocalText

structure Backend (σ : Type) where
  empty : σ
  find : σ → (appId header : String) → Except Error (Option Record)
  /-- Keep a record unless there is one; the answer is the record that is there afterwards. -/
  keep : σ → Record → Except Error Record × σ

namespace Backend

def memory : Backend (Table (String × String) Record) where
  empty := .empty
  find t appId header := .ok (t.find? (appId, header))
  keep t record :=
    match t.find? (record.appId, record.markHeader) with
    | some first => (.ok first, t)
    | none => (.ok record, t.insert (record.appId, record.markHeader) record)

/-- The file of an application and a header. Neither part holds a point, so the name can be taken
apart again. -/
def fileName (appId header : String) : String :=
  Base64.urlSafe.encode (Bytes.ofText appId) ++ "."
    ++ Base64.urlSafe.encode (Bytes.ofText header) ++ ".json"

def ofFile : Except String (Option Bytes) → Except Error (Option Record)
  | .ok none => .ok none
  | .ok (some content) =>
    match Record.codec.parse content with
    | .ok record => .ok (some record)
    | .error _ => .error (.repository "broken document")
  | .error e => .error (.repository e)

def findFile (appId header : String) : FileWork (Except Error (Option Record)) :=
  .read (fileName appId header) fun file => .done (ofFile file)

/-- What is there under a name that was taken when a record was to be kept under it. -/
def takeFirst (name : String) : FileWork (Except Error Record) :=
  .read name fun file =>
    match ofFile file with
    | .error e => .done (.error e)
    | .ok (some first) => .done (.ok first)
    | .ok none => .done (.error (.repository (name ++ " vanished")))

/-- Give a staged record its name. If somebody else was faster, take theirs. -/
def nameFile (record : Record) : FileWork (Except Error Record) :=
  let name := fileName record.appId record.markHeader
  .create name (Bytes.ofText (Record.codec.pretty record)) fun created =>
    match created with
    | .error e => .done (.error (.repository e))
    | .ok true => .done (.ok record)
    | .ok false => takeFirst name

/-- Keep a record in a shared directory: look whether there is one, write the new one to a file of
its own, and give that file its name. -/
def keepFile (record : Record) : FileWork (Except Error Record) :=
  .read (fileName record.appId record.markHeader) fun file =>
    match ofFile file with
    | .error e => .done (.error e)
    | .ok (some first) => .done (.ok first)
    | .ok none =>
      .stage (Bytes.ofText (Record.codec.pretty record)) fun staged =>
        match staged with
        | .error e => .done (.error (.repository e))
        | .ok () => nameFile record

def directory : Backend Directory where
  empty := .empty
  find d appId header := ((findFile appId header).run d).1
  keep d record := (keepFile record).run d

def toRow (r : Record) : List String :=
  [r.appId, r.markHeader, r.rootKeySalt, r.encryptedDataKey, r.iv, r.createdAt]

def ofRow? : Option (List String) → Except Error (Option Record)
  | none => .ok none
  | some [appId, header, salt, wrapped, iv, createdAt] =>
    .ok (some ⟨appId, header, salt, wrapped, iv, createdAt⟩)
  | some _ => .error (.repository "broken row")

def database : Backend Rows where
  empty := .ofKey 2
  find r appId header := ofRow? (r.select? [appId, header])
  keep r record :=
    let after := r.insertOrIgnore (toRow record)
    match ofRow? (after.select? [record.appId, record.markHeader]) with
    | .ok (some first) => (.ok first, after)
    | .ok none => (.error (.repository "record missing after insert"), after)
    | .error e => (.error e, after)

end Backend

end KeyService.LocalText
