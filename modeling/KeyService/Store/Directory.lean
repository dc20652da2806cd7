import KeyService.Bytes
import KeyService.Store.Table

/-! Directories of files.
A file is replaced or created as a whole, so nobody sees half of one. A name has at
most 255 bytes; the file system refuses a longer one. -/
namespace KeyService

abbrev Directory := Table String Bytes

namespace Directory

/-- Open a directory, with what others have left in it; it is made if it is not there. -/
def opened (left : Option Directory) : Directory := left.getD .empty

def longName : String := "File name too long"

def isName (name : String) : Bool := name.utf8ByteSize ≤ 255

def read (d : Directory) (name : String) : Except String (Option Bytes) :=
  if isName name then .ok (d.find? name) else .error longName

def replace (d : Directory) (name : String) (content : Bytes) : Except String Directory :=
  if isName name then .ok (d.insert name content) else .error longName

/-- Put a file where there is none; otherwise change nothing and say so. -/
def create (d : Directory) (name : String) (content : Bytes) : Except String (Bool × Directory) :=
  if isName name then
    match d.find? name with
    | some _ => .ok (false, d)
    | none => .ok (true, d.insert name content)
  else .error longName

def names (d : Directory) : List String := d.entries.map Prod.fst

end Directory

/-- Work on a shared directory, one file operation after the other. Between two of them somebody
else may work on the directory too. -/
inductive FileWork (α : Type) where
  | done (result : α)
  | read (name : String) (next : Except String (Option Bytes) → FileWork α)
  /-- Write a whole file that has no name yet, so that nobody sees it. -/
  | stage (content : Bytes) (next : Except String Unit → FileWork α)
  /-- Give the staged file a name, unless the name is taken. -/
  | create (name : String) (content : Bytes) (next : Except String Bool → FileWork α)

namespace FileWork

variable {α : Type}

def run (d : Directory) : FileWork α → α × Directory
  | .done a => (a, d)
  | .read name next => (next (d.read name)).run d
  | .stage _ next => (next (.ok ())).run d
  | .create name content next =>
    match d.create name content with
    | .ok (created, d') => (next (.ok created)).run d'
    | .error e => (next (.error e)).run d

end FileWork

end KeyService
