/-! Relations of a database: rows of texts whose first columns are a key. -/
namespace KeyService

structure Rows where
  keyColumns : Nat
  rows : List (List String)

namespace Rows

def ofKey (columns : Nat) : Rows := ⟨columns, []⟩

/-- Open a relation, with what others have left in it; it is made if it is not there. -/
def opened (columns : Nat) (left : Option Rows) : Rows := left.getD (ofKey columns)

def hasKey (r : Rows) (key row : List String) : Bool := row.take r.keyColumns = key

def select? (r : Rows) (key : List String) : Option (List String) := r.rows.find? (r.hasKey key)

def insertOrReplace (r : Rows) (row : List String) : Rows :=
  { r with rows := r.rows.filter (fun other => !r.hasKey (row.take r.keyColumns) other) ++ [row] }

def insertOrIgnore (r : Rows) (row : List String) : Rows :=
  if r.rows.any (r.hasKey (row.take r.keyColumns)) then r else { r with rows := r.rows ++ [row] }

def deleteAll (r : Rows) : Rows := { r with rows := [] }

end Rows

end KeyService
