import KeyService.Bytes
import KeyService.Http.Coding
import KeyService.Http.Uri

/-! Requests and responses. -/
namespace KeyService.Http

/-- Names and values in the order in which they were sent. Values are bytes, and need not be
text. -/
abbrev Headers := List (String × Bytes)

namespace Headers

def find? (hs : Headers) (name : String) : Option Bytes :=
  (List.find? (fun h => Text.sameLetters h.1 name) hs).map Prod.snd

def all (hs : Headers) (name : String) : List Bytes :=
  (List.filter (fun h => Text.sameLetters h.1 name) hs).map Prod.snd

/-- The text of a value of printable ASCII, where tabs count as printable. -/
def text? (value : Bytes) : Option String :=
  if value.all fun b => b == 9 || (0x20 ≤ b && b < 0x7F) then Bytes.text? value else none

end Headers

structure Request where
  method : String
  target : Uri
  headers : Headers
  body : Bytes
  deriving DecidableEq

structure Response where
  status : Nat
  headers : Headers
  body : Bytes
  coding : Option Coding
  deriving DecidableEq

namespace Response

def ofText (status : Nat) (contentType text : String) : Response :=
  ⟨status, [("content-type", Bytes.ofText contentType)], Bytes.ofText text, none⟩

def bare (status : Nat) : Response := ⟨status, [], [], none⟩

def withHeader (r : Response) (name value : String) : Response :=
  { r with headers := r.headers ++ [(name, Bytes.ofText value)] }

end Response

end KeyService.Http
