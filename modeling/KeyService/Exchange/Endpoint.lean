import KeyService.Exchange.Error
import KeyService.Http.Uri

/-! The place where key exchanges are accepted.
It is given by a pattern of path segments. An asterisk stands for any one segment,
and two asterisks at the end for any number of them. Empty segments do not count. -/
namespace KeyService.Exchange

structure Endpoint where
  pattern : String
  deriving DecidableEq

def segments (path : String) : List String := (Text.pieces '/' path).filter (· ≠ "")

def matchSegments : (pattern path : List String) → Bool
  | ["**"], _ => true
  | p :: pattern, s :: path => (p = "*" || p = s) && matchSegments pattern path
  | [], [] => true
  | _, _ => false

namespace Endpoint

def accepts (e : Endpoint) (path : String) : Bool :=
  matchSegments (segments e.pattern) (segments path)

/-- The path of an address; what is no address is taken for a path. -/
def pathOf (url : String) : String :=
  match Http.Uri.parse? url with
  | some uri => uri.path
  | none => url

def check (e : Endpoint) (url : String) : Except Error Unit :=
  if e.accepts (pathOf url) then .ok () else .error (.endpointMismatch (pathOf url) e.pattern)

end Endpoint

end KeyService.Exchange
