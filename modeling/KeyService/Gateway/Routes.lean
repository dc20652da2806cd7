import KeyService.Http.Pattern

/-! The routes of the gateway.
Two of them are at paths that the operator chooses, the others at fixed ones. A path
may carry several routes if they differ in their methods. -/
namespace KeyService

inductive Route where
  | negotiate
  | publicKey
  | secureEcho
  | localEncrypt
  | localDecrypt
  | health
  deriving DecidableEq, Repr

def Route.methods : Route → List String
  | negotiate | secureEcho | localEncrypt | localDecrypt => ["POST"]
  | publicKey => ["GET", "POST"]
  | health => ["GET"]

/-- What can be said of a path whose routes do not take a method: a route that answers GET answers
HEAD as well. -/
def Route.allowed (r : Route) : List String :=
  r.methods.flatMap fun m => if m = "GET" then ["GET", "HEAD"] else [m]

structure Place where
  path : String
  pattern : Http.Pattern
  routes : List Route
  deriving DecidableEq, Repr

namespace Place

def route? (p : Place) (method : String) : Option Route :=
  let method := if method = "HEAD" then "GET" else method
  p.routes.find? fun r => method ∈ r.methods

def allowed (p : Place) : String := String.intercalate "," (p.routes.flatMap Route.allowed)

end Place

inductive RouteError where
  | badPath (path : String)
  | sameMethod (path : String)
  /-- Two patterns fit one path, and none goes first. -/
  | clash (path other : String)
  deriving DecidableEq, Repr

abbrev Router := List Place

namespace Router

def add (t : Router) (path : String) (route : Route) : Except RouteError Router :=
  match t.find? (·.path = path) with
  | some place =>
    if place.routes.any fun r => r.methods.any (· ∈ route.methods) then .error (.sameMethod path)
    else
      .ok (t.map fun p => if p.path = path then { p with routes := p.routes ++ [route] } else p)
  | none =>
    match Http.Pattern.parse? path with
    | none => .error (.badPath path)
    | some pattern =>
      match t.find? fun p => pattern.clashes p.pattern with
      | some other => .error (.clash path other.path)
      | none => .ok (t ++ [⟨path, pattern, [route]⟩])

def build (negotiationPath publicKeyPath : String) : Except RouteError Router := do
  let t ← add [] negotiationPath .negotiate
  let t ← t.add publicKeyPath .publicKey
  let t ← t.add "/secure/echo" .secureEcho
  let t ← t.add "/local/encrypt" .localEncrypt
  let t ← t.add "/local/decrypt" .localDecrypt
  t.add "/health" .health

def prefer (best : Option Place) (p : Place) : Option Place :=
  match best with
  | none => some p
  | some b => if p.pattern.precedes b.pattern then some p else some b

def find? (t : Router) (path : String) : Option Place :=
  (t.filter fun p => p.pattern.fits path.toList).foldl prefer none

end Router

end KeyService
