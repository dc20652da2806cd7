import KeyService.Gateway.Client
import KeyService.Proofs.Gateway.Dispatch
import KeyService.Proofs.Gateway.Routes
import KeyService.Proofs.Text.Pieces

/-! Calls that reach a gateway as they were made.
A connection may add headers of its own behind those of the call. As long as it marks no
call as a key exchange and asks for no coding, the answer is what the route says, and
nothing else happens on the way. -/
namespace KeyService

namespace Http.Uri

theorem not_ends_of_isPathChar {c : Char} (allowed : isPathChar c = true) :
    c ≠ '?' ∧ c ≠ '#' := by
  constructor <;> intro ends <;> subst ends <;> simp [isPathChar] at allowed

theorem ofPath?_plain {cs : List Char} (allowed : cs.all isPathChar = true) (some : cs ≠ []) :
    ofPath? cs = .some ⟨String.ofList cs, none⟩ := by
  have goes : ∀ c ∈ cs, (decide (c ≠ '?') && decide (c ≠ '#')) = true := by
    intro c member
    simpa using not_ends_of_isPathChar (List.all_eq_true.mp allowed c member)
  have all : cs.takeWhile (fun c => decide (c ≠ '?') && decide (c ≠ '#')) = cs :=
    List.takeWhile_eq_self_iff.mpr goes
  have rest : cs.dropWhile (fun c => decide (c ≠ '?') && decide (c ≠ '#')) = [] :=
    List.dropWhile_eq_nil_iff.mpr goes
  simp only [ofPath?, all, rest, allowed]
  simp [some]

theorem parse?_plain {path : String} (rooted : path.toList.head? = some '/')
    (allowed : path.toList.all isPathChar = true) (fits : path.utf8ByteSize ≤ maxBytes) :
    parse? path = some ⟨path, none⟩ := by
  obtain ⟨rest, rooted⟩ := List.head?_eq_some_iff.mp rooted
  have whole := ofPath?_plain allowed (by simp [rooted])
  rw [String.ofList_toList, rooted] at whole
  rw [parse?, if_neg (Nat.not_lt.mpr fits)]
  simp only [rooted, whole]

end Http.Uri

namespace Exchange.Endpoint

theorem matchSegments_self (path : List String) : matchSegments path path = true := by
  induction path with
  | nil => rfl
  | cons s path ih =>
    by_cases whole : s = "**" ∧ path = []
    · obtain ⟨rfl, rfl⟩ := whole
      rfl
    · rw [matchSegments, ih]
      · simp
      · rintro rfl rfl
        exact whole ⟨rfl, rfl⟩

theorem accepts_self (path : String) : (⟨path⟩ : Endpoint).accepts path = true :=
  matchSegments_self _

end Exchange.Endpoint

namespace Http.Headers

theorem all_append (hs more : Headers) (name : String) :
    all (hs ++ more) name = hs.all name ++ more.all name := by
  simp only [all, List.filter_append, List.map_append]

theorem find?_append (hs more : Headers) (name : String) :
    find? (hs ++ more) name = (hs.find? name).or (more.find? name) := by
  simp only [find?, List.find?_append]
  cases List.find? (fun h => Text.sameLetters h.1 name) hs <;> rfl

end Http.Headers

namespace Gateway

open Http (Headers Request Response Uri)

variable (S : Suite)

/-- A call as it arrives, behind its own headers those that were added on the way. -/
def delivered (call : Call) (target : Uri) (added : Headers) : Request :=
  ⟨call.method, target, call.headers ++ added, call.body⟩

/-- A connection to a gateway at a base address. Whatever is called below this address reaches the
gateway as it is, with headers that the connection adds. -/
def connection (g : Gateway) (base : String) (added : Headers) : Connection := fun call =>
  match (Text.after? call.url base).bind Uri.parse? with
  | none => return .error "no such address"
  | some target => do
    let (response, _) ← handle S g (delivered call target added)
    return .ok response

theorem body_delivered (call : Call) (target : Uri) (added : Headers) :
    (delivered call target added).body = call.body := rfl

/-- Headers that mark no key exchange and ask for no coding. -/
def Plain (headers : Headers) : Prop :=
  ∀ h ∈ headers, Text.sameLetters h.1 exchangeHeader = false ∧
    Text.sameLetters h.1 "accept-encoding" = false

theorem Plain.uncoded {headers : Headers} (plain : Plain headers) :
    headers.all "accept-encoding" = [] := by
  have none : headers.filter (fun h => Text.sameLetters h.1 "accept-encoding") = [] :=
    List.filter_eq_nil_iff.mpr fun h member => by simp [(plain h member).2]
  rw [Headers.all, none, List.map_nil]

theorem Plain.unmarked {headers : Headers} (plain : Plain headers) :
    headers.find? exchangeHeader = none := by
  have none : List.find? (fun h => Text.sameLetters h.1 exchangeHeader) headers = none :=
    List.find?_eq_none.mpr fun h member => by simp [(plain h member).1]
  rw [Headers.find?, none, Option.map_none]

variable {S} {g : Gateway} {route : Route}

/-- A literal path that is a target as it stands. -/
structure Addressed (path : String) : Prop where
  literal : Http.Pattern.Literal path
  target : Uri.parse? path = some ⟨path, none⟩

variable {responder : Exchange.Responder} {cipher : LocalText.Cipher}
  {negotiationPath publicKeyPath : String}

theorem ofPaths_ok : ofPaths responder cipher negotiationPath publicKeyPath = .ok g ↔
    ∃ router, Router.build negotiationPath publicKeyPath = .ok router ∧
      ⟨responder, cipher, ⟨negotiationPath⟩, router⟩ = g := by
  simp only [ofPaths, Attempt.bind_ok, Attempt.pure_ok]

theorem dispatch?_of_inside
    (built : ofPaths responder cipher negotiationPath publicKeyPath = .ok g) {r : Request}
    (planned : (r.target.path, route) ∈ Router.plan negotiationPath publicKeyPath)
    (starless : Http.Pattern.Starless r.target.path) (takes : r.method ∈ route.methods)
    (inside : g.isStray r = false) : g.dispatch? r = some route := by
  obtain ⟨router, routes, rfl⟩ := ofPaths_ok.mp built
  obtain ⟨sound, has⟩ := Router.sound_build routes
  obtain ⟨place, found, routed⟩ := Router.reaches sound ((has _ _).mpr planned) starless takes
  exact dispatch?_eq_some.mpr ⟨inside, place, found, routed⟩

/-- A request for a planned path gets to its handler. Only the place where keys are exchanged takes
requests that are marked. -/
theorem dispatch?_of_planned
    (built : ofPaths responder cipher negotiationPath publicKeyPath = .ok g) {r : Request}
    (planned : (r.target.path, route) ∈ Router.plan negotiationPath publicKeyPath)
    (starless : Http.Pattern.Starless r.target.path) (takes : r.method ∈ route.methods)
    (marked : r.headers.find? exchangeHeader = none ∨ r.target.path = negotiationPath) :
    g.dispatch? r = some route := by
  refine dispatch?_of_inside built planned starless takes ?_
  obtain ⟨router, -, rfl⟩ := ofPaths_ok.mp built
  rw [isStray]
  rcases marked with unmarked | same
  · rw [unmarked]
    rfl
  · rw [same, Exchange.Endpoint.accepts_self, Bool.not_true, Bool.and_false]

theorem connection_of_route
    (built : ofPaths responder cipher negotiationPath publicKeyPath = .ok g) {path : String}
    (planned : (path, route) ∈ Router.plan negotiationPath publicKeyPath)
    (addressed : Addressed path) {added : Headers} (plain : Plain added) {base : String}
    {call : Call} (url : call.url = base ++ path) (takes : call.method ∈ route.methods)
    (uncoded : call.headers.all "accept-encoding" = [])
    (marked : call.headers.find? exchangeHeader = .none ∨ path = negotiationPath) :
    connection S g base added call = do
      let (response, _) ← serve S g (delivered call ⟨path, .none⟩ added) route
      return .ok response := by
  have target : (Text.after? call.url base).bind Uri.parse? = some ⟨path, .none⟩ := by
    rw [url, Text.after?_append]
    exact addressed.target
  have none : (delivered call ⟨path, .none⟩ added).headers.all "accept-encoding" = [] := by
    rw [delivered, Headers.all_append, uncoded, plain.uncoded, List.append_nil]
  have marked' : (delivered call ⟨path, .none⟩ added).headers.find? exchangeHeader = .none ∨
      path = negotiationPath := by
    refine marked.imp_left fun unmarked => ?_
    rw [delivered, Headers.find?_append, unmarked, plain.unmarked]
    rfl
  have notHead : call.method ≠ "HEAD" := by
    intro head
    rw [head] at takes
    cases route <;> simp [Route.methods] at takes
  have reached := dispatch?_of_planned (r := delivered call ⟨path, .none⟩ added) built planned
    addressed.literal.starless takes marked'
  rw [connection, target]
  simp only
  rw [handle_of_dispatch reached]
  simp only [presented_of_plain none notHead, bind_assoc, pure_bind]

/-- A path that is spelled out from the root, in characters that paths may have. -/
theorem addressed_of_rooted {path : String} (literal : Http.Pattern.Literal path)
    (rooted : path.toList.head? = some '/')
    (allowed : path.toList.all Http.Uri.isPathChar = true)
    (fits : path.utf8ByteSize ≤ Http.Uri.maxBytes) : Addressed path :=
  ⟨literal, Http.Uri.parse?_plain rooted allowed fits⟩

theorem addressed_exchange : Addressed "/exchange" :=
  addressed_of_rooted (by decide) (by decide) (by decide) (by decide)

theorem addressed_key : Addressed "/key" :=
  addressed_of_rooted (by decide) (by decide) (by decide) (by decide)

theorem ofPaths_of_isOk (responder : Exchange.Responder) (cipher : LocalText.Cipher)
    (routes : (Router.build negotiationPath publicKeyPath).isOk = true) :
    ∃ g, ofPaths responder cipher negotiationPath publicKeyPath = .ok g := by
  cases built : Router.build negotiationPath publicKeyPath with
  | ok router => exact ⟨_, ofPaths_ok.mpr ⟨router, built, rfl⟩⟩
  | error cause =>
    rw [built] at routes
    cases routes

theorem ofPaths_small (responder : Exchange.Responder) (cipher : LocalText.Cipher) :
    ∃ g, ofPaths responder cipher "/exchange" "/key" = .ok g :=
  ofPaths_of_isOk responder cipher (by decide)

end Gateway

end KeyService
