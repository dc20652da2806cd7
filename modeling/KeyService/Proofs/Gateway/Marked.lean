import KeyService.Config
import KeyService.Proofs.Exchange.Agreement
import KeyService.Proofs.Exchange.Endpoint
import KeyService.Proofs.Gateway.Connection
import KeyService.Proofs.Gateway.Envelope
import KeyService.Proofs.Suite.Small

/-! Where requests go that are marked as a key exchange.
The guard takes a path for that of the exchange if both have the same segments; a router takes
it for the path of a route if it fits that, sign by sign. A path that only the guard takes for
that of the exchange may be the path of another route, whose work is then done for the request. -/
namespace KeyService

namespace Exchange

open Http.Pattern (Starless)

theorem Endpoint.accepts_starless {e : Endpoint} (starless : Starless e.pattern) {path : String} :
    e.accepts path = true ↔ segments path = segments e.pattern := by
  rw [accepts, matchSegments_iff]
  refine describes_plain fun s member => ?_
  rw [segments_eq] at member
  obtain ⟨piece, inside, rfl⟩ := List.mem_map.mp member
  have plain : '*' ∉ piece := fun asterisk =>
    starless (Http.Pattern.mem_of_mem_cuts (List.mem_filter.mp inside).1 asterisk)
  constructor <;> intro same <;> rw [← String.toList_inj, String.toList_ofList] at same <;>
    simp [same] at plain

end Exchange

namespace Router

/-- The paths of the routes that are not at paths of the operator's choice. -/
def fixedPaths : List String := ["/secure/echo", "/local/encrypt", "/local/decrypt", "/health"]

variable {path negotiationPath publicKeyPath : String} {route : Route}

theorem literal_of_fixed (fixed : path ∈ fixedPaths) : Http.Pattern.Literal path := by
  have all : ∀ path ∈ fixedPaths, Http.Pattern.Literal path := by decide
  exact all path fixed

theorem planned_cases (planned : (path, route) ∈ plan negotiationPath publicKeyPath) :
    path = negotiationPath ∧ route = .negotiate ∨ path = publicKeyPath ∧ route = .publicKey ∨
      path ∈ fixedPaths := by
  simp only [plan, List.mem_cons, Prod.mk.injEq, List.not_mem_nil, or_false] at planned
  rcases planned with chosen | chosen | ⟨rfl, -⟩ | ⟨rfl, -⟩ | ⟨rfl, -⟩ | ⟨rfl, -⟩
  · exact .inl chosen
  · exact .inr (.inl chosen)
  all_goals exact .inr (.inr (by decide))

theorem planned_of_fixed (fixed : path ∈ fixedPaths) : ∃ route, route ≠ .negotiate ∧
    (path, route) ∈ plan negotiationPath publicKeyPath := by
  simp only [fixedPaths, List.mem_cons, List.not_mem_nil, or_false] at fixed
  rcases fixed with rfl | rfl | rfl | rfl
  · exact ⟨.secureEcho, by decide, by simp [plan]⟩
  · exact ⟨.localEncrypt, by decide, by simp [plan]⟩
  · exact ⟨.localDecrypt, by decide, by simp [plan]⟩
  · exact ⟨.health, by decide, by simp [plan]⟩

end Router

namespace Config

open Http.Pattern (Starless)

theorem checkPath_ok {name value : String} : checkPath name value = .ok () ↔
    Text.startsWith value "/" = true ∧ Starless value := by
  unfold checkPath Starless
  split <;> simp_all

/-- All that the check asks for. -/
structure Checked (c : Config) : Prop where
  appId : checkGiven "APP_ID" c.appId = .ok ()
  localSecret : checkGiven "LOCAL_CRYPTO_SECRET" c.localSecret = .ok ()
  defaultPairId : checkGiven "DEFAULT_KEY_PAIR_ID" c.defaultPairId = .ok ()
  exchange : checkPath "NEGOTIATION_PATH" c.negotiationPath = .ok ()
  key : checkPath "PUBLIC_KEY_PATH" c.publicKeyPath = .ok ()
  differ : c.negotiationPath ≠ c.publicKeyPath
  session : checkPositive "SESSION_TTL_SECS" c.sessionSeconds = .ok ()
  timeout : checkPositive "NEGOTIATION_TIMEOUT_SECS" c.timeoutSeconds = .ok ()
  transport : ∃ a, c.transport = .ok a
  pairStore : checkStore c.pairStore "KEY_PAIR_STORE_PATH" c.pairStorePath = .ok ()
  recordStore : checkStore c.recordStore "CRYPTO_INFO_STORE_PATH" c.recordStorePath = .ok ()

theorem check_iff {c : Config} : c.check = .ok () ↔ c.Checked := by
  unfold check
  constructor
  · intro accepted
    obtain ⟨⟨⟩, appId, accepted⟩ := Attempt.bind_ok.mp accepted
    obtain ⟨⟨⟩, localSecret, accepted⟩ := Attempt.bind_ok.mp accepted
    obtain ⟨⟨⟩, defaultPairId, accepted⟩ := Attempt.bind_ok.mp accepted
    obtain ⟨⟨⟩, exchange, accepted⟩ := Attempt.bind_ok.mp accepted
    obtain ⟨⟨⟩, key, accepted⟩ := Attempt.bind_ok.mp accepted
    split at accepted
    · cases accepted
    · rename_i differ
      obtain ⟨⟨⟩, session, accepted⟩ := Attempt.bind_ok.mp accepted
      obtain ⟨⟨⟩, timeout, accepted⟩ := Attempt.bind_ok.mp accepted
      obtain ⟨a, transport, accepted⟩ := Attempt.bind_ok.mp accepted
      obtain ⟨⟨⟩, pairStore, recordStore⟩ := Attempt.bind_ok.mp accepted
      exact ⟨appId, localSecret, defaultPairId, exchange, key, differ, session, timeout,
        ⟨a, transport⟩, pairStore, recordStore⟩
  · rintro ⟨appId, localSecret, defaultPairId, exchange, key, differ, session, timeout,
      ⟨a, transport⟩, pairStore, recordStore⟩
    simp only [appId, localSecret, defaultPairId, exchange, key, differ, session, timeout, transport,
      pairStore, recordStore, Attempt.ok_bind, if_false]

theorem paths_of_check {c : Config} (accepted : c.check = .ok ()) :
    Starless c.negotiationPath ∧ Starless c.publicKeyPath ∧
      c.negotiationPath ≠ c.publicKeyPath := by
  have checked := check_iff.mp accepted
  exact ⟨(checkPath_ok.mp checked.exchange).2, (checkPath_ok.mp checked.key).2, checked.differ⟩

/-- No path that has the segments of the path of the exchange belongs to another route. -/
structure KeepsApart (c : Config) : Prop where
  fixed : ∀ path ∈ Router.fixedPaths,
    Exchange.segments path ≠ Exchange.segments c.negotiationPath
  publicKey : ∀ path pattern, Http.Pattern.parse? c.publicKeyPath = some pattern →
    pattern.fits path.toList = true → path ≠ c.negotiationPath →
    Exchange.segments path ≠ Exchange.segments c.negotiationPath

end Config

namespace Gateway

open Http (Pattern Request Response)
open Exchange (segments)

variable {S : Suite} {g : Gateway} {r : Request} {route : Route}

/-- The request says that it is a key exchange, whatever the value of the header is. -/
def Marked (r : Request) : Prop := (r.headers.find? exchangeHeader).isSome

variable (S) in
/-- The guard refuses the request. No handler sees it, and nothing is done. -/
structure Refused (g : Gateway) (r : Request) : Prop where
  undispatched : g.dispatch? r = none
  told : ∃ response, handle S g r = pure (response, g) ∧ response.status = 400 ∧
    (g.Headed r ∨ (Envelope.codec Json.Codec.text).parse response.body = .ok
      (.failure "bad_request" (exchangeHeader ++ " is only accepted on the negotiation endpoint")))

variable (S) in
/-- There is no route for the request, and nothing is done. -/
structure Unrouted (g : Gateway) (r : Request) : Prop where
  undispatched : g.dispatch? r = none
  told : ∃ response, handle S g r = pure (response, g) ∧
    (response.status = 404 ∨ response.status = 405)

theorem refused_of_stray (stray : g.isStray r = true) : Refused S g r := by
  obtain ⟨response, idle, status, -, whole⟩ := handle_of_stray (S := S) stray
  refine ⟨dispatch?_eq_none.mpr (.inl stray), response, idle, status, ?_⟩
  by_cases headed : g.Headed r
  · exact .inl headed
  · right
    rw [whole headed]
    exact Envelope.parse_failure _ _ _

theorem unrouted_of_inside (inside : g.isStray r = false) (undispatched : g.dispatch? r = none) :
    Unrouted S g r := by
  refine ⟨undispatched, ?_⟩
  rcases dispatch?_eq_none.mp undispatched with stray | ⟨-, missing | ⟨place, found, unrouted⟩⟩
  · rw [inside] at stray
    cases stray
  · exact ⟨_, handle_of_missing inside missing, .inl (coded_same r notFound).1⟩
  · exact ⟨_, handle_of_unrouted inside found unrouted, .inr (coded_same r (.bare 405)).1⟩

variable {responder : Exchange.Responder} {cipher : LocalText.Cipher}
  {negotiationPath publicKeyPath : String}

theorem isStray_of_marked
    (built : ofPaths responder cipher negotiationPath publicKeyPath = .ok g)
    (starless : Pattern.Starless negotiationPath) (marked : Marked r) :
    g.isStray r = true ↔ segments r.target.path ≠ segments negotiationPath := by
  obtain ⟨router, -, rfl⟩ := ofPaths_ok.mp built
  rw [isStray, marked, Bool.true_and, Bool.not_eq_true', ← Bool.not_eq_true]
  exact not_congr (Exchange.Endpoint.accepts_starless starless)

theorem planned_of_dispatch
    (built : ofPaths responder cipher negotiationPath publicKeyPath = .ok g)
    (reached : g.dispatch? r = some route) :
    ∃ place, g.router.find? r.target.path = some place ∧
      Pattern.parse? place.path = some place.pattern ∧
      place.pattern.fits r.target.path.toList = true ∧
      (place.path, route) ∈ Router.plan negotiationPath publicKeyPath := by
  obtain ⟨router, routes, rfl⟩ := ofPaths_ok.mp built
  obtain ⟨sound, has⟩ := Router.sound_build routes
  obtain ⟨-, place, found, routed⟩ := dispatch?_eq_some.mp reached
  obtain ⟨member, fits⟩ := Router.of_find? found
  exact ⟨place, found, sound.parsed place member, fits,
    (has _ _).mp ⟨place, member, rfl, List.mem_of_find?_eq_some routed⟩⟩

theorem eq_of_fixed {path : String} {pattern : Pattern} (fixed : path ∈ Router.fixedPaths)
    (parsed : Pattern.parse? path = some pattern) {other : String}
    (fits : pattern.fits other.toList = true) : other = path := by
  have literal := Router.literal_of_fixed fixed
  have spells := Pattern.spells_of_parse? literal.starless parsed
  exact String.toList_inj.mp (spells.eq_of_literal (fun colon => (literal _ colon).1 rfl) fits)

variable {c : Config}

/-- A request that the guard lets through exchanges keys, if it gets to any handler. -/
theorem negotiate_of_keepsApart (accepted : c.check = .ok ())
    (built : ofPaths responder cipher c.negotiationPath c.publicKeyPath = .ok g)
    (apart : c.KeepsApart) (same : segments r.target.path = segments c.negotiationPath)
    (reached : g.dispatch? r = some route) : route = .negotiate := by
  obtain ⟨starless, -, differ⟩ := Config.paths_of_check accepted
  obtain ⟨place, found, parsed, fits, planned⟩ := planned_of_dispatch built reached
  rcases Router.planned_cases planned with ⟨-, rfl⟩ | ⟨key, rfl⟩ | fixed
  · rfl
  · rw [key] at parsed
    by_cases path : r.target.path = c.negotiationPath
    · obtain ⟨router, routes, rfl⟩ := ofPaths_ok.mp built
      obtain ⟨sound, has⟩ := Router.sound_build routes
      obtain ⟨exchange, member, named, -⟩ :=
        (has c.negotiationPath .negotiate).mpr (List.mem_cons_self ..)
      rw [path, ← named, Router.find?_of_mem sound member (named ▸ starless)] at found
      obtain rfl := Option.some.inj found
      exact absurd (named.symm.trans key) differ
    · exact absurd same (apart.publicKey _ _ parsed fits path)
  · obtain path := eq_of_fixed fixed parsed fits
    exact absurd same (path ▸ apart.fixed _ fixed)

/-- A request that says nothing but that it is a key exchange. -/
def marking (method path : String) : Request :=
  ⟨method, ⟨path, none⟩, [(exchangeHeader, Bytes.ofText "true")], []⟩

theorem marked_marking (method path : String) : Marked (marking method path) := by
  rw [Marked, marking, Http.Headers.find?, List.find?_cons_of_pos (by decide)]
  rfl

theorem dispatch?_marking {path method : String} {place : Place}
    (built : ofPaths responder cipher negotiationPath publicKeyPath = .ok g)
    (starless : Pattern.Starless negotiationPath) (same : segments path = segments negotiationPath)
    (found : g.router.find? path = some place) (routed : place.route? method = some route) :
    g.dispatch? (marking method path) = some route := by
  refine dispatch?_eq_some.mpr ⟨?_, place, found, routed⟩
  rw [← Bool.not_eq_true, isStray_of_marked built starless (marked_marking method path)]
  exact not_not.mpr same

theorem keepsApart_of_negotiate (accepted : c.check = .ok ())
    (built : ofPaths responder cipher c.negotiationPath c.publicKeyPath = .ok g)
    (only : ∀ r, Marked r → ∀ route, g.dispatch? r = some route → route = .negotiate) :
    c.KeepsApart := by
  obtain ⟨starless, -, -⟩ := Config.paths_of_check accepted
  obtain ⟨router, routes, whole⟩ := ofPaths_ok.mp built
  obtain ⟨sound, has⟩ := Router.sound_build routes
  have routed : g.router = router := by rw [← whole]
  have fixed : ∀ path ∈ Router.fixedPaths, segments path ≠ segments c.negotiationPath := by
    intro path fixed same
    obtain ⟨route, other, planned⟩ := Router.planned_of_fixed fixed
    obtain ⟨method, takes⟩ : ∃ method, method ∈ route.methods := by
      cases route <;> exact ⟨_, List.mem_cons_self ..⟩
    obtain ⟨place, found, serves⟩ := Router.reaches sound ((has _ _).mpr planned)
      (Router.literal_of_fixed fixed).starless takes
    have reached := dispatch?_marking built starless same (routed ▸ found) serves
    exact other (only _ (marked_marking _ _) _ reached)
  refine ⟨fixed, fun path pattern parsed fits differ same => ?_⟩
  obtain ⟨key, member, named, serves⟩ := (has c.publicKeyPath .publicKey).mpr (by simp [Router.plan])
  have parsedKey := sound.parsed key member
  rw [named, parsed] at parsedKey
  obtain rfl := Option.some.inj parsedKey
  obtain ⟨place, found⟩ := Router.find?_of_fits member fits
  obtain ⟨inside, fits'⟩ := Router.of_find? found
  have parsed' := sound.parsed place inside
  obtain ⟨route, serves'⟩ := sound.serves place inside
  rcases Router.planned_cases ((has _ _).mp ⟨place, inside, rfl, serves'⟩) with
    ⟨exchange, -⟩ | ⟨key', rfl⟩ | fixed'
  · have spells := Pattern.spells_of_parse? (exchange ▸ starless) parsed'
    have equal := spells.eq_of_segments fits' (exchange ▸ Exchange.segments_inj.mp same.symm)
    exact differ ((String.toList_inj.mp equal).trans exchange)
  · have routed' := Place.route?_of_mem (sound.single place inside) serves' (List.mem_cons_self ..)
    have reached := dispatch?_marking built starless same (routed ▸ found) routed'
    exact absurd (only _ (marked_marking _ _) _ reached) (by decide)
  · exact fixed _ fixed' (eq_of_fixed fixed' parsed' fits' ▸ same)

/-- A marked request is refused if its path has other segments than that of the exchange. The
others get to no handler but that of the exchange exactly if the settings keep its path apart. -/
theorem marked_confined_iff (accepted : c.check = .ok ())
    (built : ofPaths responder cipher c.negotiationPath c.publicKeyPath = .ok g) :
    (∀ r, Marked r → segments r.target.path ≠ segments c.negotiationPath → Refused S g r) ∧
      ((∀ r, Marked r → Refused S g r ∨ g.dispatch? r = some .negotiate ∨ Unrouted S g r) ↔
        c.KeepsApart) := by
  obtain ⟨starless, -, -⟩ := Config.paths_of_check accepted
  have refused : ∀ r, Marked r → segments r.target.path ≠ segments c.negotiationPath →
      Refused S g r := fun r marked other =>
    refused_of_stray ((isStray_of_marked built starless marked).mpr other)
  refine ⟨refused, fun confined => ?_, fun apart r marked => ?_⟩
  · refine keepsApart_of_negotiate accepted built fun r marked route reached => ?_
    rcases confined r marked with stopped | exchanged | lost
    · exact nomatch reached.symm.trans stopped.undispatched
    · exact Option.some.inj (reached.symm.trans exchanged)
    · exact nomatch reached.symm.trans lost.undispatched
  · by_cases same : segments r.target.path = segments c.negotiationPath
    · cases reached : g.dispatch? r with
      | none =>
        refine .inr (.inr (unrouted_of_inside ?_ reached))
        rw [← Bool.not_eq_true, isStray_of_marked built starless marked]
        exact not_not.mpr same
      | some route =>
        obtain rfl := negotiate_of_keepsApart accepted built apart same reached
        exact .inr (.inl rfl)
    · exact .inl (refused r marked same)

/-- The usual settings, but for the paths. -/
def settings (negotiationPath publicKeyPath : String) : Config where
  appId := "app"
  localSecret := "secret"
  port := 8080
  negotiationPath := negotiationPath
  publicKeyPath := publicKeyPath
  sessionSeconds := 1800
  skewSeconds := 300
  transportName := "AES/CBC/PKCS5Padding"
  transportBits := 256
  defaultPairId := "default"
  pairStore := .memory
  pairStorePath := none
  recordStore := .memory
  recordStorePath := none
  peerUrl := none
  timeoutSeconds := 10
  logLevel := "info"
  tracesUrl := none

theorem keepsApart_usual : (settings "/security/negotiate" "/security/publicKey").KeepsApart := by
  refine ⟨by decide, fun path pattern parsed fits differ => ?_⟩
  have literal : Pattern.Literal "/security/publicKey" := by decide
  have spells := Pattern.spells_of_parse? literal.starless parsed
  obtain rfl := String.toList_inj.mp (spells.eq_of_literal (by decide) fits)
  decide

theorem marked_confined_usual : ∃ (c : Config) (g : Gateway), c.check = .ok () ∧
    ofPaths Exchange.Small.responder (.ofSchemes "app" [] []) c.negotiationPath c.publicKeyPath =
      .ok g ∧ ∀ r, Marked r → Refused Suite.small g r ∨ g.dispatch? r = some .negotiate ∨
        Unrouted Suite.small g r := by
  let c := settings "/security/negotiate" "/security/publicKey"
  have accepted : c.check = .ok () := by decide
  obtain ⟨g, built⟩ := ofPaths_of_isOk Exchange.Small.responder (.ofSchemes "app" [] [])
    (show (Router.build c.negotiationPath c.publicKeyPath).isOk = true by decide)
  exact ⟨c, g, accepted, built, (marked_confined_iff accepted built).2.mpr keepsApart_usual⟩

/-- With a slash at its end, the path of the exchange may be that of the public key. -/
theorem marked_escapes : ∃ (c : Config) (g : Gateway) (r : Request), c.check = .ok () ∧
    ofPaths Exchange.Small.responder (.ofSchemes "app" [] []) c.negotiationPath c.publicKeyPath =
      .ok g ∧ Marked r ∧ g.dispatch? r = some .publicKey ∧
      ¬ (Refused Suite.small g r ∨ g.dispatch? r = some .negotiate ∨ Unrouted Suite.small g r) := by
  let c := settings "/exchange" "/exchange/"
  have accepted : c.check = .ok () := by decide
  obtain ⟨starless, starless', -⟩ := Config.paths_of_check accepted
  obtain ⟨g, built⟩ := ofPaths_of_isOk Exchange.Small.responder (.ofSchemes "app" [] [])
    (show (Router.build c.negotiationPath c.publicKeyPath).isOk = true by decide)
  obtain ⟨router, routes, rfl⟩ := ofPaths_ok.mp built
  obtain ⟨sound, has⟩ := Router.sound_build routes
  obtain ⟨place, found, routed⟩ := Router.reaches sound
    ((has c.publicKeyPath .publicKey).mpr (by simp [Router.plan])) starless' (List.mem_cons_self ..)
  have same : segments c.publicKeyPath = segments c.negotiationPath := by decide
  have reached := dispatch?_marking built starless same found routed
  refine ⟨c, _, _, accepted, built, marked_marking _ _, reached, ?_⟩
  rintro (stopped | exchanged | lost)
  · cases reached.symm.trans stopped.undispatched
  · cases reached.symm.trans exchanged
  · cases reached.symm.trans lost.undispatched

end Gateway

end KeyService
