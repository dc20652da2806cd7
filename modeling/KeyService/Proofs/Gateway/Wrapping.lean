import KeyService.Proofs.Exchange.Agreement
import KeyService.Proofs.Gateway.Connection
import KeyService.Proofs.Gateway.Handlers

/-! Which answers are envelopes.
What a handler makes of a request is an envelope, whatever comes of it, and so is a refusal by
the guard. What never gets to a handler's own work is not: the content or the query of a request
may be illegible, a place may not take its method, and HEAD is answered by the head alone. -/
namespace KeyService

/-- The document of an envelope whose data are a document themselves. -/
def Envelope.document (e : Envelope Json) : Bytes :=
  Bytes.ofText (Json.object ([("code", .text e.code), ("msg", .text e.msg)]
    ++ Json.optionalMember "data" e.data)).print

theorem Envelope.ne_document (e : Envelope Json) {text : String}
    (other : text.toList.head? ≠ some '\x7b') : Bytes.ofText text ≠ e.document := by
  intro same
  refine other ?_
  rw [Bytes.ofText_inj same, Json.print, String.toList_ofList, List.cons_append, Json.chars_object]
  rfl

namespace Gateway

open Http (Request Response)

variable {S : Suite} {g g' : Gateway} {r : Request} {route : Route} {events : List Event}
  {response : Response}

/-- The response is an envelope: of success with status 200, and from the health route; else of one
of the errors of the service, without data, and with the status of that error. -/
structure Enveloped (route : Option Route) (response : Response) : Prop where
  told : ∃ e : Envelope Json, response.body = e.document ∧
    ((response.status = 200 ∨ route = some .health) → e.code = Envelope.successCode) ∧
    (¬ (response.status = 200 ∨ route = some .health) → e.data = none ∧
      ∃ cause : ServiceError, e.code = cause.code ∧ response.status = cause.status)

/-- What a handler takes of a request cannot be made out. -/
def Illegible (r : Request) : Route → Prop
  | .publicKey => ∃ u, namedPair r = .error u
  | .secureEcho | .localEncrypt | .localDecrypt => ∃ u, contentText r = .error u
  | .negotiate | .health => False

/-- Requests whose answers are made before a handler does its work, or are not sent whole. -/
inductive Unwrapped (g : Gateway) (r : Request) : Prop where
  | head : g.Headed r → Unwrapped g r
  | method {place : Place} : g.isStray r = false → g.router.find? r.target.path = some place →
      place.route? r.method = none → Unwrapped g r
  | illegible {route : Route} : g.dispatch? r = some route → Illegible r route → Unwrapped g r

variable {α : Type}

theorem enveloped_of_same {response' : Response} (status : response'.status = response.status)
    (body : response'.body = response.body) {route : Option Route} :
    Enveloped route response' ↔ Enveloped route response := by
  constructor <;> rintro ⟨e, same, good, bad⟩
  · exact ⟨e, body ▸ same, status ▸ good, status ▸ bad⟩
  · exact ⟨e, body.trans same, status ▸ good, status ▸ bad⟩

theorem not_enveloped_text {route : Option Route} {text : String}
    (same : response.body = Bytes.ofText text) (other : text.toList.head? ≠ some '\x7b') :
    ¬ Enveloped route response := by
  rintro ⟨e, body, -⟩
  exact e.ne_document other (same.symm.trans body)

theorem not_enveloped_nil {route : Option Route} (empty : response.body = []) :
    ¬ Enveloped route response :=
  @not_enveloped_text _ _ "" empty (by decide)

theorem enveloped_refusal (e : ServiceError) (text : String) {route : Option Route}
    (other : route ≠ some .health) : Enveloped route (refusal e.status e.code text) := by
  refine ⟨⟨e.code, text, none⟩, rfl, ?_, fun _ => ⟨rfl, e, rfl, rfl⟩⟩
  rintro (ok | health)
  · exact absurd ok e.status_ne_ok
  · exact absurd health other

theorem enveloped_success (c : Json.Codec α) (status : Nat) (data : α) {route : Option Route}
    (good : status = 200 ∨ route = some .health) :
    Enveloped route (envelope c status (.success data)) :=
  ⟨⟨_, "success", some (c.write data)⟩, rfl, fun _ => rfl, fun bad => absurd good bad⟩

theorem enveloped_answer (c : Json.Codec α) (x : Except Failure α) {route : Option Route}
    (other : route ≠ some .health) : Enveloped route (answer c x) := by
  cases x with
  | ok data => exact enveloped_success c 200 data (.inl rfl)
  | error e => exact enveloped_refusal e.service e.service.message other

theorem contentText_error {u : Unread} (illegible : contentText r = .error u) :
    u.text.toList.head? ≠ some '\x7b' := by
  unfold contentText content at illegible
  split at illegible
  · obtain rfl := Except.error.inj illegible
    decide
  · rw [Attempt.ok_bind] at illegible
    split at illegible
    · cases illegible
    · obtain rfl := Except.error.inj illegible
      have first : "Request body didn't contain valid UTF-8: ".toList.head? = some 'R' := by decide
      rw [String.toList_append, List.head?_append, first, Option.some_or]
      decide

theorem namedPair_error {u : Unread} (illegible : namedPair r = .error u) :
    u.text.toList.head? ≠ some '\x7b' := by
  unfold namedPair at illegible
  split at illegible
  · cases illegible
  · cases illegible
  · obtain rfl := Except.error.inj illegible
    decide

theorem illegible_unwrapped {route : Route} {u : Unread} {found : Option Route}
    (illegible : Illegible r route) (plain : u.text.toList.head? ≠ some '\x7b') :
    Enveloped found u.response ↔ ¬ Illegible r route :=
  iff_of_false (not_enveloped_text rfl plain) (not_not.mpr illegible)

theorem legible_wrapped {route : Route} {found : Option Route} (wrapped : Enveloped found response)
    (legible : ¬ Illegible r route) : Enveloped found response ↔ ¬ Illegible r route :=
  iff_of_true wrapped legible

theorem publicKey_enveloped_iff {e : Engine} (given : (publicKey S e r).Gives events response) :
    Enveloped (some .publicKey) response ↔ ¬ Illegible r .publicKey := by
  unfold publicKey at given
  split at given
  · rename_i u illegible
    obtain ⟨-, rfl⟩ := Program.gives_pure.mp given
    exact illegible_unwrapped ⟨u, illegible⟩ (namedPair_error illegible)
  · rename_i id named
    obtain ⟨result, -, rfl⟩ := Program.gives_bind_pure.mp given
    exact legible_wrapped (enveloped_answer _ _ nofun) (Attempt.not_error_of_ok named)

theorem negotiate_enveloped {responder : Exchange.Responder}
    (given : (negotiate S responder r).Gives events response) :
    Enveloped (some .negotiate) response := by
  unfold negotiate at given
  split at given
  · obtain ⟨-, rfl⟩ := Program.gives_pure.mp given
    exact enveloped_refusal _ _ nofun
  · obtain ⟨result, -, rfl⟩ := Program.gives_bind_pure.mp given
    exact enveloped_answer _ _ nofun

theorem header_enveloped {name : String} {refused : Response} {route : Option Route}
    (missing : header r name = .error refused) (other : route ≠ some .health) :
    Enveloped route refused := by
  unfold header at missing
  split at missing
  · obtain rfl := Except.error.inj missing
    exact enveloped_refusal _ _ other
  · split at missing
    · cases missing
    · obtain rfl := Except.error.inj missing
      exact enveloped_refusal _ _ other

theorem secureEcho_enveloped_iff (given : (secureEcho S r).Gives events response) :
    Enveloped (some .secureEcho) response ↔ ¬ Illegible r .secureEcho := by
  unfold secureEcho at given
  split at given
  · rename_i u illegible
    obtain ⟨-, rfl⟩ := Program.gives_pure.mp given
    exact illegible_unwrapped ⟨u, illegible⟩ (contentText_error illegible)
  · rename_i payload legible
    refine legible_wrapped ?_ (Attempt.not_error_of_ok legible)
    split at given
    · rename_i missing
      obtain ⟨-, rfl⟩ := Program.gives_pure.mp given
      exact header_enveloped missing nofun
    · rename_i missing _
      obtain ⟨-, rfl⟩ := Program.gives_pure.mp given
      exact header_enveloped missing nofun
    · obtain ⟨result, _, _, -, -, answered⟩ := Program.gives_bind.mp given
      split at answered
      · rename_i reply
        obtain ⟨-, rfl⟩ := Program.gives_pure.mp answered
        have wrapped : Enveloped (some .secureEcho) (success Json.Codec.text reply) :=
          enveloped_success _ _ _ (.inl rfl)
        exact (enveloped_of_same (by rfl) (by rfl)).mpr wrapped
      · obtain ⟨-, rfl⟩ := Program.gives_pure.mp answered
        exact enveloped_refusal _ _ nofun

theorem localEncrypt_enveloped_iff {cipher cipher' : LocalText.Cipher}
    (given : (localEncrypt S cipher r).Gives events (response, cipher')) :
    Enveloped (some .localEncrypt) response ↔ ¬ Illegible r .localEncrypt := by
  unfold localEncrypt at given
  split at given
  · rename_i u illegible
    obtain ⟨-, same⟩ := Program.gives_pure.mp given
    obtain ⟨rfl, -⟩ := Prod.mk.inj same
    exact illegible_unwrapped ⟨u, illegible⟩ (contentText_error illegible)
  · rename_i text legible
    obtain ⟨⟨whole, _⟩, -, same⟩ := Program.gives_bind_pure.mp given
    obtain ⟨rfl, -⟩ := Prod.mk.inj same
    exact legible_wrapped (enveloped_answer _ _ nofun) (Attempt.not_error_of_ok legible)

theorem localDecrypt_enveloped_iff {cipher cipher' : LocalText.Cipher}
    (given : (localDecrypt S cipher r).Gives events (response, cipher')) :
    Enveloped (some .localDecrypt) response ↔ ¬ Illegible r .localDecrypt := by
  unfold localDecrypt at given
  split at given
  · rename_i u illegible
    obtain ⟨-, same⟩ := Program.gives_pure.mp given
    obtain ⟨rfl, -⟩ := Prod.mk.inj same
    exact illegible_unwrapped ⟨u, illegible⟩ (contentText_error illegible)
  · rename_i whole legible
    obtain ⟨⟨text, _⟩, -, same⟩ := Program.gives_bind_pure.mp given
    obtain ⟨rfl, -⟩ := Prod.mk.inj same
    exact legible_wrapped (enveloped_answer _ _ nofun) (Attempt.not_error_of_ok legible)

theorem health_enveloped {e : Engine} {cipher : LocalText.Cipher}
    (given : (health e cipher).Gives events response) : Enveloped (some .health) response := by
  obtain ⟨there, _, _, -, -, rest⟩ := Program.gives_bind.mp given
  obtain ⟨count, -, rfl⟩ := Program.gives_bind_pure.mp rest
  exact enveloped_success _ _ _ (.inr rfl)

/-- A handler answers with an envelope, if it can make out what it takes of the request. -/
theorem serve_enveloped_iff (given : (serve S g r route).Gives events (response, g')) :
    Enveloped (some route) response ↔ ¬ Illegible r route := by
  cases route with
  | negotiate =>
    obtain ⟨_, served, same⟩ := Program.gives_bind_pure.mp given
    obtain ⟨rfl, -⟩ := Prod.mk.inj same
    exact legible_wrapped (negotiate_enveloped served) not_false
  | publicKey =>
    obtain ⟨_, served, same⟩ := Program.gives_bind_pure.mp given
    obtain ⟨rfl, -⟩ := Prod.mk.inj same
    exact publicKey_enveloped_iff served
  | secureEcho =>
    obtain ⟨_, served, same⟩ := Program.gives_bind_pure.mp given
    obtain ⟨rfl, -⟩ := Prod.mk.inj same
    exact secureEcho_enveloped_iff served
  | localEncrypt =>
    obtain ⟨⟨_, _⟩, served, same⟩ := Program.gives_bind_pure.mp given
    obtain ⟨rfl, -⟩ := Prod.mk.inj same
    exact localEncrypt_enveloped_iff served
  | localDecrypt =>
    obtain ⟨⟨_, _⟩, served, same⟩ := Program.gives_bind_pure.mp given
    obtain ⟨rfl, -⟩ := Prod.mk.inj same
    exact localDecrypt_enveloped_iff served
  | health =>
    obtain ⟨_, served, same⟩ := Program.gives_bind_pure.mp given
    obtain ⟨rfl, -⟩ := Prod.mk.inj same
    exact legible_wrapped (health_enveloped served) not_false

theorem undispatched_enveloped_iff (unreached : g.dispatch? r = none)
    (given : (handle S g r).Gives events (response, g')) :
    Enveloped none response ↔ ¬ Unwrapped g r := by
  rcases dispatch?_eq_none.mp unreached with stray | ⟨inside, missing | ⟨place, found, unrouted⟩⟩
  · obtain ⟨refused, idle, status, headed, whole⟩ := handle_of_stray (S := S) stray
    rw [idle] at given
    obtain ⟨-, same⟩ := Program.gives_pure.mp given
    obtain ⟨rfl, -⟩ := Prod.mk.inj same
    by_cases head : g.Headed r
    · exact iff_of_false (not_enveloped_nil (headed head)) (not_not.mpr (.head head))
    · refine iff_of_true ((enveloped_of_same status (whole head)).mpr ?_) ?_
      · exact enveloped_refusal (.badRequest "") _ nofun
      · rintro (headed | ⟨inside, -, -⟩ | ⟨reached, -⟩)
        · exact head headed
        · exact nomatch stray.symm.trans inside
        · exact nomatch unreached.symm.trans reached
  · rw [handle_of_missing inside missing] at given
    obtain ⟨-, same⟩ := Program.gives_pure.mp given
    obtain ⟨rfl, -⟩ := Prod.mk.inj same
    have parts := coded_same r notFound
    refine iff_of_true ((enveloped_of_same parts.1 parts.2).mpr ?_) ?_
    · exact enveloped_refusal (.notFound "the requested resource does not exist") _ nofun
    · rintro (⟨-, place, found, -⟩ | ⟨-, found, -⟩ | ⟨reached, -⟩)
      · exact nomatch missing.symm.trans found
      · exact nomatch missing.symm.trans found
      · exact nomatch unreached.symm.trans reached
  · rw [handle_of_unrouted inside found unrouted] at given
    obtain ⟨-, same⟩ := Program.gives_pure.mp given
    obtain ⟨rfl, -⟩ := Prod.mk.inj same
    have empty : ((coded r (.bare 405)).withHeader "allow" place.allowed).body = [] :=
      (coded_same r (.bare 405)).2
    exact iff_of_false (not_enveloped_nil empty) (not_not.mpr (.method inside found unrouted))

/-- The answer to a request is an envelope, unless the request is illegible to its handler, its
place does not take its method, or it asks for the head of an answer only. -/
theorem enveloped_iff (given : (handle S g r).Gives events (response, g')) :
    Enveloped (g.dispatch? r) response ↔ ¬ Unwrapped g r := by
  cases reached : g.dispatch? r with
  | none => exact undispatched_enveloped_iff reached given
  | some route =>
    obtain ⟨inner, served, rfl⟩ := (gives_handle reached).mp given
    have handler := serve_enveloped_iff served
    have unwrapped : Unwrapped g r ↔ r.method = "HEAD" ∨ Illegible r route := by
      constructor
      · rintro (headed | ⟨inside, found, unrouted⟩ | ⟨reached', illegible⟩)
        · exact .inl headed.1
        · obtain ⟨-, place, found', routed⟩ := dispatch?_eq_some.mp reached
          obtain rfl := Option.some.inj (found.symm.trans found')
          exact nomatch unrouted.symm.trans routed
        · obtain rfl := Option.some.inj (reached.symm.trans reached')
          exact .inr illegible
      · rintro (head | illegible)
        · exact .head ((headed_of_dispatch reached).mpr head)
        · exact .illegible reached illegible
    rw [unwrapped]
    by_cases head : r.method = "HEAD"
    · rw [presented, if_pos head]
      exact iff_of_false (not_enveloped_nil rfl) (not_not.mpr (.inl head))
    · rw [presented, if_neg head, enveloped_of_same (coded_same r inner).1 (coded_same r inner).2,
        handler, or_iff_right head]

theorem gives_health_missing (e : Engine) (cipher : LocalText.Cipher) :
    (health e cipher).Gives
      [⟨.findPair e.defaultId, .error (.missing e.defaultId)⟩, ⟨.countSessions, (0 : Nat)⟩]
      (envelope Health.codec (if cipher.isReady && false then 200 else 503) (.success
        ⟨if cipher.isReady && false then "ok" else "degraded", cipher.isReady, false, 0⟩)) := by
  have has : (e.has none).run.Gives
      [⟨.findPair e.defaultId, .error (.missing e.defaultId)⟩] (.ok false) :=
    Program.gives_bind.mpr ⟨_, _, [], rfl, Program.gives_getPair.mpr rfl,
      Program.gives_pure.mpr ⟨rfl, rfl⟩⟩
  refine Program.gives_bind.mpr ⟨_, _, _, rfl, has, ?_⟩
  exact Program.gives_bind_pure.mpr ⟨_, Program.gives_put.mpr rfl, rfl⟩

/-- Without a pair the gateway is not well, which it tells in an envelope of success. -/
theorem enveloped_iff_health : ∃ (g : Gateway) (r : Request) (events : List Event)
    (response : Response), (handle Suite.small g r).Gives events (response, g) ∧
      response.status = 503 ∧ Enveloped (g.dispatch? r) response := by
  obtain ⟨g, built⟩ := ofPaths_small Exchange.Small.responder (.ofSchemes "app" [] [])
  let r : Request := ⟨"GET", ⟨"/health", none⟩, [], []⟩
  have reached : g.dispatch? r = some .health :=
    dispatch?_of_planned built (by simp [Router.plan, r]) (by decide) (List.mem_singleton_self _)
      (.inl rfl)
  have served : (serve Suite.small g r .health).Gives _ (_, g) :=
    Program.gives_bind_pure.mpr ⟨_, gives_health_missing g.engine g.cipher, rfl⟩
  have given := (gives_handle reached).mpr ⟨_, served, rfl⟩
  have wrapped : ¬ Unwrapped g r := by
    rintro (⟨head, -⟩ | ⟨-, found, unrouted⟩ | ⟨reached', illegible⟩)
    · exact absurd head (by decide)
    · obtain ⟨-, place, found', routed⟩ := dispatch?_eq_some.mp reached
      obtain rfl := Option.some.inj (found.symm.trans found')
      cases unrouted.symm.trans routed
    · obtain rfl := Option.some.inj (reached.symm.trans reached')
      exact illegible
  refine ⟨g, r, _, _, given, ?_, (enveloped_iff given).mpr wrapped⟩
  rw [status_presented]
  simp [envelope, Http.Response.ofText]

/-- A text that is no UTF-8 is refused in plain text. -/
theorem unwrapped_encrypt : ∃ (g : Gateway) (r : Request) (response : Response),
    (handle Suite.small g r).Gives [] (response, g) ∧ response.status = 400 ∧
      ¬ Enveloped (g.dispatch? r) response := by
  obtain ⟨g, built⟩ := ofPaths_small Exchange.Small.responder (.ofSchemes "app" [] [])
  let r : Request := ⟨"POST", ⟨"/local/encrypt", none⟩, [], [0xFF]⟩
  have reached : g.dispatch? r = some .localEncrypt :=
    dispatch?_of_planned built (by simp [Router.plan, r]) (by decide) (List.mem_singleton_self _)
      (.inl rfl)
  have refused : (contentText r).mapError Unread.status = .error 400 := by decide
  cases illegible : contentText r with
  | ok text =>
    rw [illegible] at refused
    cases refused
  | error u =>
    rw [illegible] at refused
    have served : (serve Suite.small g r .localEncrypt).Gives [] (u.response, g) := by
      simp only [serve, localEncrypt, illegible, pure_bind]
      exact .refl _
    have sent := presented_of_plain (r := r) rfl (by decide) u.response
    exact ⟨g, r, u.response, (gives_handle reached).mpr ⟨_, served, sent⟩, Except.error.inj refused,
      not_enveloped_text rfl (contentText_error illegible)⟩

end Gateway

end KeyService
