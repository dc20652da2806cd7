import KeyService.Proofs.Exchange.Completion
import KeyService.Proofs.Exchange.Message
import KeyService.Proofs.Gateway.Connection
import KeyService.Proofs.Gateway.Envelope

/-! A key exchange over HTTP is the one in process.
The caller and the gateway write and read each other's messages and add nothing of their
own: the caller's program, with the connection and the gateway at its other end, asks just
what the responder asks, and ends with what the responder ends with. -/
namespace KeyService

namespace Gateway

open Http (Headers Uri)

variable {S : Suite} {g : Gateway} {responder : Exchange.Responder} {cipher : LocalText.Cipher}
  {negotiationPath publicKeyPath base : String} {added : Headers}

/-- What a caller is told of a failure on the other side. -/
def rejection (e : Failure) : Exchange.Error := .rejected e.service.code e.service.message

theorem find?_exchangeCall (url : String) (request : Exchange.Request) :
    (Client.exchangeCall url request).headers.find? "content-type" =
      some (Bytes.ofText "application/json") := rfl

theorem body_exchangeCall (url : String) (request : Exchange.Request) :
    (Client.exchangeCall url request).body =
      Bytes.ofText (Exchange.Request.codec.print request) := by
  simp only [Client.exchangeCall]

theorem saysJson_of_find? {r : Http.Request}
    (found : r.headers.find? "content-type" = some (Bytes.ofText "application/json")) :
    saysJson r = true := by
  have text : Headers.text? (Bytes.ofText "application/json") = some "application/json" := by decide
  have type : Http.MediaType.parse? "application/json" = some ⟨"application", "json", none⟩ := by decide
  simp only [saysJson, found, Option.bind_some, text, type]
  rfl

theorem contentJson_exchangeCall {target : Uri} {url : String} {request : Exchange.Request}
    (fits : (Bytes.ofText (Exchange.Request.codec.print request)).length ≤ maxContent) :
    contentJson Exchange.Request.codec
      (delivered (Client.exchangeCall url request) target added) = .ok request := by
  have json : saysJson (delivered (Client.exchangeCall url request) target added) = true := by
    refine saysJson_of_find? ?_
    rw [delivered, Headers.find?_append, find?_exchangeCall]
    rfl
  have whole : content (delivered (Client.exchangeCall url request) target added) =
      .ok (Bytes.ofText (Exchange.Request.codec.print request)) := by
    rw [content, body_delivered, body_exchangeCall, if_neg (Nat.not_lt.mpr fits)]
  have read := Exchange.Request.read_print request
  simp only [contentJson, json, whole, read, Bool.not_true, Bool.false_eq_true, if_false, bind,
    Except.bind]
  rfl

variable (built : ofPaths responder cipher negotiationPath publicKeyPath = .ok g)
  (plain : Plain added)

include built plain

theorem exchange_eq (addressed : Addressed negotiationPath) {request : Exchange.Request}
    (fits : (Bytes.ofText (Exchange.Request.codec.print request)).length ≤ maxContent) :
    Client.exchange (connection S g base added) (base ++ negotiationPath) request = do
      let result ← (responder.respond S request).run
      return result.mapError fun e => rejection (.exchange e) := by
  obtain ⟨router, routes, rfl⟩ := ofPaths_ok.mp built
  let call := Client.exchangeCall (base ++ negotiationPath) request
  have planned : (negotiationPath, Route.negotiate) ∈ Router.plan negotiationPath publicKeyPath :=
    List.mem_cons_self ..
  have takes : call.method ∈ Route.negotiate.methods := List.mem_singleton_self _
  have reached := connection_of_route (S := S) built planned addressed plain (rfl : call.url = _)
    takes rfl (.inr rfl)
  have read : contentJson Exchange.Request.codec
      (delivered call ⟨negotiationPath, none⟩ added) = .ok request := contentJson_exchangeCall fits
  rw [Client.exchange, Client.send, reached]
  simp only [serve, negotiate, read, ofExchange, bind_assoc, pure_bind,
    Client.readEnvelope_answer Exchange.Response.codec_lossless]
  refine bind_congr fun result => ?_
  cases result <;> rfl

theorem fetchKey_eq (addressed : Addressed publicKeyPath) :
    Client.fetchKey (connection S g base added) (base ++ publicKeyPath) = do
      let result ← (responder.engine.publicKey S none).run
      return result.mapError fun e => rejection (.engine e) := by
  obtain ⟨router, routes, rfl⟩ := ofPaths_ok.mp built
  let call : Call := ⟨"GET", base ++ publicKeyPath, [], []⟩
  have planned : (publicKeyPath, Route.publicKey) ∈ Router.plan negotiationPath publicKeyPath :=
    List.mem_cons_of_mem _ (List.mem_cons_self ..)
  have takes : call.method ∈ Route.publicKey.methods := List.mem_cons_self ..
  have reached := connection_of_route (S := S) built planned addressed plain (rfl : call.url = _)
    takes rfl (.inl rfl)
  have unnamed : namedPair (delivered call ⟨publicKeyPath, none⟩ added) = .ok none := by
    have empty : Http.Form.pairs "" = [] := by decide
    simp only [namedPair, delivered, Option.getD_none, empty, List.filter_nil]
  rw [Client.fetchKey, Client.send, reached]
  simp only [serve, publicKey, unnamed, bind_assoc, pure_bind,
    Client.readEnvelope_answer Json.Codec.text_lossless]
  refine bind_congr fun result => ?_
  cases result <;> rfl

omit built plain

/-- Two ends of the same work: the same state is left, a success is handed on as it is, and a failure
is told as `tell` says. -/
structure Mirrors {σ ε ε' α : Type} (tell : ε → ε') (inside : Except ε α × σ)
    (outside : Except ε' α × σ) : Prop where
  state : outside.2 = inside.2
  success : ∀ a, outside.1 = .ok a ↔ inside.1 = .ok a
  failure : ∀ e, inside.1 = .error e → outside.1 = .error (tell e)

theorem mirrors_mapError {σ ε ε' α : Type} (work : Program (Except ε α)) (tell : ε → ε')
    (w : Surroundings (StateM σ)) (s : σ) :
    Mirrors tell (work.run w s)
      ((do let result ← work; return result.mapError tell : Program (Except ε' α)).run w s) := by
  have parts : (do let result ← work; return result.mapError tell : Program (Except ε' α)).run w s =
      (((work.run w s).1).mapError tell, (work.run w s).2) :=
    congrFun (Program.run_bind w work fun result => pure (result.mapError tell)) s
  rw [parts]
  refine ⟨rfl, fun a => Attempt.mapError_ok, fun e failed => ?_⟩
  rw [failed]
  rfl

/-- Whatever stores, clock and random bytes there are, a key exchange over HTTP gives the response
that the responder gives in process and leaves the same state behind, and a failure is told with
the code and the text that it has for callers. So it is for the default public key. -/
theorem negotiation_over_http
    (built : ofPaths responder cipher negotiationPath publicKeyPath = .ok g)
    (exchanging : Addressed negotiationPath) (telling : Addressed publicKeyPath)
    (plain : Plain added) {σ : Type} (w : Surroundings (StateM σ)) (s : σ) :
    (∀ request, (Bytes.ofText (Exchange.Request.codec.print request)).length ≤ maxContent →
      Mirrors (fun e => rejection (.exchange e)) ((responder.respond S request).run.run w s)
        ((Client.exchange (connection S g base added) (base ++ negotiationPath) request).run w s)) ∧
    Mirrors (fun e => rejection (.engine e)) ((responder.engine.publicKey S none).run.run w s)
      ((Client.fetchKey (connection S g base added) (base ++ publicKeyPath)).run w s) := by
  constructor
  · intro request fits
    rw [exchange_eq built plain exchanging fits]
    exact mirrors_mapError _ _ w s
  · rw [fetchKey_eq built plain telling]
    exact mirrors_mapError _ _ w s

section

open Exchange (Host Initiator)
open Exchange.Small (chance initiator pair seed token)

theorem fits_small {p : Exchange.Pending Suite.small} (made : p.request.timestamp = 0)
    (prepared : Initiator.Prepared Suite.small initiator "/exchange" (pair 3).publicKey none
      [⟨.random 48, seed⟩, ⟨.random Exchange.tokenLength, token⟩, ⟨.now, 0⟩] p seed token) :
    (Bytes.ofText (Exchange.Request.codec.print p.request)).length ≤ maxContent := by
  have same : p.request = ⟨Engine.curvePublicText Suite.small (Suite.small.curve.publicOf (4 : UInt8)),
      Exchange.kindName, initiator.algorithm.size.bits, initiator.algorithm.name,
      Base64.standard.encode token.val, 0, none⟩ := by
    obtain ⟨⟨publicKey, kind, keyLength, algorithm, text, timestamp, id⟩, responder, key, iv⟩ := p
    obtain rfl : timestamp = 0 := made
    obtain ⟨-, -, -, -, rfl, rfl, rfl, rfl, rfl, rfl⟩ := prepared
    rfl
  rw [same]
  decide +kernel

/-- A request that the responder accepts, over a connection that names the host. -/
theorem negotiation_over_http_small : ∃ (g : Gateway) (request : Exchange.Request)
    (response : Exchange.Response) (s s' : Host (Table String KeyPair)),
    ofPaths Exchange.Small.responder (.ofSchemes "app" [] (LocalText.Scheme.standard Suite.small))
      "/exchange" "/key" = .ok g ∧
    (Exchange.Small.responder.respond Suite.small request).run.run
      (Host.alone KeyPair.Backend.memory chance) s = (.ok response, s') ∧
    (Client.exchange (connection Suite.small g "http://gateway" [("host", Bytes.ofText "gateway")])
      ("http://gateway" ++ "/exchange") request).run (Host.alone KeyPair.Backend.memory chance) s =
        (.ok response, s') := by
  obtain ⟨g, built⟩ := ofPaths_small Exchange.Small.responder
    (.ofSchemes "app" [] (LocalText.Scheme.standard Suite.small))
  obtain ⟨p, made, prepared⟩ := Exchange.Small.prepared 3
  let s : Host (Table String KeyPair) := ⟨0, Exchange.Small.stocked (pair 3), .empty⟩
  obtain ⟨response, stored, -, responded, -⟩ := Host.respond_there (h := s) (c := chance)
    Suite.small_symmetric Suite.small_readsPublic Suite.small_verifies prepared rfl rfl
    (Exchange.Small.find_stocked (pair 3)) rfl ⟨_, Exchange.Small.halves 3⟩
    (Exchange.Small.timely made)
  have plain : Plain [("host", Bytes.ofText "gateway")] := by
    intro h member
    rw [List.mem_singleton.mp member]
    decide
  have mirrors : Mirrors (fun e => rejection (.exchange e)) _
      ((Client.exchange (connection Suite.small g "http://gateway" [("host", Bytes.ofText "gateway")])
        ("http://gateway" ++ "/exchange") p.request).run (Host.alone KeyPair.Backend.memory chance) s) :=
    (negotiation_over_http built addressed_exchange addressed_key plain
      (Host.alone KeyPair.Backend.memory chance) s).1 p.request (fits_small made prepared)
  rw [responded] at mirrors
  exact ⟨g, p.request, response, s, _, built, responded,
    Prod.ext ((mirrors.success response).mpr rfl) mirrors.state⟩

end

end Gateway

end KeyService
