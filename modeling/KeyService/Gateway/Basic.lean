import KeyService.Exchange.Endpoint
import KeyService.Gateway.Handlers
import KeyService.Gateway.Routes

/-! The gateway: one response for each request.
A request marked as a key exchange is only let through at the place where key
exchanges are accepted; at any other path nothing is done for it, whatever route it
would have had. The only state of the gateway besides its stores is which keys of the
local cipher are loaded. How long anything takes is left out, and with it the timer that
gives up on a request after thirty seconds and answers it with 408 and no content. -/
namespace KeyService

structure Gateway where
  responder : Exchange.Responder
  cipher : LocalText.Cipher
  endpoint : Exchange.Endpoint
  router : Router

namespace Gateway

open Http (Request Response)

def ofPaths (responder : Exchange.Responder) (cipher : LocalText.Cipher)
    (negotiationPath publicKeyPath : String) : Except RouteError Gateway := do
  return ⟨responder, cipher, ⟨negotiationPath⟩, ← Router.build negotiationPath publicKeyPath⟩

def engine (g : Gateway) : Engine := g.responder.engine

variable (S : Suite)

def serve (g : Gateway) (r : Request) : Route → Program (Response × Gateway)
  | .negotiate => do return (← negotiate S g.responder r, g)
  | .publicKey => do return (← publicKey S g.engine r, g)
  | .secureEcho => do return (← secureEcho S r, g)
  | .localEncrypt => do
    let (response, cipher) ← localEncrypt S g.cipher r
    return (response, { g with cipher })
  | .localDecrypt => do
    let (response, cipher) ← localDecrypt S g.cipher r
    return (response, { g with cipher })
  | .health => do return (← health g.engine g.cipher, g)

def isStray (g : Gateway) (r : Request) : Bool :=
  (r.headers.find? exchangeHeader).isSome && !g.endpoint.accepts r.target.path

def strayed : Response :=
  refusal 400 "bad_request" (exchangeHeader ++ " is only accepted on the negotiation endpoint")

def minCoded : Nat := 32

def coded (r : Request) (response : Response) : Response :=
  let accepted := (r.headers.all "accept-encoding").filterMap Http.Headers.text?
  match Http.Coding.choose accepted with
  | .identity => response
  | coding =>
    if response.body.length < minCoded then response
    else
      { response.withHeader "content-encoding" coding.name with coding := some coding }

def guarded (g : Gateway) (r : Request) (work : Program (Response × Gateway)) :
    Program (Response × Gateway) := do
  if g.isStray r then return (coded r strayed, g)
  let (response, g) ← work
  return (coded r response, g)

/-- Answer a request. An answer to HEAD has the content of none; a place that does not take the
method tells which ones it takes, whatever else is said. -/
def handle (g : Gateway) (r : Request) : Program (Response × Gateway) := do
  match g.router.find? r.target.path with
  | none => guarded g r (return (notFound, g))
  | some place =>
    match place.route? r.method with
    | some route =>
      let (response, g) ← guarded g r (serve S g r route)
      return (if r.method = "HEAD" then { response with body := [] } else response, g)
    | none =>
      let (response, g) ← guarded g r (return (.bare 405, g))
      return (response.withHeader "allow" place.allowed, g)

end Gateway

end KeyService
