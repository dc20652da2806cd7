import KeyService.Gateway.Basic
import KeyService.Proofs.Program.Trace

/-! Which handler answers a request, and what is sent of its answer. -/
namespace KeyService.Gateway

open Http (Request Response)

variable {S : Suite} {g : Gateway} {r : Request} {place : Place} {route : Route}

/-- The route of a request, unless it is stopped before any handler. -/
def dispatch? (g : Gateway) (r : Request) : Option Route :=
  if g.isStray r then none else (g.router.find? r.target.path).bind (·.route? r.method)

theorem dispatch?_eq_some : g.dispatch? r = some route ↔ g.isStray r = false ∧
    ∃ place, g.router.find? r.target.path = some place ∧ place.route? r.method = some route := by
  unfold dispatch?
  cases g.isStray r <;> simp [Option.bind_eq_some_iff]

/-- A handler's answer as it is sent. -/
def presented (r : Request) (response : Response) : Response :=
  if r.method = "HEAD" then { coded r response with body := [] } else coded r response

theorem handle_of_dispatch (reached : g.dispatch? r = some route) :
    handle S g r = do
      let (response, g') ← serve S g r route
      return (presented r response, g') := by
  obtain ⟨inside, place, found, routed⟩ := dispatch?_eq_some.mp reached
  rw [handle, found]
  simp only [routed, guarded, inside, Bool.false_eq_true, if_false, bind_assoc, pure_bind]
  rfl

theorem gives_handle {events : List Event} {response : Response} {g' : Gateway}
    (reached : g.dispatch? r = some route) : (handle S g r).Gives events (response, g') ↔
      ∃ inner, (serve S g r route).Gives events (inner, g') ∧ presented r inner = response := by
  rw [handle_of_dispatch reached, Program.gives_bind_pure]
  constructor
  · rintro ⟨⟨inner, after⟩, served, same⟩
    obtain ⟨rfl, rfl⟩ := Prod.mk.inj same
    exact ⟨inner, served, rfl⟩
  · rintro ⟨inner, served, rfl⟩
    exact ⟨(inner, g'), served, rfl⟩

theorem coded_same (r : Request) (response : Response) :
    (coded r response).status = response.status ∧ (coded r response).body = response.body := by
  simp only [coded]
  split
  · exact ⟨rfl, rfl⟩
  · split <;> exact ⟨rfl, rfl⟩

theorem status_presented (r : Request) (response : Response) :
    (presented r response).status = response.status := by
  unfold presented
  split
  · exact (coded_same r response).1
  · exact (coded_same r response).1

theorem body_presented_of_whole (whole : r.method ≠ "HEAD") (response : Response) :
    (presented r response).body = response.body := by
  rw [presented, if_neg whole]
  exact (coded_same r response).2

theorem body_presented (r : Request) (response : Response) :
    (presented r response).body = [] ∨ (presented r response).body = response.body := by
  unfold presented
  split
  · exact .inl rfl
  · exact .inr (coded_same r response).2

theorem presented_of_plain (none : r.headers.all "accept-encoding" = []) (notHead : r.method ≠ "HEAD")
    (response : Response) : presented r response = response := by
  rw [presented, if_neg notHead, coded, none]
  rfl

/-- The answer to HEAD is a head only, where a route answers it. -/
def Headed (g : Gateway) (r : Request) : Prop :=
  r.method = "HEAD" ∧ ∃ place, g.router.find? r.target.path = some place ∧
    (place.route? r.method).isSome

theorem headed_of_dispatch (reached : g.dispatch? r = some route) :
    g.Headed r ↔ r.method = "HEAD" := by
  obtain ⟨-, place, found, routed⟩ := dispatch?_eq_some.mp reached
  exact ⟨fun headed => headed.1, fun head => ⟨head, place, found, by rw [routed]; rfl⟩⟩

theorem handle_of_stray (stray : g.isStray r = true) :
    ∃ response, handle S g r = pure (response, g) ∧ response.status = strayed.status ∧
      (g.Headed r → response.body = []) ∧ (¬ g.Headed r → response.body = strayed.body) := by
  have refused (work : Program (Response × Gateway)) :
      guarded g r work = pure (coded r strayed, g) := by rw [guarded, if_pos stray]
  obtain ⟨status, body⟩ := coded_same r strayed
  unfold handle
  split
  · rename_i missing
    refine ⟨_, refused _, status, ?_, fun _ => body⟩
    rintro ⟨-, place, found, -⟩
    rw [missing] at found
    cases found
  · rename_i place found
    split
    · rename_i route routed
      rw [refused, pure_bind]
      refine ⟨_, rfl, ?_, ?_, ?_⟩
      · split
        · exact status
        · exact status
      · rintro ⟨head, -⟩
        rw [if_pos head]
      · intro whole
        have notHead : r.method ≠ "HEAD" := fun head => whole ⟨head, place, found, by rw [routed]; rfl⟩
        rw [if_neg notHead]
        exact body
    · rename_i unrouted
      rw [refused, pure_bind]
      refine ⟨_, rfl, status, ?_, fun _ => body⟩
      rintro ⟨-, other, found', routed⟩
      rw [found] at found'
      obtain rfl := Option.some.inj found'
      rw [unrouted] at routed
      cases routed

theorem handle_of_missing (inside : g.isStray r = false)
    (missing : g.router.find? r.target.path = none) :
    handle S g r = return (coded r notFound, g) := by
  rw [handle, missing]
  simp only [guarded, inside, Bool.false_eq_true, if_false, pure_bind]

theorem handle_of_unrouted (inside : g.isStray r = false)
    (found : g.router.find? r.target.path = some place) (unrouted : place.route? r.method = none) :
    handle S g r = return ((coded r (.bare 405)).withHeader "allow" place.allowed, g) := by
  rw [handle, found]
  simp only [unrouted, guarded, inside, Bool.false_eq_true, if_false, pure_bind]

theorem dispatch?_eq_none : g.dispatch? r = none ↔ g.isStray r = true ∨
    g.isStray r = false ∧ (g.router.find? r.target.path = none ∨
      ∃ place, g.router.find? r.target.path = some place ∧ place.route? r.method = none) := by
  unfold dispatch?
  cases g.isStray r with
  | true => simp
  | false => cases g.router.find? r.target.path <;> simp

theorem handle_of_undispatched (unreached : g.dispatch? r = none) :
    ∃ response, handle S g r = return (response, g) := by
  rcases dispatch?_eq_none.mp unreached with stray | ⟨inside, missing | ⟨place, found, unrouted⟩⟩
  · obtain ⟨response, same, -⟩ := handle_of_stray (S := S) stray
    exact ⟨response, same⟩
  · exact ⟨_, handle_of_missing inside missing⟩
  · exact ⟨_, handle_of_unrouted inside found unrouted⟩

end KeyService.Gateway
