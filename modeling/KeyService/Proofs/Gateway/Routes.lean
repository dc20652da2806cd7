import KeyService.Gateway.Routes
import KeyService.Proofs.Http.Spelling
import KeyService.Proofs.Program.Attempt
import Mathlib.Data.List.Nodup
import Mathlib.Data.List.Pairwise

/-! Requests to the path of a route reach the route.
A path may fit the patterns of other places as well, but the place whose pattern it spells out
goes first. No two places can be spelled out by the same path, and no two routes of a place take
the same method, so the route is the only one that can be meant. -/
namespace KeyService

namespace Http.Pattern

/-- A path without the signs that stand for something else. -/
def Literal (path : String) : Prop := ∀ c ∈ path.toList, c ≠ ':' ∧ c ≠ '*'

instance (path : String) : Decidable (Literal path) :=
  List.decidableBAll (fun c => c ≠ ':' ∧ c ≠ '*') path.toList

/-- A path that is a pattern without a sign for the rest of a path. -/
def Starless (path : String) : Prop := '*' ∉ path.toList

instance (path : String) : Decidable (Starless path) :=
  inferInstanceAs (Decidable ('*' ∉ path.toList))

theorem Literal.starless {path : String} (literal : Literal path) : Starless path :=
  fun member => (literal _ member).2 rfl

end Http.Pattern

open Http (Pattern)

theorem Place.route?_of_mem {p : Place} {route : Route} {method : String}
    (single : p.routes.Pairwise fun r s => ∀ m ∈ r.methods, m ∉ s.methods)
    (member : route ∈ p.routes) (takes : method ∈ route.methods) : p.route? method = some route := by
  have notHead : method ≠ "HEAD" := by
    rintro rfl
    cases route <;> simp [Route.methods] at takes
  rw [Place.route?, if_neg notHead]
  generalize p.routes = routes at single member
  induction routes with
  | nil => cases member
  | cons r routes ih =>
    obtain ⟨alone, single⟩ := List.pairwise_cons.mp single
    rcases List.mem_cons.mp member with rfl | later
    · exact List.find?_cons_of_pos (by simpa using takes)
    · have other : method ∉ r.methods := fun same => alone route later method same takes
      rw [List.find?_cons_of_neg (by simpa using other)]
      exact ih single later

namespace Router

structure Sound (t : Router) : Prop where
  parsed : ∀ p ∈ t, Pattern.parse? p.path = some p.pattern
  named : (t.map Place.path).Nodup
  apart : t.Pairwise fun p q => q.pattern.clashes p.pattern = false
  single : ∀ p ∈ t, p.routes.Pairwise fun r s => ∀ m ∈ r.methods, m ∉ s.methods
  serves : ∀ p ∈ t, ∃ route, route ∈ p.routes

def Has (t : Router) (path : String) (route : Route) : Prop :=
  ∃ p ∈ t, p.path = path ∧ route ∈ p.routes

variable {t t' : Router} {path : String} {route : Route}

theorem foldl_prefer {places : List Place} {p : Place} {best : Option Place}
    (first : ∀ q ∈ places, q = p ∨ p.pattern.Before q.pattern)
    (behind : ∀ b, best = some b → b = p ∨ p.pattern.Before b.pattern)
    (there : p ∈ places ∨ best = some p) : places.foldl prefer best = some p := by
  induction places generalizing best with
  | nil => simpa using there
  | cons q places ih =>
    have next := first q List.mem_cons_self
    rw [List.foldl_cons]
    refine ih (fun r member => first r (.tail _ member)) ?_ ?_
    · intro b same
      unfold prefer at same
      split at same
      · obtain rfl := Option.some.inj same
        exact next
      · split at same <;> obtain rfl := Option.some.inj same
        · exact next
        · exact behind _ rfl
    · rcases there with member | rfl
      · rcases List.mem_cons.mp member with rfl | later
        · right
          unfold prefer
          split
          · rfl
          · rcases behind _ rfl with rfl | before
            · exact ite_self _
            · rw [if_pos before.first]
        · exact .inl later
      · right
        rcases next with rfl | before
        · exact ite_self _
        · rw [prefer, before.last, if_neg (by decide)]

theorem foldl_prefer_mem {places : List Place} {p : Place} {best : Option Place}
    (taken : places.foldl prefer best = some p) : p ∈ places ∨ best = some p := by
  induction places generalizing best with
  | nil => exact .inr taken
  | cons q places ih =>
    rcases ih taken with later | here
    · exact .inl (.tail _ later)
    · unfold prefer at here
      split at here
      · exact .inl (Option.some.inj here ▸ List.mem_cons_self)
      · split at here <;> obtain rfl := Option.some.inj here
        · exact .inl List.mem_cons_self
        · exact .inr rfl

theorem foldl_prefer_isSome {places : List Place} {best : Option Place} (any : best.isSome) :
    (places.foldl prefer best).isSome := by
  induction places generalizing best with
  | nil => exact any
  | cons q places ih =>
    refine ih ?_
    unfold prefer
    split
    · rfl
    · split <;> rfl

theorem of_find? {p : Place} (found : t.find? path = some p) :
    p ∈ t ∧ p.pattern.fits path.toList = true := by
  rcases foldl_prefer_mem found with member | none
  · simpa using List.mem_filter.mp member
  · cases none

theorem find?_of_fits {p : Place} (member : p ∈ t) (fits : p.pattern.fits path.toList = true) :
    ∃ q, t.find? path = some q := by
  have inside : p ∈ t.filter fun p => p.pattern.fits path.toList :=
    List.mem_filter.mpr ⟨member, fits⟩
  refine Option.isSome_iff_exists.mp ?_
  unfold find?
  cases same : t.filter fun p => p.pattern.fits path.toList with
  | nil =>
    rw [same] at inside
    cases inside
  | cons q places =>
    rw [List.foldl_cons]
    exact foldl_prefer_isSome rfl

theorem Sound.unlike (sound : Sound t) {p q : Place} (member : p ∈ t) (member' : q ∈ t)
    (differ : p ≠ q) : p.pattern.clashes q.pattern = false := by
  have symmetric : Std.Symm fun p q : Place => q.pattern.clashes p.pattern = false :=
    ⟨fun p q apart => by rwa [Pattern.clashes_comm]⟩
  rw [Pattern.clashes_comm]
  exact sound.apart.forall member member' differ

/-- A path that was given for a route is that of its place, whatever other patterns it fits. -/
theorem find?_of_mem (sound : Sound t) {p : Place} (member : p ∈ t)
    (starless : Pattern.Starless p.path) : t.find? p.path = some p := by
  have spells := Pattern.spells_of_parse? starless (sound.parsed p member)
  refine foldl_prefer ?_ (by simp) (.inl (List.mem_filter.mpr ⟨member, by simpa using spells.fits⟩))
  intro q inside
  obtain ⟨others, fit⟩ := List.mem_filter.mp inside
  by_cases same : q = p
  · exact .inl same
  · have noColon := Pattern.noColon_of_parse? (sound.parsed q others)
    exact .inr (spells.before fit noColon (sound.unlike member others (Ne.symm same)))

theorem reaches (sound : Sound t) (has : Has t path route) (starless : Pattern.Starless path)
    {method : String} (takes : method ∈ route.methods) :
    ∃ place, t.find? path = some place ∧ place.route? method = some route := by
  obtain ⟨p, member, rfl, inside⟩ := has
  exact ⟨p, find?_of_mem sound member starless,
    Place.route?_of_mem (sound.single p member) inside takes⟩

theorem sound_nil : Sound [] := ⟨by simp, by simp, .nil, by simp, by simp⟩

def extend (path : String) (route : Route) (p : Place) : Place :=
  if p.path = path then { p with routes := p.routes ++ [route] } else p

@[simp] theorem path_extend (p : Place) : (extend path route p).path = p.path := by
  unfold extend
  split <;> rfl

@[simp] theorem pattern_extend (p : Place) : (extend path route p).pattern = p.pattern := by
  unfold extend
  split <;> rfl

theorem mem_extend {p : Place} {r : Route} : r ∈ (extend path route p).routes ↔
    r ∈ p.routes ∨ p.path = path ∧ r = route := by
  unfold extend
  split
  · rename_i same
    simp [same]
  · rename_i other
    simp [other]

theorem Sound.extend (sound : Sound t) {place : Place} (member : place ∈ t)
    (free : ∀ r ∈ place.routes, ∀ m ∈ r.methods, m ∉ route.methods) :
    Sound (t.map (Router.extend place.path route)) where
  parsed p inside := by
    obtain ⟨q, old, rfl⟩ := List.mem_map.mp inside
    rw [path_extend, pattern_extend]
    exact sound.parsed q old
  named := by
    have names : Place.path ∘ Router.extend place.path route = Place.path := funext path_extend
    rw [List.map_map, names]
    exact sound.named
  apart := List.pairwise_map.mpr (by simpa using sound.apart)
  single p inside := by
    obtain ⟨q, old, rfl⟩ := List.mem_map.mp inside
    unfold Router.extend
    split
    · rename_i same
      obtain rfl := List.inj_on_of_nodup_map sound.named old member same
      refine List.pairwise_append.mpr ⟨sound.single q old, List.pairwise_singleton .., ?_⟩
      intro r among s last m takes
      rw [List.mem_singleton.mp last]
      exact free r among m takes
    · exact sound.single q old
  serves p inside := by
    obtain ⟨q, old, rfl⟩ := List.mem_map.mp inside
    obtain ⟨r, has⟩ := sound.serves q old
    exact ⟨r, mem_extend.mpr (.inl has)⟩

theorem Sound.snoc (sound : Sound t) {pattern : Pattern} (new : ∀ p ∈ t, p.path ≠ path)
    (parsed : Pattern.parse? path = some pattern)
    (apart : ∀ p ∈ t, pattern.clashes p.pattern = false) :
    Sound (t ++ [⟨path, pattern, [route]⟩]) where
  parsed p inside := by
    rcases List.mem_append.mp inside with old | last
    · exact sound.parsed p old
    · rw [List.mem_singleton.mp last]
      exact parsed
  named := by
    rw [List.map_append]
    refine List.nodup_append.mpr ⟨sound.named, List.nodup_singleton _, ?_⟩
    intro name old other last
    obtain ⟨p, member, rfl⟩ := List.mem_map.mp old
    rw [List.mem_singleton.mp last]
    exact new p member
  apart := by
    refine List.pairwise_append.mpr ⟨sound.apart, List.pairwise_singleton .., ?_⟩
    intro p old q last
    rw [List.mem_singleton.mp last]
    exact apart p old
  single p inside := by
    rcases List.mem_append.mp inside with old | last
    · exact sound.single p old
    · rw [List.mem_singleton.mp last]
      exact List.pairwise_singleton ..
  serves p inside := by
    rcases List.mem_append.mp inside with old | last
    · exact sound.serves p old
    · rw [List.mem_singleton.mp last]
      exact ⟨route, List.mem_singleton_self route⟩

theorem sound_add (sound : Sound t) (added : t.add path route = .ok t') :
    Sound t' ∧ ∀ other r, Has t' other r ↔ Has t other r ∨ other = path ∧ r = route := by
  unfold add at added
  split at added
  · rename_i place found
    have member := List.mem_of_find?_eq_some found
    obtain rfl : place.path = path := by simpa using List.find?_some found
    split at added
    · cases added
    · rename_i free
      obtain rfl := Except.ok.inj added
      refine ⟨sound.extend member (by simpa using free), fun other r => ⟨?_, ?_⟩⟩
      · rintro ⟨_, inside, rfl, has⟩
        obtain ⟨p, old, rfl⟩ := List.mem_map.mp inside
        rcases mem_extend.mp has with before | ⟨same, rfl⟩
        · exact .inl ⟨p, old, (path_extend p).symm, before⟩
        · exact .inr ⟨(path_extend p).trans same, rfl⟩
      · rintro (⟨p, old, rfl, has⟩ | ⟨rfl, rfl⟩)
        · exact ⟨_, List.mem_map_of_mem old, path_extend p, mem_extend.mpr (.inl has)⟩
        · exact ⟨_, List.mem_map_of_mem member, path_extend place, mem_extend.mpr (.inr ⟨rfl, rfl⟩)⟩
  · rename_i missing
    have new : ∀ p ∈ t, p.path ≠ path := by simpa using missing
    split at added
    · cases added
    · rename_i pattern parsed
      split at added
      · cases added
      · rename_i alone
        obtain rfl := Except.ok.inj added
        refine ⟨sound.snoc new parsed (by simpa using alone), fun other r => ?_⟩
        simp only [Has, List.mem_append, List.mem_singleton, or_and_right, exists_or,
          exists_eq_left]
        rw [eq_comm (a := path)]

/-- The routes that are always built, with their paths. -/
def plan (negotiationPath publicKeyPath : String) : List (String × Route) :=
  [(negotiationPath, .negotiate), (publicKeyPath, .publicKey), ("/secure/echo", .secureEcho),
    ("/local/encrypt", .localEncrypt), ("/local/decrypt", .localDecrypt), ("/health", .health)]

theorem sound_foldlM {routes : List (String × Route)} (sound : Sound t)
    (built : routes.foldlM (fun t r => add t r.1 r.2) t = .ok t') :
    Sound t' ∧ ∀ path route, Has t' path route ↔ Has t path route ∨ (path, route) ∈ routes := by
  induction routes generalizing t with
  | nil =>
    obtain rfl := Except.ok.inj built
    exact ⟨sound, by simp⟩
  | cons r routes ih =>
    rw [List.foldlM_cons] at built
    obtain ⟨t₁, added, rest⟩ := Attempt.bind_ok.mp built
    obtain ⟨sound₁, has₁⟩ := sound_add sound added
    obtain ⟨sound', has'⟩ := ih sound₁ rest
    refine ⟨sound', fun path route => ?_⟩
    rw [has', has₁, List.mem_cons, or_assoc, Prod.ext_iff]

theorem build_eq (negotiationPath publicKeyPath : String) : build negotiationPath publicKeyPath =
    (plan negotiationPath publicKeyPath).foldlM (fun t r => add t r.1 r.2) [] := by
  simp [plan, build]

theorem sound_build {negotiationPath publicKeyPath : String}
    (built : build negotiationPath publicKeyPath = .ok t) : Sound t ∧
      ∀ path route, Has t path route ↔ (path, route) ∈ plan negotiationPath publicKeyPath := by
  rw [build_eq] at built
  obtain ⟨sound, has⟩ := sound_foldlM sound_nil built
  refine ⟨sound, fun path route => ?_⟩
  rw [has, or_iff_right]
  rintro ⟨p, member, -⟩
  cases member

end Router

end KeyService
