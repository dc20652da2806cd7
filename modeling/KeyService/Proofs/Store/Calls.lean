/-! Calls of a store, one after the other.
What a store answers to a call, and how the call changes it, is all that its users see.
Two stores that answer single calls alike, and stay alike, answer any number of calls
alike. -/
namespace KeyService.Store

variable {σ τ ω ρ : Type}

/-- The answers to some calls, and the store afterwards. -/
def work (perform : σ → ω → ρ × σ) (s : σ) : List ω → List ρ × σ
  | [] => ([], s)
  | op :: ops =>
    let (reply, s) := perform s op
    let (replies, s) := work perform s ops
    (reply :: replies, s)

/-- Calls in several sessions. Each of them opens what the one before has left. -/
def lives (perform : σ → ω → ρ × σ) (opened : Option σ → σ) (left : Option σ) :
    List (List ω) → List ρ
  | [] => []
  | ops :: sessions =>
    let (replies, s) := work perform (opened left) ops
    replies ++ lives perform opened (some s) sessions

theorem work_append (perform : σ → ω → ρ × σ) (s : σ) (before after : List ω) :
    (work perform s (before ++ after)).1 =
      (work perform s before).1 ++ (work perform (work perform s before).2 after).1 := by
  induction before generalizing s with
  | nil => rfl
  | cons op before ih => exact congrArg (_ :: ·) (ih (perform s op).2)

theorem state_append (perform : σ → ω → ρ × σ) (s : σ) (before after : List ω) :
    (work perform s (before ++ after)).2 = (work perform (work perform s before).2 after).2 := by
  induction before generalizing s with
  | nil => rfl
  | cons op before ih => exact ih (perform s op).2

theorem length_work (perform : σ → ω → ρ × σ) (s : σ) (ops : List ω) :
    (work perform s ops).1.length = ops.length := by
  induction ops generalizing s with
  | nil => rfl
  | cons op ops ih => exact congrArg (· + 1) (ih (perform s op).2)

theorem getElem?_work (perform : σ → ω → ρ × σ) (s : σ) (before after : List ω) (op : ω) :
    (work perform s (before ++ op :: after)).1[before.length]? =
      some (perform (work perform s before).2 op).1 := by
  rw [work_append, List.getElem?_append_right (Nat.le_of_eq (length_work ..)), length_work,
    Nat.sub_self]
  rfl

/-- Where opening finds what was left, sessions are no different from one long session. -/
theorem lives_eq_work (perform : σ → ω → ρ × σ) {opened : Option σ → σ}
    (reopens : ∀ s, opened (some s) = s) (left : Option σ) (sessions : List (List ω)) :
    lives perform opened left sessions = (work perform (opened left) sessions.flatten).1 := by
  induction sessions generalizing left with
  | nil => rfl
  | cons ops sessions ih =>
    rw [List.flatten_cons, work_append]
    refine congrArg _ ((ih _).trans ?_)
    rw [reopens]

theorem work_alike {perform : σ → ω → ρ × σ} {other : τ → ω → ρ × τ} {P : ω → Prop}
    {R : σ → τ → Prop} (step : ∀ {s t op}, R s t → P op →
      (perform s op).1 = (other t op).1 ∧ R (perform s op).2 (other t op).2)
    {s : σ} {t : τ} (begun : R s t) {ops : List ω} (fit : ∀ op ∈ ops, P op) :
    (work perform s ops).1 = (work other t ops).1 := by
  induction ops generalizing s t with
  | nil => rfl
  | cons op ops ih =>
    obtain ⟨same, still⟩ := step begun (fit op List.mem_cons_self)
    simp only [work, same, ih still fun next member => fit next (.tail _ member)]

end KeyService.Store
