/-! Work that ends with the first failure.
A chain of such steps succeeds exactly if every step does, and what a failure is reported as
does not matter to success. -/
namespace KeyService.Attempt

variable {ε ε' α β : Type}

theorem pure_ok {a b : α} : (pure a : Except ε α) = .ok b ↔ a = b := Except.ok.injEq a b ▸ Iff.rfl

theorem not_error_of_ok {x : Except ε α} {a : α} (ok : x = .ok a) : ¬ ∃ e, x = .error e := by
  rintro ⟨e, failed⟩
  exact nomatch ok.symm.trans failed

theorem ok_bind (a : α) (f : α → Except ε β) : (Except.ok a >>= f) = f a := rfl

theorem bind_ok {x : Except ε α} {f : α → Except ε β} {b : β} :
    (x >>= f) = .ok b ↔ ∃ a, x = .ok a ∧ f a = .ok b := by
  cases x with
  | error e =>
    constructor
    · exact nofun
    · rintro ⟨a, same, -⟩
      cases same
  | ok a =>
    constructor
    · exact fun done => ⟨a, rfl, done⟩
    · rintro ⟨a, same, done⟩
      cases same
      exact done

theorem bind_error {x : Except ε α} {f : α → Except ε β} {e : ε} :
    (x >>= f) = .error e ↔ x = .error e ∨ ∃ a, x = .ok a ∧ f a = .error e := by
  cases x with
  | error e' =>
    constructor
    · exact fun failed => .inl (congrArg Except.error (Except.error.inj failed))
    · rintro (failed | ⟨a, same, -⟩)
      · cases failed
        rfl
      · cases same
  | ok a =>
    constructor
    · exact fun failed => .inr ⟨a, rfl, failed⟩
    · rintro (failed | ⟨a, same, failed⟩)
      · cases failed
      · cases same
        exact failed

theorem mapError_ok {x : Except ε α} {f : ε → ε'} {a : α} : x.mapError f = .ok a ↔ x = .ok a := by
  cases x with
  | error e => exact ⟨nofun, nofun⟩
  | ok b =>
    change Except.ok b = .ok a ↔ _
    rw [Except.ok.injEq, Except.ok.injEq]

theorem mapError_error {x : Except ε α} {f : ε → ε'} {e : ε'} :
    x.mapError f = .error e ↔ ∃ cause, x = .error cause ∧ f cause = e := by
  cases x with
  | error cause =>
    constructor
    · exact fun failed => ⟨cause, rfl, Except.error.inj failed⟩
    · rintro ⟨cause, same, rfl⟩
      cases same
      rfl
  | ok a => exact ⟨nofun, nofun⟩

end KeyService.Attempt
