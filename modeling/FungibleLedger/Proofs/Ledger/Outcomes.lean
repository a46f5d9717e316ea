import FungibleLedger.Ledger.Basic

/-!
# How computations end

A computation in steps succeeds when all of its steps do. For computations without a store
(`ok_of_bind`) and for actions on one (`Ledger.ok_of_run_bind`) this reads a success backwards, into
the successes of the steps, and `error_of_bind` a failure; `Ledger.run_bind_of_ok` and
`Ledger.run_bind_of_error` go forwards.
-/

namespace FungibleLedger

variable {ε ε' α β : Type}

theorem ok_of_bind {x : Except ε α} {f : α → Except ε β} {b : β} (h : x >>= f = .ok b) :
    ∃ a, x = .ok a ∧ f a = .ok b := by
  cases x with
  | error e => cases h
  | ok a => exact ⟨a, rfl, h⟩

/-- What fails is the first part of a computation, or the second after the first. -/
theorem error_of_bind {x : Except ε α} {f : α → Except ε β} {e : ε} (h : x >>= f = .error e) :
    x = .error e ∨ ∃ a, x = .ok a ∧ f a = .error e := by
  cases x with
  | error e' =>
    cases h
    exact .inl rfl
  | ok a => exact .inr ⟨a, rfl, h⟩

theorem ok_of_mapError {x : Except ε α} {f : ε → ε'} {a : α} (h : x.mapError f = .ok a) :
    x = .ok a := by
  cases x with
  | error e => cases h
  | ok b =>
    cases h
    rfl

theorem ok_of_toOption {x : Except ε α} {a : α} (h : x.toOption = some a) : x = .ok a := by
  cases x with
  | error e => cases h
  | ok b =>
    cases h
    rfl

namespace Ledger

variable {s s' : Store} {x : Action α} {f : α → Action β}

theorem run_bind_of_ok {a : α} (h : EStateM.run x s = .ok a s') :
    EStateM.run (x >>= f) s = EStateM.run (f a) s' := by
  rw [EStateM.run_bind, h]

theorem run_bind_of_error {e : Failure} (h : EStateM.run x s = .error e s') :
    EStateM.run (x >>= f) s = .error e s' := by
  rw [EStateM.run_bind, h]

theorem run_lift_ok (a : α) : EStateM.run (lift (.ok a)) s = .ok a s := rfl

theorem ok_of_run_bind {b : β} (h : EStateM.run (x >>= f) s = .ok b s') :
    ∃ a s₁, EStateM.run x s = .ok a s₁ ∧ EStateM.run (f a) s₁ = .ok b s' := by
  cases hx : EStateM.run x s with
  | error e s₁ =>
    rw [run_bind_of_error hx] at h
    cases h
  | ok a s₁ =>
    rw [run_bind_of_ok hx] at h
    exact ⟨a, s₁, rfl, h⟩

theorem ok_of_run_lift_bind {e : Except Failure α} {b : β}
    (h : EStateM.run (lift e >>= f) s = .ok b s') :
    ∃ a, e = .ok a ∧ EStateM.run (f a) s = .ok b s' := by
  cases e with
  | error e => cases h
  | ok a => exact ⟨a, rfl, h⟩

end Ledger

end FungibleLedger
