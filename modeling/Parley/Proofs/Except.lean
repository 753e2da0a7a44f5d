import Mathlib

/-!
# Results and faults

When a reader that goes on from another one gives a result, and when a fault.
-/

namespace Parley
variable {φ ψ α β : Type} {x : Except φ α} {k : α → Except φ β}

theorem bind_eq_ok {b : β} : (x >>= k) = .ok b ↔ ∃ a, x = .ok a ∧ k a = .ok b := by
  cases x <;> simp [bind, Except.bind]

theorem bind_eq_error {f : φ} :
    (x >>= k) = .error f ↔ x = .error f ∨ ∃ a, x = .ok a ∧ k a = .error f := by
  cases x <;> simp [bind, Except.bind]

theorem mapError_eq_ok {wrap : φ → ψ} {a : α} : x.mapError wrap = .ok a ↔ x = .ok a := by
  cases x <;> simp [Except.mapError]

end Parley
