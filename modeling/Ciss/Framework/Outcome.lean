import Mathlib.Logic.Basic

/-!
# Computations that may fail

When a chain of fallible steps succeeds: each step did.  The lemmas take a success apart, so that a
proof about a checker written in the order of its source never unfolds the monad.

Nothing here mentions a particular program.
-/

namespace Ciss

variable {ε ε' α β : Type}

/-- A computation that succeeds went through both its parts. -/
lemma bind_eq_ok {x : Except ε α} {f : α → Except ε β} {b : β} :
    (x >>= f) = .ok b ↔ ∃ a, x = .ok a ∧ f a = .ok b := by
  cases x <;> simp [bind, Except.bind]

@[simp] lemma mapError_ok {f : ε → ε'} {a : α} : (Except.ok a).mapError f = .ok a := rfl

@[simp] lemma mapError_error {f : ε → ε'} {e : ε} :
    (Except.error e : Except ε α).mapError f = .error (f e) := rfl

@[simp] lemma mapError_eq_ok {x : Except ε α} {f : ε → ε'} {a : α} :
    x.mapError f = .ok a ↔ x = .ok a := by
  cases x <;> simp

/-- `Option::ok_or`. -/
def okOr (x : Option α) (e : ε) : Except ε α := x.elim (.error e) .ok

@[simp] lemma okOr_eq_ok {x : Option α} {e : ε} {a : α} : okOr x e = .ok a ↔ x = some a := by
  cases x <;> simp [okOr]

@[simp] lemma toOption_eq_some {x : Except ε α} {a : α} : x.toOption = some a ↔ x = .ok a := by
  cases x <;> simp [Except.toOption]

/-- A check that throws unless `p` holds, before the rest of a computation. -/
lemma guard_eq_ok {p : Prop} [Decidable p] {e : ε} {x : Except ε α} {a : α} :
    (if p then .error e else x) = .ok a ↔ ¬ p ∧ x = .ok a := by
  by_cases hp : p <;> simp [hp]

end Ciss
