import Mathlib.Tactic.Common

/-!
# Fallible computations

A computation in `Except` that ends well did so in each of its steps.
-/

namespace HeyServer.Lib
open List

variable {ε α β : Type} {x : Except ε α}

theorem bind_eq_ok {f : α → Except ε β} {b : β} :
    (x >>= f) = .ok b ↔ ∃ a, x = .ok a ∧ f a = .ok b := by
  cases x with
  | error e =>
    constructor
    · intro h
      cases h
    · rintro ⟨a, h, -⟩
      cases h
  | ok a =>
    constructor
    · intro h
      exact ⟨a, rfl, h⟩
    · rintro ⟨a', h, h'⟩
      cases h
      exact h'

theorem map_eq_ok {f : α → β} {b : β} : x.map f = .ok b ↔ ∃ a, x = .ok a ∧ f a = b := by
  cases x <;> simp [Except.map]

/-- A guard that was passed. -/
theorem ite_error_eq_ok {p : Prop} [Decidable p] {e : ε} {a : α} :
    (if p then .error e else x) = .ok a ↔ ¬ p ∧ x = .ok a := by
  by_cases hp : p <;> simp [hp]

/-- A loop that remembers what it has seen finds the elements new and distinct. -/
theorem fresh_cons_iff {x : α} {xs seen : List α} : ((x :: xs).Nodup ∧ ∀ y ∈ x :: xs, y ∉ seen) ↔
      x ∉ seen ∧ xs.Nodup ∧ ∀ y ∈ xs, y ∉ x :: seen := by
  rw [nodup_cons, forall_mem_cons]
  simp only [mem_cons, not_or, forall₂_and, forall_mem_ne']
  tauto

end HeyServer.Lib
