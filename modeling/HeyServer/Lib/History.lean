import Mathlib.Data.List.Basic

/-!
# Histories of a value

The values something takes one after the other, when it is looked at in each of a
sequence of states. Looking twice at the same value adds nothing.
-/

namespace HeyServer.Lib
variable {α : Type} [DecidableEq α]

/-- One more look; there may be nothing to see yet. -/
def record (history : List α) : Option α → List α
  | none => history
  | some a => if history.getLast? = some a then history else history ++ [a]

variable (looks : List (Option α))

/-- The values taken one after the other. -/
def changes : List α := looks.foldl record []

@[simp] theorem changes_append (look : Option α) :
    changes (looks ++ [look]) = record (changes looks) look := by
  simp [changes]

variable {history : List α}

theorem record_same {look : Option α}
    (h : ∀ a, look = some a → history.getLast? = some a) : record history look = history := by
  cases look with
  | none => rfl
  | some a => exact if_pos (h a rfl)

theorem record_map_same {β : Type} {row : Option β} {f : β → α}
    (h : ∀ r, row = some r → history.getLast? = some (f r)) :
      record history (row.map f) = history := by
  apply record_same
  intro a ha
  obtain ⟨r, hr, rfl⟩ := Option.map_eq_some_iff.mp ha
  exact h r hr

theorem record_new {a : α} (h : history.getLast? ≠ some a) :
    record history (some a) = history ++ [a] :=
  if_neg h

end HeyServer.Lib
