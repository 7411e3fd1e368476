/-
  Checked machine arithmetic.

  A program on machine integers that returns something has not left the type at any operation.
-/
import Mathlib.Tactic

namespace Checked

/-- The number, if it is in a type with the numbers from `lo` to `hi`. -/
def represent (lo hi x : ℤ) : Option ℤ := if lo ≤ x ∧ x ≤ hi then some x else none

variable {lo hi x : ℤ}

theorem represent_eq (h : lo ≤ x) (h' : x ≤ hi) : represent lo hi x = some x := if_pos ⟨h, h'⟩

theorem bind_of_some {α β : Type} {x : Option α} {a : α} (h : x = some a) (f : α → Option β) :
    (x >>= f) = f a := by
  rw [h]
  rfl

end Checked
