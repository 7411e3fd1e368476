/-
  The Montgomery ladder over a commutative ring.

  The pairs may be exchanged around each step, or only where two bits differ (`deferred_eq`).
-/
import Mathlib.Tactic

namespace MontgomeryLadder

/-- The coordinates of the two points. -/
@[ext]
structure Pairs (R : Type*) where
  x₂ : R
  z₂ : R
  x₃ : R
  z₃ : R

variable {R : Type*}

namespace Pairs

/-- The conditional exchange of the two points. -/
def cswap (swap : Bool) (s : Pairs R) : Pairs R :=
  if swap then ⟨s.x₃, s.z₃, s.x₂, s.z₂⟩ else s

theorem cswap_cswap (k k' : Bool) (s : Pairs R) :
    (s.cswap k).cswap k' = s.cswap (xor k k') := by
  cases k <;> cases k' <;> rfl

/-- The doubling and the addition of a step. -/
def step [CommRing R] (a24 x₁ : R) (s : Pairs R) : Pairs R :=
  let A := s.x₂ + s.z₂
  let AA := A ^ 2
  let B := s.x₂ - s.z₂
  let BB := B ^ 2
  let E := AA - BB
  let C := s.x₃ + s.z₃
  let D := s.x₃ - s.z₃
  let DA := D * A
  let CB := C * B
  { x₃ := (DA + CB) ^ 2
    z₃ := x₁ * (DA - CB) ^ 2
    x₂ := AA * BB
    z₂ := E * (AA + a24 * E) }

end Pairs

variable [CommRing R] (a24 x₁ : R)

def exchanged (s : Pairs R) (k : Bool) : Pairs R := ((s.cswap k).step a24 x₁).cswap k

/-- The exchange behind a step is put off to the next one. -/
def deferred (s : Pairs R × Bool) (k : Bool) : Pairs R × Bool :=
  ((s.1.cswap (xor s.2 k)).step a24 x₁, k)

/-- **Putting off the exchange changes nothing.** -/
theorem deferred_eq (bits : List Bool) (s : Pairs R) (swap : Bool) :
    (bits.foldl (deferred a24 x₁) (s, swap)).1.cswap (bits.foldl (deferred a24 x₁) (s, swap)).2 =
      bits.foldl (exchanged a24 x₁) (s.cswap swap) := by
  induction bits generalizing s swap with
  | nil => rfl
  | cons k bits ih =>
    rw [List.foldl_cons, List.foldl_cons]
    refine (ih _ _).trans ?_
    rw [exchanged, Pairs.cswap_cswap]

end MontgomeryLadder
