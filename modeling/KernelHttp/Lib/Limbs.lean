/-
  Numbers in radix `b`, lowest limb first, with limbs that need not be digits.
-/
import Mathlib.Tactic

namespace Limbs

section value

variable {R : Type*} [CommRing R] (b : R)

/-- The number that the limbs stand for. -/
def value : List R → R
  | [] => 0
  | v :: x => v + b * value x

@[simp] theorem value_nil : value b [] = 0 := rfl

@[simp] theorem value_cons (v : R) (x : List R) : value b (v :: x) = v + b * value b x := rfl

theorem value_append (x y : List R) :
    value b (x ++ y) = value b x + b ^ x.length * value b y := by
  induction x with
  | nil => simp
  | cons v x ih =>
    rw [List.cons_append, value_cons, value_cons, ih, List.length_cons, pow_succ]
    ring

theorem value_replicate_zero (n : ℕ) : value b (List.replicate n 0) = 0 := by
  induction n with
  | zero => rfl
  | succ n ih => rw [List.replicate_succ, value_cons, ih, zero_add, mul_zero]

theorem value_zipWith_add {x y : List R} (h : x.length = y.length) :
    value b (List.zipWith (· + ·) x y) = value b x + value b y := by
  induction x generalizing y with
  | nil => cases y <;> simp_all
  | cons v x ih =>
    cases y with
    | nil => simp at h
    | cons w y =>
      rw [List.zipWith_cons_cons, value_cons, value_cons, value_cons, ih (by simpa using h)]
      ring

theorem value_zipWith_sub {x y : List R} (h : x.length = y.length) :
    value b (List.zipWith (· - ·) x y) = value b x - value b y := by
  induction x generalizing y with
  | nil => cases y <;> simp_all
  | cons v x ih =>
    cases y with
    | nil => simp at h
    | cons w y =>
      rw [List.zipWith_cons_cons, value_cons, value_cons, value_cons, ih (by simpa using h)]
      ring

end value

section bounds

variable {b B C : ℤ} {x y : List ℤ}

/-- No limb is larger than `B` in magnitude. -/
def Within (B : ℤ) (x : List ℤ) : Prop := ∀ v ∈ x, |v| ≤ B

theorem Within.mono (h : Within B x) (hle : B ≤ C) : Within C x := fun v hv => (h v hv).trans hle

theorem within_cons {v : ℤ} : Within B (v :: x) ↔ |v| ≤ B ∧ Within B x := List.forall_mem_cons

theorem Within.zipWith {f : ℤ → ℤ → ℤ} {D : ℤ} (hx : Within B x) (hy : Within C y)
    (hf : ∀ v w, |v| ≤ B → |w| ≤ C → |f v w| ≤ D) : Within D (List.zipWith f x y) := by
  intro u hu
  obtain ⟨i, hi, rfl⟩ := List.getElem_of_mem hu
  rw [List.getElem_zipWith]
  exact hf _ _ (hx _ (List.getElem_mem _)) (hy _ (List.getElem_mem _))

/-- Every limb is a digit. -/
def Digits (b : ℤ) (x : List ℤ) : Prop := ∀ v ∈ x, 0 ≤ v ∧ v < b

theorem digits_cons {v : ℤ} : Digits b (v :: x) ↔ (0 ≤ v ∧ v < b) ∧ Digits b x :=
  List.forall_mem_cons

theorem Digits.within (h : Digits b x) : Within b x := by
  intro v hv
  obtain ⟨hpos, hlt⟩ := h v hv
  rw [abs_of_nonneg hpos]
  exact hlt.le

theorem Digits.value_nonneg (hb : 0 ≤ b) (h : Digits b x) : 0 ≤ value b x := by
  induction x with
  | nil => exact le_rfl
  | cons v x ih =>
    obtain ⟨hv, hx⟩ := digits_cons.1 h
    exact add_nonneg hv.1 (mul_nonneg hb (ih hx))

theorem Digits.value_lt (hb : 0 ≤ b) (h : Digits b x) : value b x < b ^ x.length := by
  induction x with
  | nil =>
    rw [value_nil, List.length_nil, pow_zero]
    exact one_pos
  | cons v x ih =>
    obtain ⟨hv, hx⟩ := digits_cons.1 h
    have hrest : value b x + 1 ≤ b ^ x.length := ih hx
    calc value b (v :: x) < b + b * value b x := by rw [value_cons]; linarith [hv.2]
      _ = b * (value b x + 1) := by ring
      _ ≤ b * b ^ x.length := mul_le_mul_of_nonneg_left hrest hb
      _ = b ^ (v :: x).length := by rw [List.length_cons, pow_succ']

end bounds

end Limbs
