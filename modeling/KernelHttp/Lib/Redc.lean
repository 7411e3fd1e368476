/-
  Montgomery's reduction on numbers.

  A row adds to `T` the multiple of `N` that makes it divisible by the radix, and divides.
-/
import Mathlib.Tactic
import Mathlib.Data.Nat.ModEq

namespace Redc

variable {b N N' : ℕ}

def row (b N N' T : ℕ) : ℕ := (T + T * N' % b * N) / b

/-- `n` rows. -/
def rows (b N N' : ℕ) : ℕ → ℕ → ℕ
  | 0, T => T
  | n + 1, T => rows b N N' n (row b N N' T)

/-- The multiple of `N` completes `T` to a multiple of the radix. -/
theorem dvd_add (hN : b ∣ N * N' + 1) (T : ℕ) : b ∣ T + T * N' % b * N := by
  have hmod : T + T * N' % b * N ≡ T + T * N' * N [MOD b] :=
    Nat.ModEq.add_left _ ((Nat.mod_modEq _ _).mul_right _)
  have hdvd : b ∣ T + T * N' * N := by
    rw [show T + T * N' * N = T * (N * N' + 1) by ring]
    exact hN.mul_left _
  exact (hmod.dvd_iff dvd_rfl).2 hdvd

/-- What a row divides. -/
theorem row_mul_eq (hN : b ∣ N * N' + 1) (T : ℕ) :
    b * row b N N' T = T + T * N' % b * N := Nat.mul_div_cancel' (dvd_add hN T)

/-- A row divides by the radix modulo `N`. -/
theorem row_mul (hN : b ∣ N * N' + 1) (T : ℕ) : b * row b N N' T ≡ T [MOD N] := by
  rw [row_mul_eq hN]
  simp [Nat.ModEq]

variable {T n : ℕ}

/-- A row takes a factor `b` from the bound; the summand `N` stays. -/
theorem row_lt (hb : 0 < b) (hT : T < N * b ^ (n + 1) + N) :
    row b N N' T < N * b ^ n + N := by
  have hfactor : T * N' % b * N ≤ (b - 1) * N :=
    Nat.mul_le_mul_right _ (Nat.le_sub_one_of_lt (Nat.mod_lt _ hb))
  have hsum : N + (b - 1) * N = b * N := by
    obtain ⟨c, rfl⟩ : ∃ c, b = c + 1 := ⟨b - 1, by omega⟩
    rw [Nat.add_sub_cancel]
    ring
  rw [row, Nat.div_lt_iff_lt_mul hb]
  calc T + T * N' % b * N ≤ T + (b - 1) * N := Nat.add_le_add_left hfactor _
    _ < N * b ^ (n + 1) + N + (b - 1) * N := Nat.add_lt_add_right hT _
    _ = (N * b ^ n + N) * b := by rw [Nat.add_assoc, hsum]; ring

/-- Within a row, one digit above those of the bound is enough. -/
theorem add_lt (hb : 1 < b) {m : ℕ} (hN : N < b ^ m) (hT : T < N * b ^ (n + 1) + N) :
    T + T * N' % b * N < b ^ (m + (n + 1) + 1) := by
  have hrow : row b N N' T < _ := row_lt (by omega) hT
  rw [row, Nat.div_lt_iff_lt_mul (by omega)] at hrow
  have hpow : 1 ≤ b ^ n := Nat.one_le_pow _ _ (by omega)
  calc T + T * N' % b * N < (N * b ^ n + N) * b := hrow
    _ ≤ (N * b ^ n + N * b ^ n) * b := by gcongr; exact Nat.le_mul_of_pos_right _ hpow
    _ = N * (2 * b ^ (n + 1)) := by ring
    _ ≤ N * (b * b ^ (n + 1)) := by gcongr; omega
    _ ≤ b ^ m * (b * b ^ (n + 1)) := by gcongr
    _ = b ^ (m + (n + 1) + 1) := by ring

theorem rows_mul (hN : b ∣ N * N' + 1) (n T : ℕ) : b ^ n * rows b N N' n T ≡ T [MOD N] := by
  induction n generalizing T with
  | zero => rw [pow_zero, one_mul, rows]
  | succ n ih =>
    calc b ^ (n + 1) * rows b N N' (n + 1) T
        = b * (b ^ n * rows b N N' n (row b N N' T)) := by rw [rows]; ring
      _ ≡ b * row b N N' T [MOD N] := (ih _).mul_left _
      _ ≡ T [MOD N] := row_mul hN T

theorem rows_lt (hb : 0 < b) (hT : T < N * b ^ n + N) : rows b N N' n T < 2 * N := by
  induction n generalizing T with
  | zero =>
    rw [pow_zero, mul_one] at hT
    rw [rows]
    omega
  | succ n ih => exact ih (row_lt hb hT)

end Redc
