/-
  Powers by squaring and multiplying, the bits of the exponent read from the top.
-/
import Mathlib.Tactic
import Mathlib.Data.Nat.Bitwise

namespace Powering

/-- The number that bits spell, the highest first. -/
def ofBits (bits : List Bool) : ℕ := bits.foldl (fun v k => 2 * v + k.toNat) 0

/-- A squaring, and a multiplication where the bit is set. -/
def step {M : Type*} [Monoid M] (x r : M) (k : Bool) : M :=
  if k then r * r * x else r * r

def power {M : Type*} [Monoid M] (x : M) (bits : List Bool) : M := bits.foldl (step x) 1

theorem ofBits_concat (bits : List Bool) (k : Bool) :
    ofBits (bits ++ [k]) = 2 * ofBits bits + k.toNat := by
  simp only [ofBits, List.foldl_append, List.foldl_cons, List.foldl_nil]

theorem power_concat {M : Type*} [Monoid M] (x : M) (bits : List Bool) (k : Bool) :
    power x (bits ++ [k]) = step x (power x bits) k := by
  simp only [power, List.foldl_append, List.foldl_cons, List.foldl_nil]

/-- The power, bit by bit, is the power. -/
theorem power_eq {M : Type*} [Monoid M] (x : M) (bits : List Bool) :
    power x bits = x ^ ofBits bits := by
  induction bits using List.reverseRecOn with
  | nil => simp [power, ofBits]
  | append_singleton bits k ih =>
    rw [power_concat, ofBits_concat, ih, step]
    cases k with
    | false => simp [two_mul, pow_add]
    | true => simp [two_mul, pow_add]

/-- The bits of a number, from bit `n - 1` down. -/
def bitsFrom (n v : ℕ) : List Bool := (List.range n).reverse.map v.testBit

theorem bitsFrom_succ (n v : ℕ) : bitsFrom (n + 1) v = v.testBit n :: bitsFrom n v := by
  simp [bitsFrom, List.range_succ]

/-- The lowest bit comes last. -/
theorem bitsFrom_succ' (n v : ℕ) :
    bitsFrom (n + 1) v = bitsFrom n (v / 2) ++ [v.testBit 0] := by
  induction n with
  | zero => rfl
  | succ n ih => rw [bitsFrom_succ, ih, bitsFrom_succ, Nat.testBit_succ, List.cons_append]

/-- The lowest bits of a number spell it, where they are all it has. -/
theorem ofBits_bitsFrom {n v : ℕ} (h : v < 2 ^ n) : ofBits (bitsFrom n v) = v := by
  induction n generalizing v with
  | zero =>
    obtain rfl : v = 0 := by simpa using h
    rfl
  | succ n ih =>
    rw [bitsFrom_succ', ofBits_concat, ih (by rw [pow_succ] at h; omega), Nat.testBit_zero]
    rcases Nat.mod_two_eq_zero_or_one v with hv | hv
    · simp [hv]; omega
    · simp [hv]; omega

end Powering
