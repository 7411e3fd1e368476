/-
  Numbers as octets, most significant first.

  `bigEndian n v` is the low `n` octets of `v`; `ofBigEndian` is the number that
  octets spell.
-/
import Mathlib

namespace BigEndian

/-- The low `n` octets of `v`, most significant first. -/
def bigEndian : ℕ → ℕ → List UInt8
  | 0, _ => []
  | n + 1, v => bigEndian n (v / 256) ++ [UInt8.ofNat (v % 256)]

/-- The number that octets spell, most significant first. -/
def ofBigEndian (t : List UInt8) : ℕ := t.foldl (fun v c => v * 256 + c.toNat) 0

@[simp] theorem bigEndian_length (n v : ℕ) : (bigEndian n v).length = n := by
  induction n generalizing v with
  | zero => rfl
  | succ n ih => rw [bigEndian, List.length_append, ih, List.length_singleton]

theorem ofBigEndian_concat (t : List UInt8) (c : UInt8) :
    ofBigEndian (t ++ [c]) = ofBigEndian t * 256 + c.toNat := by
  simp only [ofBigEndian, List.foldl_append, List.foldl_cons, List.foldl_nil]

theorem ofBigEndian_lt (t : List UInt8) : ofBigEndian t < 256 ^ t.length := by
  induction t using List.reverseRecOn with
  | nil => exact Nat.one_pos
  | append_singleton t c ih =>
    rw [ofBigEndian_concat, List.length_append, List.length_singleton, Nat.pow_succ]
    have := c.toNat_lt
    omega

theorem ofBigEndian_append (x y : List UInt8) :
    ofBigEndian (x ++ y) = ofBigEndian x * 256 ^ y.length + ofBigEndian y := by
  induction y using List.reverseRecOn with
  | nil => simp [ofBigEndian]
  | append_singleton y c ih =>
    rw [← List.append_assoc, ofBigEndian_concat, ofBigEndian_concat, ih, List.length_append,
      List.length_singleton, pow_succ]
    ring

theorem ofBigEndian_cons (c : UInt8) (t : List UInt8) :
    ofBigEndian (c :: t) = c.toNat * 256 ^ t.length + ofBigEndian t := by
  rw [← List.singleton_append, ofBigEndian_append]
  simp [ofBigEndian]

theorem ofBigEndian_replicate_zero (n : ℕ) : ofBigEndian (List.replicate n 0) = 0 := by
  induction n with
  | zero => rfl
  | succ n ih => rw [List.replicate_succ, ofBigEndian_cons, ih]; simp

/-- Leading zeros do not count. -/
theorem ofBigEndian_dropWhile (t : List UInt8) : ofBigEndian (t.dropWhile (· == 0)) = ofBigEndian t := by
  induction t with
  | nil => rfl
  | cons c t ih =>
    by_cases hc : c = 0
    · subst hc
      rw [List.dropWhile_cons_of_pos (by rfl), ih, ofBigEndian_cons]
      simp
    · rw [List.dropWhile_cons_of_neg (by simpa using hc)]

/-- Without leading zeros the number tells the length. -/
theorem dropWhile_length_le (t : List UInt8) (n : ℕ) :
    (t.dropWhile (· == 0)).length ≤ n ↔ ofBigEndian t < 256 ^ n := by
  rw [← ofBigEndian_dropWhile t]
  cases h : t.dropWhile (· == 0) with
  | nil => simp [ofBigEndian]
  | cons c rest =>
    have hc : c ≠ 0 := by
      intro hc
      have := List.head?_dropWhile_not (· == 0) t
      rw [h, hc] at this
      simp at this
    have hpos : 1 ≤ c.toNat := by
      rw [Nat.one_le_iff_ne_zero]
      intro h0
      exact hc (UInt8.toNat_inj.1 h0)
    constructor
    · intro hle
      exact (ofBigEndian_lt _).trans_le (Nat.pow_le_pow_right (by norm_num) hle)
    · intro hlt
      rw [ofBigEndian_cons] at hlt
      have hpow : 256 ^ rest.length < 256 ^ n := by
        have := Nat.le_mul_of_pos_left (256 ^ rest.length) hpos
        omega
      exact (Nat.pow_lt_pow_iff_right (by norm_num)).1 hpow

/-- What was written is read back. -/
theorem ofBigEndian_bigEndian {n v : ℕ} (h : v < 256 ^ n) : ofBigEndian (bigEndian n v) = v := by
  induction n generalizing v with
  | zero =>
    obtain rfl : v = 0 := by simpa using h
    rfl
  | succ n ih =>
    have hc : (UInt8.ofNat (v % 256)).toNat = v % 256 := by
      rw [UInt8.toNat_ofNat']
      omega
    rw [Nat.pow_succ] at h
    rw [bigEndian, ofBigEndian_concat, ih (by omega), hc]
    omega

/-- What was read is written again. -/
theorem bigEndian_ofBigEndian (t : List UInt8) : bigEndian t.length (ofBigEndian t) = t := by
  induction t using List.reverseRecOn with
  | nil => rfl
  | append_singleton t c ih =>
    have hc := c.toNat_lt
    rw [List.length_append, List.length_singleton, bigEndian, ofBigEndian_concat,
      show (ofBigEndian t * 256 + c.toNat) / 256 = ofBigEndian t by omega, ih,
      show (ofBigEndian t * 256 + c.toNat) % 256 = c.toNat by omega, UInt8.ofNat_toNat]

theorem bigEndian_inj {n v w : ℕ} (hv : v < 256 ^ n) (hw : w < 256 ^ n)
    (h : bigEndian n v = bigEndian n w) : v = w := by
  rw [← ofBigEndian_bigEndian hv, h, ofBigEndian_bigEndian hw]

end BigEndian
