/-
  Prefix codes given by tables of codewords.

  A table is `Chained` if its codewords, as intervals of numbers, follow each other without gap.
-/
import Mathlib

namespace PrefixCode

/-! ## Bits -/

/-- The `n` low bits of `c`, most significant first. -/
def bitsOf (c : ℕ) : ℕ → List ℕ
  | 0 => []
  | n + 1 => c / 2 ^ n % 2 :: bitsOf c n

@[simp] theorem bitsOf_zero (c : ℕ) : bitsOf c 0 = [] := rfl

@[simp] theorem bitsOf_length (c n : ℕ) : (bitsOf c n).length = n := by
  induction n with
  | zero => rfl
  | succ n ih => simp [bitsOf, ih]

variable {es : List (ℕ × ℕ)} {b n x : ℕ} {e e' : ℕ × ℕ}

theorem mem_bitsOf {c : ℕ} (h : b ∈ bitsOf c n) : b < 2 := by
  induction n with
  | zero => simp [bitsOf] at h
  | succ n ih =>
    rcases List.mem_cons.1 h with rfl | h
    · omega
    · exact ih h

/-- The bits of a number are those of its high part, then of its low part. -/
theorem bitsOf_split (c : ℕ) {lo k : ℕ} (hlo : lo < 2 ^ k) : ∀ n,
    bitsOf (c * 2 ^ k + lo) (n + k) = bitsOf c n ++ bitsOf lo k := by
  intro n
  induction n with
  | zero =>
    have : ∀ j, j ≤ k → bitsOf (c * 2 ^ k + lo) j = bitsOf lo j := by
      intro j hj
      induction j with
      | zero => rfl
      | succ j ih =>
        have hk : 2 ^ k = 2 ^ (k - j - 1) * 2 * 2 ^ j := by
          rw [mul_assoc, ← pow_succ', ← pow_add]; congr 1; omega
        rw [bitsOf, bitsOf, ih (by omega)]
        congr 1
        rw [hk, show c * (2 ^ (k - j - 1) * 2 * 2 ^ j) + lo =
          lo + 2 ^ j * (2 * (c * 2 ^ (k - j - 1))) by ring, Nat.add_mul_div_left _ _ (by positivity)]
        omega
    simpa [bitsOf] using this k le_rfl
  | succ n ih =>
    rw [show n + 1 + k = n + k + 1 by ring, bitsOf, bitsOf, ih, List.cons_append]
    congr 1
    rw [Nat.add_comm n k, pow_add, ← Nat.div_div_eq_div_mul,
      Nat.add_comm, Nat.add_mul_div_right _ _ (by positivity), Nat.div_eq_of_lt hlo, Nat.zero_add]

theorem bitsOf_snoc (c b n : ℕ) (hb : b < 2) : bitsOf (c * 2 + b) (n + 1) = bitsOf c n ++ [b] := by
  have h := bitsOf_split c (show b < 2 ^ 1 by simpa using hb) n
  simp only [pow_one] at h
  rw [h]
  simp [bitsOf, Nat.mod_eq_of_lt hb]

/-- The bits of a number below `2 ^ n` determine it. -/
theorem bitsOf_inj {a : ℕ} (ha : a < 2 ^ n) (hb : b < 2 ^ n) (h : bitsOf a n = bitsOf b n) :
    a = b := by
  induction n generalizing a b with
  | zero => simp at ha hb; omega
  | succ n ih =>
    have hsplit : ∀ c, bitsOf c (n + 1) = bitsOf (c / 2) n ++ [c % 2] := by
      intro c
      have := bitsOf_snoc (c / 2) (c % 2) n (Nat.mod_lt _ (by norm_num))
      rwa [Nat.div_add_mod'] at this
    rw [hsplit, hsplit] at h
    obtain ⟨hhi, hlo⟩ := List.append_inj h (by simp)
    rw [pow_succ] at ha hb
    have := ih (by omega) (by omega) hhi
    simp only [List.cons.injEq, and_true] at hlo
    omega

theorem bitsOf_ones (k : ℕ) : bitsOf (2 ^ k - 1) k = List.replicate k 1 := by
  induction k with
  | zero => rfl
  | succ k ih =>
    have h : 2 ^ (k + 1) - 1 = (2 ^ k - 1) * 2 + 1 := by
      have := Nat.two_pow_pos k; rw [pow_succ]; omega
    rw [h, bitsOf_snoc _ _ _ (by norm_num), ih, List.replicate_succ']

/-- Reading one more bit of a codeword. -/
theorem div_two_pow_succ (c n : ℕ) : c / 2 ^ (n + 1) * 2 + c / 2 ^ n % 2 = c / 2 ^ n := by
  rw [pow_succ, ← Nat.div_div_eq_div_mul]; omega

/-! ## Chained tables -/

/-- The codewords `(code, len)`, as intervals of numbers of `L` bits, follow
    each other from `x` on. -/
def Chained (L : ℕ) : ℕ → List (ℕ × ℕ) → Prop
  | _, [] => True
  | x, (c, l) :: es => l ≤ L ∧ c * 2 ^ (L - l) = x ∧ Chained L ((c + 1) * 2 ^ (L - l)) es

instance decidableChained (L : ℕ) : ∀ x es, Decidable (Chained L x es)
  | _, [] => .isTrue trivial
  | _, (c, l) :: es =>
    have := decidableChained L ((c + 1) * 2 ^ (L - l)) es
    inferInstanceAs (Decidable (_ ∧ _ ∧ _))

variable {L : ℕ}

theorem Chained.len_le (h : Chained L x es) :
    ∀ e ∈ es, e.2 ≤ L := by
  induction es generalizing x with
  | nil => simp
  | cons e es ih =>
    obtain ⟨hl, -, h⟩ := h
    intro e' he'
    rcases List.mem_cons.1 he' with rfl | he'
    · exact hl
    · exact ih h e' he'

/-- Every interval of a chained table lies at or above its start. -/
theorem Chained.start_le (h : Chained L x es) :
    ∀ e ∈ es, x ≤ e.1 * 2 ^ (L - e.2) := by
  induction es generalizing x with
  | nil => simp
  | cons e es ih =>
    obtain ⟨-, hx, h⟩ := h
    intro e' he'
    rcases List.mem_cons.1 he' with rfl | he'
    · exact hx.ge
    · calc x = e.1 * 2 ^ (L - e.2) := hx.symm
        _ ≤ (e.1 + 1) * 2 ^ (L - e.2) := Nat.mul_le_mul_right _ (Nat.le_succ _)
        _ ≤ e'.1 * 2 ^ (L - e'.2) := ih h e' he'

/-- The codewords of a chained table are pairwise different. -/
theorem Chained.nodup (h : Chained L x es) : es.Nodup := by
  induction es generalizing x with
  | nil => exact List.nodup_nil
  | cons e es ih =>
    obtain ⟨-, -, h⟩ := h
    refine List.nodup_cons.2 ⟨fun he => ?_, ih h⟩
    have hle := h.start_le e he
    have hpos := Nat.two_pow_pos (L - e.2)
    rw [add_mul] at hle
    omega

/-- Two intervals of a chained table that meet are the same. -/
theorem Chained.eq_of_meet (h : Chained L x es)
    (he : e ∈ es) (he' : e' ∈ es) (h1 : e.1 * 2 ^ (L - e.2) < (e'.1 + 1) * 2 ^ (L - e'.2))
    (h2 : e'.1 * 2 ^ (L - e'.2) < (e.1 + 1) * 2 ^ (L - e.2)) : e = e' := by
  induction es generalizing x with
  | nil => simp at he
  | cons a es ih =>
    obtain ⟨-, -, h⟩ := h
    rcases List.mem_cons.1 he with ha | he <;> rcases List.mem_cons.1 he' with ha' | he'
    · rw [ha, ha']
    · have : (e.1 + 1) * 2 ^ (L - e.2) ≤ _ := ha ▸ h.start_le e' he'
      omega
    · have : (e'.1 + 1) * 2 ^ (L - e'.2) ≤ _ := ha' ▸ h.start_le e he
      omega
    · exact ih h he he'

/-- **No codeword of a chained table is a prefix of another.** -/
theorem Chained.eq_of_isPrefix (h : Chained L x es)
    (he : e ∈ es) (he' : e' ∈ es) (hl : e.2 ≤ e'.2) (hp : e'.1 / 2 ^ (e'.2 - e.2) = e.1) :
    e = e' := by
  have hL := h.len_le e' he'
  have hpow : 2 ^ (L - e.2) = 2 ^ (e'.2 - e.2) * 2 ^ (L - e'.2) := by
    rw [← pow_add]; congr 1; omega
  have hd := Nat.div_add_mod e'.1 (2 ^ (e'.2 - e.2))
  have hm := Nat.mod_lt e'.1 (Nat.two_pow_pos (e'.2 - e.2))
  rw [hp] at hd
  have hlo : e.1 * 2 ^ (e'.2 - e.2) ≤ e'.1 := by rw [mul_comm]; omega
  have hhi : e'.1 + 1 ≤ (e.1 + 1) * 2 ^ (e'.2 - e.2) := by rw [add_mul, mul_comm e.1]; omega
  have hpos := Nat.two_pow_pos (L - e'.2)
  refine h.eq_of_meet he he' ?_ ?_
  · calc e.1 * 2 ^ (L - e.2) = e.1 * 2 ^ (e'.2 - e.2) * 2 ^ (L - e'.2) := by rw [hpow, mul_assoc]
      _ ≤ e'.1 * 2 ^ (L - e'.2) := Nat.mul_le_mul_right _ hlo
      _ < (e'.1 + 1) * 2 ^ (L - e'.2) := by rw [add_mul]; omega
  · calc e'.1 * 2 ^ (L - e'.2) < (e'.1 + 1) * 2 ^ (L - e'.2) := by rw [add_mul]; omega
      _ ≤ (e.1 + 1) * 2 ^ (e'.2 - e.2) * 2 ^ (L - e'.2) := Nat.mul_le_mul_right _ hhi
      _ = (e.1 + 1) * 2 ^ (L - e.2) := by rw [hpow, mul_assoc]

end PrefixCode
