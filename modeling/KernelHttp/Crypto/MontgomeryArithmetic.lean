/-
  What the limb functions compute (`Crypto.Montgomery`).

  One conservation law for each loop: what a limb does not hold is in the carry or the borrow.
-/
import KernelHttp.Crypto.LittleEndian
import KernelHttp.Crypto.Montgomery
import KernelHttp.Lib.Redc

namespace KernelHttp.Crypto

open BigEndian

/-- The number of an array of limbs. -/
def limbsValue (limbs : Limbs32) : ℕ := Nat.ofDigits (2 ^ 32) (limbs.map UInt32.toNat)

@[simp] theorem limbsValue_nil : limbsValue [] = 0 := rfl

@[simp] theorem limbsValue_cons (v : UInt32) (limbs : Limbs32) :
    limbsValue (v :: limbs) = v.toNat + 2 ^ 32 * limbsValue limbs := by
  simp [limbsValue, Nat.ofDigits_cons]

theorem limbsValue_append (x y : Limbs32) :
    limbsValue (x ++ y) = limbsValue x + 2 ^ (32 * x.length) * limbsValue y := by
  simp [limbsValue, Nat.ofDigits_append, pow_mul]

theorem limbsValue_lt (limbs : Limbs32) : limbsValue limbs < 2 ^ (32 * limbs.length) := by
  induction limbs with
  | nil => simp
  | cons v limbs ih =>
    have hv := v.toNat_lt
    rw [limbsValue_cons, List.length_cons, show 32 * (limbs.length + 1) = 32 + 32 * limbs.length by ring,
      pow_add]
    omega

theorem limbsValue_replicate (n : ℕ) : limbsValue (List.replicate n 0) = 0 := by
  induction n with
  | zero => rfl
  | succ n ih => rw [List.replicate_succ, limbsValue_cons, ih]; rfl

section words

/-- A `ULONGLONG` is its low half and its high half. -/
theorem halves (v : UInt64) :
    v.toUInt32.toNat + 2 ^ 32 * (v >>> 32).toNat = v.toNat ∧ (v >>> 32).toNat < 2 ^ 32 := by
  have hv := v.toNat_lt
  have hhigh : (v >>> 32).toNat = v.toNat / 2 ^ 32 := by
    rw [UInt64.toNat_shiftRight, Nat.shiftRight_eq_div_pow]
    rfl
  rw [hhigh, UInt64.toNat_toUInt32]
  omega

variable {p : UInt32} {carry : UInt64}

theorem toNat_sum (hcarry : carry.toNat < 2 ^ 32) :
    (p.toUInt64 + carry).toNat = p.toNat + carry.toNat := by
  have hp := p.toNat_lt
  rw [UInt64.toNat_add, UInt32.toNat_toUInt64, Nat.mod_eq_of_lt (by omega)]

theorem toNat_product {f r : UInt32} (hcarry : carry.toNat < 2 ^ 32) :
    (f.toUInt64 * r.toUInt64 + p.toUInt64 + carry).toNat =
      f.toNat * r.toNat + p.toNat + carry.toNat := by
  have hp := p.toNat_lt
  have hproduct : f.toNat * r.toNat ≤ (2 ^ 32 - 1) * (2 ^ 32 - 1) :=
    Nat.mul_le_mul (Nat.le_sub_one_of_lt f.toNat_lt) (Nat.le_sub_one_of_lt r.toNat_lt)
  rw [UInt64.toNat_add, UInt64.toNat_add, UInt64.toNat_mul, UInt32.toNat_toUInt64,
    UInt32.toNat_toUInt64, UInt32.toNat_toUInt64]
  omega

end words

section octets

/-- What is shifted past a number is added to it. -/
theorem or_shifted {k x : ℕ} (hx : x < 2 ^ k) (y : ℕ) : x ||| y * 2 ^ k = 2 ^ k * y + x := by
  rw [Nat.two_pow_add_eq_or_of_lt hx, Nat.lor_comm, Nat.mul_comm]

/-- The limb of four octets is the number that they spell. -/
theorem limbOfBytes_spec (c d e f : UInt8) :
    (limbOfBytes [c, d, e, f]).toNat = decodeLittleEndian [c, d, e, f] := by
  have hc := c.toNat_lt
  have hd := d.toNat_lt
  have he := e.toNat_lt
  have hf := f.toNat_lt
  simp only [decodeLittleEndian_cons, show decodeLittleEndian [] = 0 from rfl]
  simp only [limbOfBytes, List.getD_cons_zero, List.getD_cons_succ, UInt32.toNat_or,
    UInt32.toNat_shiftLeft, UInt8.toNat_toUInt32, Nat.shiftLeft_eq]
  change c.toNat ||| d.toNat * 2 ^ 8 % 2 ^ 32 ||| e.toNat * 2 ^ 16 % 2 ^ 32 |||
    f.toNat * 2 ^ 24 % 2 ^ 32 = _
  rw [Nat.mod_eq_of_lt (by omega), Nat.mod_eq_of_lt (by omega), Nat.mod_eq_of_lt (by omega)]
  have hcd : 2 ^ 8 * d.toNat + c.toNat < 2 ^ 16 := by omega
  have hcde : 2 ^ 16 * e.toNat + (2 ^ 8 * d.toNat + c.toNat) < 2 ^ 24 := by omega
  rw [or_shifted hc, or_shifted hcd, or_shifted hcde]
  omega

variable {source : Bytes} {limbs : Limbs32} {n : ℕ}

/-- The limbs of octets, four to a limb, hold the number that these spell. -/
theorem littleEndianToLimbs_spec (hlen : source.length = 4 * n) :
    (littleEndianToLimbs n source).length = n ∧
      limbsValue (littleEndianToLimbs n source) = decodeLittleEndian source := by
  induction n generalizing source with
  | zero =>
    obtain rfl := List.length_eq_zero_iff.1 hlen
    exact ⟨rfl, rfl⟩
  | succ n ih =>
    match source, hlen with
    | c :: d :: e :: f :: source, hlen =>
      obtain ⟨hlength, hvalue⟩ := @ih source (by simpa [Nat.mul_succ] using hlen)
      rw [littleEndianToLimbs]
      refine ⟨congrArg (· + 1) hlength, ?_⟩
      rw [limbsValue_cons]
      change (limbOfBytes [c, d, e, f]).toNat + 2 ^ 32 * limbsValue (littleEndianToLimbs n source) = _
      rw [limbOfBytes_spec, hvalue]
      simp only [decodeLittleEndian_cons, show decodeLittleEndian [] = 0 from rfl]
      ring

theorem bigEndianToLimbs_spec (hlen : source.length = 4 * n) :
    (bigEndianToLimbs n source).length = n ∧
      limbsValue (bigEndianToLimbs n source) = ofBigEndian source := by
  have hspec := littleEndianToLimbs_spec (by rwa [List.length_reverse] : source.reverse.length = 4 * n)
  rwa [decodeLittleEndian, List.reverse_reverse] at hspec

theorem bytesOfLimb_spec (v : UInt32) (w : ℕ) (n : ℕ) :
    (bigEndian (n + 4) (v.toNat + 2 ^ 32 * w)).reverse =
      bytesOfLimb v ++ (bigEndian n w).reverse := by
  have hv := v.toNat_lt
  have hshift : ∀ k : UInt32, (v >>> k).toUInt8 = UInt8.ofNat (v.toNat / 2 ^ (k.toNat % 32) % 256) := by
    intro k
    apply UInt8.toNat_inj.1
    rw [UInt32.toNat_toUInt8, UInt32.toNat_shiftRight, Nat.shiftRight_eq_div_pow, UInt8.toNat_ofNat']
    omega
  have hlow : v.toUInt8 = UInt8.ofNat (v.toNat % 256) := by
    apply UInt8.toNat_inj.1
    rw [UInt32.toNat_toUInt8, UInt8.toNat_ofNat']
    omega
  have hdigits : ∀ k ≤ 24, (v.toNat + 2 ^ 32 * w) / 2 ^ k % 256 = v.toNat / 2 ^ k % 256 := by
    intro k hk
    rw [show (2 : ℕ) ^ 32 * w = 2 ^ k * (2 ^ 8 * (2 ^ (24 - k) * w)) by
      rw [← mul_assoc, ← mul_assoc, ← pow_add, ← pow_add]
      congr 2
      omega, Nat.add_mul_div_left _ _ (by positivity)]
    exact Nat.add_mul_mod_self_left _ 256 _
  have hrest : (v.toNat + 2 ^ 32 * w) / 2 ^ 32 = w := by omega
  have h₀ := hdigits 0 (by norm_num)
  have h₁ := hdigits 8 (by norm_num)
  have h₂ := hdigits 16 (by norm_num)
  have h₃ := hdigits 24 (by norm_num)
  rw [pow_zero, Nat.div_one, Nat.div_one] at h₀
  rw [littleEndian_succ, littleEndian_succ, littleEndian_succ, littleEndian_succ, bytesOfLimb, hlow,
    hshift, hshift, hshift]
  simp only [Nat.div_div_eq_div_mul]
  change UInt8.ofNat _ :: UInt8.ofNat ((v.toNat + 2 ^ 32 * w) / 2 ^ 8 % 256) ::
      UInt8.ofNat ((v.toNat + 2 ^ 32 * w) / 2 ^ 16 % 256) ::
      UInt8.ofNat ((v.toNat + 2 ^ 32 * w) / 2 ^ 24 % 256) ::
      (bigEndian n ((v.toNat + 2 ^ 32 * w) / 2 ^ 32)).reverse = _
  rw [h₀, h₁, h₂, h₃, hrest]
  rfl

/-- The octets of limbs are those of their number. -/
theorem flatMap_bytesOfLimb (limbs : Limbs32) :
    limbs.flatMap bytesOfLimb = (bigEndian (4 * limbs.length) (limbsValue limbs)).reverse := by
  induction limbs with
  | nil => rfl
  | cons v limbs ih =>
    rw [List.flatMap_cons, ih, limbsValue_cons, List.length_cons, Nat.mul_succ, bytesOfLimb_spec]

theorem limbsToLittleEndian_spec (hlen : limbs.length = n) :
    limbsToLittleEndian limbs (4 * n) = (bigEndian (4 * n) (limbsValue limbs)).reverse := by
  rw [limbsToLittleEndian, flatMap_bytesOfLimb, hlen, List.take_left' (by simp)]

theorem limbsToBigEndian_spec (hlen : limbs.length = n) :
    limbsToBigEndian limbs (4 * n) = bigEndian (4 * n) (limbsValue limbs) := by
  rw [limbsToBigEndian, limbsToLittleEndian_spec hlen, List.reverse_reverse]

end octets

section rows

variable (factor : UInt32) {carry : UInt64} {right product : Limbs32}

@[simp] theorem propagateCarry_length : (propagateCarry carry product).1.length = product.length := by
  induction product generalizing carry with
  | nil => rfl
  | cons p product ih =>
    rw [propagateCarry]
    split
    · rfl
    · simp [ih]

theorem propagateCarry_spec (hcarry : carry.toNat < 2 ^ 32) :
    limbsValue (propagateCarry carry product).1 +
        2 ^ (32 * product.length) * (propagateCarry carry product).2.toNat =
      limbsValue product + carry.toNat := by
  induction product generalizing carry with
  | nil => simp [propagateCarry]
  | cons p product ih =>
    rw [propagateCarry]
    split
    case isTrue h => simp [h]
    case isFalse h =>
      obtain ⟨hhalves, hhigh⟩ := halves (p.toUInt64 + carry)
      rw [toNat_sum hcarry] at hhalves
      have hrest := ih hhigh
      rw [limbsValue_cons, limbsValue_cons, List.length_cons,
        show 32 * (product.length + 1) = 32 + 32 * product.length by ring, pow_add]
      linear_combination hhalves + 2 ^ 32 * hrest

@[simp] theorem accumulateRow_length (carry : UInt64) (right product : Limbs32) :
    (accumulateRow factor carry right product).1.length = product.length := by
  induction right generalizing carry product with
  | nil => simp [accumulateRow]
  | cons r right ih =>
    cases product with
    | nil => simp [accumulateRow]
    | cons p product => simp [accumulateRow, ih]

/-- **A row adds `factor` times the limbs**; what does not fit is in the carry. -/
theorem accumulateRow_spec (hcarry : carry.toNat < 2 ^ 32) (hlen : right.length ≤ product.length) :
    limbsValue (accumulateRow factor carry right product).1 +
        2 ^ (32 * product.length) * (accumulateRow factor carry right product).2.toNat =
      limbsValue product + factor.toNat * limbsValue right + carry.toNat := by
  induction right generalizing carry product with
  | nil =>
    rw [accumulateRow, limbsValue_nil, mul_zero, add_zero]
    · exact propagateCarry_spec hcarry
    · simp
  | cons r right ih =>
    cases product with
    | nil => simp at hlen
    | cons p product =>
      obtain ⟨hhalves, hhigh⟩ :=
        halves (factor.toUInt64 * r.toUInt64 + p.toUInt64 + carry)
      rw [toNat_product hcarry] at hhalves
      have hrest := ih hhigh (Nat.le_of_succ_le_succ hlen)
      rw [accumulateRow, limbsValue_cons, limbsValue_cons, limbsValue_cons, List.length_cons,
        show 32 * (product.length + 1) = 32 + 32 * product.length by ring, pow_add]
      linear_combination hhalves + 2 ^ 32 * hrest

/-- A row whose result fits ends without a carry. -/
theorem accumulateRow_fits (hlen : right.length ≤ product.length)
    (hfits : limbsValue product + factor.toNat * limbsValue right < 2 ^ (32 * product.length)) :
    (accumulateRow factor 0 right product).2 = 0 ∧
      limbsValue (accumulateRow factor 0 right product).1 =
        limbsValue product + factor.toNat * limbsValue right := by
  have hzero : (0 : UInt64).toNat < 2 ^ 32 := by decide
  have hspec := accumulateRow_spec factor hzero hlen
  rw [UInt64.toNat_zero, add_zero] at hspec
  have hlast : (accumulateRow factor 0 right product).2.toNat = 0 := by
    by_contra hne
    have := Nat.le_mul_of_pos_right (2 ^ (32 * product.length)) (Nat.pos_of_ne_zero hne)
    omega
  rw [hlast, mul_zero, add_zero] at hspec
  exact ⟨UInt64.toNat_inj.1 hlast, hspec⟩

end rows

section product

variable {left right product : Limbs32}

@[simp] theorem multiplyRows_length : (multiplyRows left right product).length = product.length := by
  induction left generalizing product with
  | nil => rfl
  | cons l left ih =>
    have hlen := accumulateRow_length l 0 right product
    rw [multiplyRows]
    split
    case h_1 h => simp_all
    case h_2 p rest h =>
      rw [h] at hlen
      simpa [ih] using hlen

theorem multiplyRows_spec (hlen : left.length + right.length ≤ product.length)
    (hfits : limbsValue product + limbsValue left * limbsValue right < 2 ^ (32 * product.length)) :
    limbsValue (multiplyRows left right product) =
      limbsValue product + limbsValue left * limbsValue right := by
  induction left generalizing product with
  | nil => simp [multiplyRows]
  | cons l left ih =>
    rw [limbsValue_cons] at hfits ⊢
    have hrow : limbsValue product + l.toNat * limbsValue right < 2 ^ (32 * product.length) := by
      refine lt_of_le_of_lt ?_ hfits
      gcongr
      exact Nat.le_add_right _ _
    have hcount := accumulateRow_length l 0 right product
    have hright : right.length ≤ product.length := by
      rw [List.length_cons] at hlen
      omega
    obtain ⟨-, hvalue⟩ := accumulateRow_fits l hright hrow
    rw [multiplyRows]
    split
    case h_1 h =>
      rw [List.length_cons] at hlen
      rw [h, List.length_nil] at hcount
      omega
    case h_2 p rest h =>
      rw [h] at hcount hvalue
      rw [List.length_cons] at hlen hcount
      rw [limbsValue_cons] at hvalue
      have hsplit : 2 ^ (32 * product.length) = 2 ^ 32 * 2 ^ (32 * rest.length) := by
        rw [← hcount, ← pow_add]
        ring_nf
      have hrest : limbsValue rest + limbsValue left * limbsValue right < 2 ^ (32 * rest.length) := by
        refine Nat.lt_of_mul_lt_mul_left (a := 2 ^ 32) ?_
        rw [← hsplit]
        refine lt_of_le_of_lt ?_ hfits
        linarith [Nat.zero_le p.toNat]
      rw [limbsValue_cons, ih (by omega) hrest]
      linear_combination hvalue

theorem multiplyLimbs_spec {productCount : ℕ} (hlen : left.length + right.length ≤ productCount) :
    (multiplyLimbs left right productCount).length = productCount ∧
      limbsValue (multiplyLimbs left right productCount) = limbsValue left * limbsValue right := by
  have hzero := limbsValue_replicate productCount
  have hfits : limbsValue left * limbsValue right < 2 ^ (32 * productCount) := by
    calc limbsValue left * limbsValue right
        < 2 ^ (32 * left.length) * 2 ^ (32 * right.length) :=
          Nat.mul_lt_mul'' (limbsValue_lt left) (limbsValue_lt right)
      _ = 2 ^ (32 * (left.length + right.length)) := by rw [← pow_add]; ring_nf
      _ ≤ 2 ^ (32 * productCount) := Nat.pow_le_pow_right (by norm_num) (by omega)
  constructor
  · rw [multiplyLimbs, multiplyRows_length, List.length_replicate]
  · rw [multiplyLimbs, multiplyRows_spec (by rwa [List.length_replicate])
      (by rwa [hzero, zero_add, List.length_replicate]), hzero, zero_add]

end product

section differences

variable {left right : Limbs32}

theorem subtractLoop_length (borrow : UInt64) (hlen : left.length = right.length) :
    (subtractLoop borrow left right).1.length = left.length := by
  induction left generalizing right borrow with
  | nil => rfl
  | cons l left ih =>
    cases right with
    | nil => simp at hlen
    | cons r right => simp [subtractLoop, ih _ (by simpa using hlen)]

variable {borrow : UInt64}

theorem toNat_difference (l r : UInt32) (hborrow : borrow.toNat ≤ 1) :
    (l.toUInt64 - (r.toUInt64 + borrow)).toUInt32.toNat + (r.toNat + borrow.toNat) =
      l.toNat + 2 ^ 32 *
        (if l.toUInt64 < r.toUInt64 + borrow then 1 else 0 : UInt64).toNat := by
  have hl := l.toNat_lt
  have hr := r.toNat_lt
  have hsum : (r.toUInt64 + borrow).toNat = r.toNat + borrow.toNat := toNat_sum (by omega)
  rw [UInt64.toNat_toUInt32, UInt64.toNat_sub, hsum, UInt32.toNat_toUInt64]
  by_cases h : l.toUInt64 < r.toUInt64 + borrow
  · rw [if_pos h, UInt64.toNat_one]
    rw [UInt64.lt_iff_toNat_lt, hsum, UInt32.toNat_toUInt64] at h
    omega
  · rw [if_neg h, UInt64.toNat_zero]
    rw [UInt64.lt_iff_toNat_lt, hsum, UInt32.toNat_toUInt64] at h
    omega

/-- The difference, with the borrow behind it. -/
theorem subtractLoop_spec (hborrow : borrow.toNat ≤ 1) (hlen : left.length = right.length) :
    limbsValue (subtractLoop borrow left right).1 + (limbsValue right + borrow.toNat) =
        limbsValue left + 2 ^ (32 * left.length) * (subtractLoop borrow left right).2.toNat ∧
      (subtractLoop borrow left right).2.toNat ≤ 1 := by
  induction left generalizing right borrow with
  | nil =>
    cases right with
    | nil => simpa [subtractLoop] using hborrow
    | cons r right => simp at hlen
  | cons l left ih =>
    cases right with
    | nil => simp at hlen
    | cons r right =>
      have hlimb := toNat_difference l r hborrow
      have hnext : (if l.toUInt64 < r.toUInt64 + borrow then 1 else 0 : UInt64).toNat ≤ 1 := by
        split <;> decide
      obtain ⟨hrest, hlast⟩ := ih hnext (Nat.succ.inj hlen)
      refine ⟨?_, hlast⟩
      rw [subtractLoop, limbsValue_cons, limbsValue_cons, limbsValue_cons, List.length_cons,
        show 32 * (left.length + 1) = 32 + 32 * left.length by ring, pow_add]
      linear_combination hlimb + 2 ^ 32 * hrest

theorem compareLimbs_range (left right : Limbs32) :
    compareLimbs left right = -1 ∨ compareLimbs left right = 0 ∨
      compareLimbs left right = 1 := by
  induction left generalizing right with
  | nil => simp [compareLimbs]
  | cons l left ih =>
    cases right with
    | nil => simp [compareLimbs]
    | cons r right =>
      rw [compareLimbs]
      split
      · exact ih right
      · split_ifs <;> simp

theorem compareLimbs_spec (hlen : left.length = right.length) :
    (compareLimbs left right = -1 ↔ limbsValue left < limbsValue right) ∧
      (compareLimbs left right = 1 ↔ limbsValue right < limbsValue left) := by
  induction left generalizing right with
  | nil =>
    cases right with
    | nil => simp [compareLimbs]
    | cons r right => simp at hlen
  | cons l left ih =>
    cases right with
    | nil => simp at hlen
    | cons r right =>
      have hl := l.toNat_lt
      have hr := r.toNat_lt
      obtain ⟨hlt, hgt⟩ := ih (Nat.succ.inj hlen)
      rw [compareLimbs, limbsValue_cons, limbsValue_cons]
      rcases compareLimbs_range left right with h | h | h
      · have := hlt.1 h
        rw [if_pos (by rw [h]; decide), h]
        exact ⟨iff_of_true rfl (by omega), iff_of_false (by decide) (by omega)⟩
      · -- The higher limbs agree, so these two decide.
        have heq : limbsValue left = limbsValue right := by
          rw [h] at hlt hgt
          exact le_antisymm (not_lt.1 fun hlt' => by simpa using hgt.2 hlt')
            (not_lt.1 fun hgt' => by simpa using hlt.2 hgt')
        rw [if_neg (not_not.2 h), heq]
        simp only [UInt32.lt_iff_toNat_lt, gt_iff_lt]
        split_ifs with hl' hr'
        · exact ⟨iff_of_true rfl (by omega), iff_of_false (by decide) (by omega)⟩
        · exact ⟨iff_of_false (by decide) (by omega), iff_of_true rfl (by omega)⟩
        · exact ⟨iff_of_false (by decide) (by omega), iff_of_false (by decide) (by omega)⟩
      · have := hgt.1 h
        rw [if_pos (by rw [h]; decide), h]
        exact ⟨iff_of_false (by decide) (by omega), iff_of_true rfl (by omega)⟩

theorem compareLimbs_nonneg (hlen : left.length = right.length) :
    compareLimbs left right ≥ 0 ↔ limbsValue right ≤ limbsValue left := by
  have hspec := (compareLimbs_spec hlen).1
  rw [← not_lt, ← hspec]
  rcases compareLimbs_range left right with h | h | h
  · rw [h]; decide
  · rw [h]; decide
  · rw [h]; decide

theorem subtractLimbsInPlace_spec (hlen : left.length = right.length)
    (hle : limbsValue right ≤ limbsValue left) :
    (subtractLimbsInPlace left right).length = left.length ∧
      limbsValue (subtractLimbsInPlace left right) = limbsValue left - limbsValue right := by
  have hzero : (0 : UInt64).toNat ≤ 1 := by decide
  obtain ⟨hvalue, -⟩ := subtractLoop_spec hzero hlen
  have hlt := limbsValue_lt (subtractLoop 0 left right).1
  rw [subtractLoop_length 0 hlen] at hlt
  refine ⟨subtractLoop_length 0 hlen, ?_⟩
  rw [UInt64.toNat_zero] at hvalue
  rcases Nat.eq_zero_or_pos (subtractLoop 0 left right).2.toNat with h | h
  · rw [h] at hvalue
    rw [subtractLimbsInPlace]
    omega
  · have := Nat.le_mul_of_pos_right (2 ^ (32 * left.length)) h
    omega

end differences

section sums

variable {left right : Limbs32}

theorem addLoop_length (carry : UInt64) (hlen : left.length = right.length) :
    (addLoop carry left right).1.length = left.length := by
  induction left generalizing right carry with
  | nil => rfl
  | cons l left ih =>
    cases right with
    | nil => simp at hlen
    | cons r right => simp [addLoop, ih _ (Nat.succ.inj hlen)]

/-- The sum, with the carry behind it. -/
theorem addLoop_spec {carry : UInt64} (hcarry : carry.toNat ≤ 1)
    (hlen : left.length = right.length) :
    limbsValue (addLoop carry left right).1 +
          2 ^ (32 * left.length) * (addLoop carry left right).2.toNat =
        limbsValue left + limbsValue right + carry.toNat ∧
      (addLoop carry left right).2.toNat ≤ 1 := by
  induction left generalizing right carry with
  | nil =>
    cases right with
    | nil => simpa [addLoop] using hcarry
    | cons r right => simp at hlen
  | cons l left ih =>
    cases right with
    | nil => simp at hlen
    | cons r right =>
      have hl := l.toNat_lt
      have hr := r.toNat_lt
      obtain ⟨hhalves, -⟩ := halves (l.toUInt64 + r.toUInt64 + carry)
      have hsum : (l.toUInt64 + r.toUInt64 + carry).toNat = l.toNat + r.toNat + carry.toNat := by
        rw [UInt64.toNat_add, UInt64.toNat_add, UInt32.toNat_toUInt64, UInt32.toNat_toUInt64]
        omega
      rw [hsum] at hhalves
      have hnext : ((l.toUInt64 + r.toUInt64 + carry) >>> 32).toNat ≤ 1 := by omega
      obtain ⟨hrest, hlast⟩ := ih hnext (Nat.succ.inj hlen)
      refine ⟨?_, hlast⟩
      rw [addLoop, limbsValue_cons, limbsValue_cons, limbsValue_cons, List.length_cons,
        show 32 * (left.length + 1) = 32 + 32 * left.length by ring, pow_add]
      linear_combination hhalves + 2 ^ 32 * hrest

theorem shiftLoop_length (carry : UInt32) (value : Limbs32) :
    (shiftLoop carry value).1.length = value.length := by
  induction value generalizing carry with
  | nil => rfl
  | cons v value ih => simp [shiftLoop, ih]

variable {carry : UInt32}

theorem toNat_shift (v : UInt32) (hcarry : carry.toNat ≤ 1) :
    ((v <<< 1) ||| carry).toNat + 2 ^ 32 * ((v >>> 31) &&& 1).toNat =
        2 * v.toNat + carry.toNat ∧
      ((v >>> 31) &&& 1).toNat ≤ 1 := by
  have hv := v.toNat_lt
  have htop : ((v >>> 31) &&& 1).toNat = v.toNat / 2 ^ 31 := by
    rw [UInt32.toNat_and, UInt32.toNat_shiftRight, Nat.shiftRight_eq_div_pow]
    change v.toNat / 2 ^ 31 &&& 1 = _
    rw [Nat.and_one_is_mod]
    omega
  have hlow : ((v <<< 1) ||| carry).toNat = 2 * v.toNat % 2 ^ 32 + carry.toNat := by
    rw [UInt32.toNat_or, UInt32.toNat_shiftLeft, Nat.shiftLeft_eq]
    change v.toNat * 2 ^ 1 % 2 ^ 32 ||| _ = _
    rw [show v.toNat * 2 ^ 1 % 2 ^ 32 = 2 ^ 1 * (v.toNat % 2 ^ 31) by omega,
      ← Nat.two_pow_add_eq_or_of_lt (by omega)]
    omega
  rw [htop, hlow]
  omega

theorem shiftLoop_spec (hcarry : carry.toNat ≤ 1) (value : Limbs32) :
    limbsValue (shiftLoop carry value).1 + 2 ^ (32 * value.length) * (shiftLoop carry value).2.toNat =
      2 * limbsValue value + carry.toNat := by
  induction value generalizing carry with
  | nil => simp [shiftLoop]
  | cons v value ih =>
    obtain ⟨hlimb, hnext⟩ := toNat_shift v hcarry
    have hrest := ih hnext
    rw [shiftLoop, limbsValue_cons, limbsValue_cons, List.length_cons,
      show 32 * (value.length + 1) = 32 + 32 * value.length by ring, pow_add]
    linear_combination hlimb + 2 ^ 32 * hrest

end sums

section modular

variable {modulus : Limbs32}

/-- An array as long as the modulus with a number below it. -/
structure Residue (modulus x : Limbs32) : Prop where
  length : x.length = modulus.length
  lt : limbsValue x < limbsValue modulus

variable {candidate : Limbs32}

theorem limbsValue_split {n : ℕ} (hlen : candidate.length = n + 1) :
    limbsValue candidate =
      limbsValue (candidate.take n) + 2 ^ (32 * n) * (candidate.getD n 0).toNat := by
  have hsplit : candidate = candidate.take n ++ [candidate.getD n 0] := by
    rw [List.getD_eq_getElem _ _ (by omega), List.take_append_getElem (by omega),
      List.take_of_length_le (by omega)]
  conv_lhs => rw [hsplit]
  rw [limbsValue_append, List.length_take, min_eq_left (by omega)]
  simp

/-- A number below twice the modulus is reduced by one subtraction. -/
theorem mod_of_lt_two_mul {v N : ℕ} (h : v < 2 * N) : v % N = if N ≤ v then v - N else v := by
  split
  case isTrue hle => rw [Nat.mod_eq_sub_mod hle, Nat.mod_eq_of_lt (by omega)]
  case isFalse hlt => exact Nat.mod_eq_of_lt (by omega)

theorem compareCandidateToModulus_nonneg (hlen : candidate.length = modulus.length + 1) :
    compareCandidateToModulus candidate modulus ≥ 0 ↔ limbsValue modulus ≤ limbsValue candidate := by
  have hlow : (candidate.take modulus.length).length = modulus.length := by
    rw [List.length_take, hlen]
    omega
  have hmodulus := limbsValue_lt modulus
  rw [compareCandidateToModulus, if_neg (not_not.2 hlen), limbsValue_split hlen]
  by_cases htop : candidate.getD modulus.length 0 = 0
  · rw [if_neg (not_not.2 htop), compareLimbs_nonneg hlow, htop]
    simp
  · rw [if_pos htop]
    have hpos : 0 < (candidate.getD modulus.length 0).toNat := by
      rw [Nat.pos_iff_ne_zero]
      intro h
      exact htop (UInt32.toNat_inj.1 h)
    have := Nat.le_mul_of_pos_right (2 ^ (32 * modulus.length)) hpos
    exact iff_of_true (by decide) (by omega)

/-- **The end of a reduction** takes the remainder of a number below twice the modulus. -/
theorem reduceCandidate_spec (hlen : candidate.length = modulus.length + 1)
    (hlt : limbsValue candidate < 2 * limbsValue modulus) :
    (reduceCandidate candidate modulus).length = modulus.length ∧
      limbsValue (reduceCandidate candidate modulus) = limbsValue candidate % limbsValue modulus := by
  have hmodulus := limbsValue_lt modulus
  have hlow : (candidate.take modulus.length).length = modulus.length := by
    rw [List.length_take, hlen]
    omega
  rw [mod_of_lt_two_mul hlt, reduceCandidate]
  by_cases hle : limbsValue modulus ≤ limbsValue candidate
  · have hzero : (0 : UInt64).toNat ≤ 1 := by decide
    have hcount := subtractLoop_length 0 hlow
    obtain ⟨hvalue, hborrow⟩ := subtractLoop_spec hzero hlow
    rw [UInt64.toNat_zero] at hvalue
    rw [if_pos ((compareCandidateToModulus_nonneg hlen).2 hle), if_pos hle,
      subtractModulusFromCandidate, List.take_left' (by rw [hcount, hlow])]
    refine ⟨by rw [hcount, hlow], ?_⟩
    have hresult := limbsValue_lt (subtractLoop 0 (candidate.take modulus.length) modulus).1
    have hsplit := limbsValue_split hlen
    rw [hcount, hlow] at hresult
    rw [hlow] at hvalue
    generalize (subtractLoop 0 (candidate.take modulus.length) modulus).2.toNat = borrow at *
    generalize (candidate.getD modulus.length 0).toNat = top at *
    generalize limbsValue (subtractLoop 0 (candidate.take modulus.length) modulus).1 = low at *
    -- The top limb is the borrow, for the difference is below the modulus.
    have hdiff : limbsValue candidate - limbsValue modulus + 2 ^ (32 * modulus.length) * borrow =
        low + 2 ^ (32 * modulus.length) * top := by omega
    have htop : top = borrow := by
      have hq := congrArg (· / 2 ^ (32 * modulus.length)) hdiff
      rw [Nat.add_mul_div_left _ _ (by positivity), Nat.add_mul_div_left _ _ (by positivity),
        Nat.div_eq_of_lt (by omega), Nat.div_eq_of_lt hresult] at hq
      omega
    rw [htop] at hdiff
    omega
  · rw [if_neg (mt (compareCandidateToModulus_nonneg hlen).1 hle), if_neg hle]
    refine ⟨hlow, ?_⟩
    have hsplit := limbsValue_split hlen
    rcases Nat.eq_zero_or_pos (candidate.getD modulus.length 0).toNat with h | h
    · rw [h] at hsplit
      omega
    · have := Nat.le_mul_of_pos_right (2 ^ (32 * modulus.length)) h
      omega

end modular

end KernelHttp.Crypto
