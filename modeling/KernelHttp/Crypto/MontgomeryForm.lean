/-
  Arithmetic modulo an odd number on limbs (`Crypto.Montgomery`).

  The functions are the ring operations on what a residue stands for (`montgomeryElement`).
-/
import KernelHttp.Crypto.MontgomeryArithmetic
import KernelHttp.Lib.Powering

namespace KernelHttp.Crypto

open BigEndian

section residues

variable {modulus left right x : Limbs32}

theorem Residue.lt_pow (h : Residue modulus x) : limbsValue x < 2 ^ (32 * modulus.length) :=
  h.lt.trans (limbsValue_lt modulus)

theorem leftShiftOneModulo_eq : leftShiftOneModulo modulus x =
    if (shiftLoop 0 x).2 ≠ 0 ∨ compareLimbs (shiftLoop 0 x).1 modulus ≥ 0 then
      (subtractLoop 0 (shiftLoop 0 x).1 modulus).1
    else (shiftLoop 0 x).1 := rfl

theorem leftShiftOneModulo_spec (h : Residue modulus x) :
    Residue modulus (leftShiftOneModulo modulus x) ∧
      limbsValue (leftShiftOneModulo modulus x) = 2 * limbsValue x % limbsValue modulus := by
  have hzero : (0 : UInt32).toNat ≤ 1 := by decide
  have hborrow : (0 : UInt64).toNat ≤ 1 := by decide
  have hlen : (shiftLoop 0 x).1.length = modulus.length := by rw [shiftLoop_length, h.length]
  have hdouble := shiftLoop_spec hzero x
  have hlow := limbsValue_lt (shiftLoop 0 x).1
  have hmodulus := limbsValue_lt modulus
  have hlt := h.lt
  rw [UInt32.toNat_zero, h.length] at hdouble
  rw [hlen] at hlow
  rw [mod_of_lt_two_mul (by omega : 2 * limbsValue x < 2 * limbsValue modulus),
    leftShiftOneModulo_eq]
  by_cases hreduce : (shiftLoop 0 x).2 ≠ 0 ∨ compareLimbs (shiftLoop 0 x).1 modulus ≥ 0
  · obtain ⟨hvalue, hlast⟩ := subtractLoop_spec hborrow hlen
    have hcount := subtractLoop_length 0 hlen
    have hresult := limbsValue_lt (subtractLoop 0 (shiftLoop 0 x).1 modulus).1
    rw [UInt64.toNat_zero, hlen] at hvalue
    rw [hcount, hlen] at hresult
    have hge : limbsValue modulus ≤ 2 * limbsValue x := by
      rcases hreduce with hcarry | hcompare
      · have hpos : 0 < (shiftLoop 0 x).2.toNat := by
          rw [Nat.pos_iff_ne_zero]
          intro h
          exact hcarry (UInt32.toNat_inj.1 h)
        have := Nat.le_mul_of_pos_right (2 ^ (32 * modulus.length)) hpos
        omega
      · have := (compareLimbs_nonneg hlen).1 hcompare
        omega
    rw [if_pos hreduce, if_pos hge]
    -- Borrow and carry cancel, for the result is below the modulus.
    have hdiff : limbsValue (subtractLoop 0 (shiftLoop 0 x).1 modulus).1 =
        2 * limbsValue x - limbsValue modulus := by
      have hq : 2 * limbsValue x - limbsValue modulus +
            2 ^ (32 * modulus.length) * (subtractLoop 0 (shiftLoop 0 x).1 modulus).2.toNat =
          limbsValue (subtractLoop 0 (shiftLoop 0 x).1 modulus).1 +
            2 ^ (32 * modulus.length) * (shiftLoop 0 x).2.toNat := by
        omega
      have hmod := congrArg (· % 2 ^ (32 * modulus.length)) hq
      rwa [Nat.add_mul_mod_self_left, Nat.add_mul_mod_self_left, Nat.mod_eq_of_lt (by omega),
        Nat.mod_eq_of_lt hresult, eq_comm] at hmod
    exact ⟨⟨by rw [hcount, hlen], by omega⟩, hdiff⟩
  · have hcarry : (shiftLoop 0 x).2 = 0 := by
      by_contra hne
      exact hreduce (Or.inl hne)
    have hcompare : ¬ limbsValue modulus ≤ limbsValue (shiftLoop 0 x).1 := fun hle =>
      hreduce (Or.inr ((compareLimbs_nonneg hlen).2 hle))
    rw [hcarry, UInt32.toNat_zero] at hdouble
    rw [if_neg hreduce, if_neg (by omega)]
    exact ⟨⟨hlen, by omega⟩, by omega⟩

theorem leftShiftOneModulo_iterate (h : Residue modulus x) (n : ℕ) :
    Residue modulus ((leftShiftOneModulo modulus)^[n] x) ∧
      limbsValue ((leftShiftOneModulo modulus)^[n] x) =
        limbsValue x * 2 ^ n % limbsValue modulus := by
  induction n with
  | zero =>
    rw [Function.iterate_zero_apply, pow_zero, mul_one, Nat.mod_eq_of_lt h.lt]
    exact ⟨h, rfl⟩
  | succ n ih =>
    obtain ⟨hresidue, hvalue⟩ := leftShiftOneModulo_spec ih.1
    rw [Function.iterate_succ_apply']
    refine ⟨hresidue, ?_⟩
    rw [hvalue, ih.2, Nat.mul_mod_mod, pow_succ]
    congr 1
    ring

theorem convertToMontgomery_spec (h : Residue modulus x) :
    Residue modulus (convertToMontgomery modulus x) ∧
      limbsValue (convertToMontgomery modulus x) =
        limbsValue x * 2 ^ (32 * modulus.length) % limbsValue modulus := by
  rw [Nat.mul_comm 32]
  exact leftShiftOneModulo_iterate h _

theorem addLimbsModulo_spec (hl : Residue modulus left) (hr : Residue modulus right) :
    Residue modulus (addLimbsModulo left right modulus) ∧
      limbsValue (addLimbsModulo left right modulus) =
        (limbsValue left + limbsValue right) % limbsValue modulus := by
  have hzero : (0 : UInt64).toNat ≤ 1 := by decide
  have hlen : left.length = right.length := hl.length.trans hr.length.symm
  obtain ⟨hvalue, hlast⟩ := addLoop_spec hzero hlen
  have hcount : ((addLoop 0 left right).1 ++ [(addLoop 0 left right).2.toUInt32]).length =
      modulus.length + 1 := by
    rw [List.length_append, addLoop_length 0 hlen, hl.length, List.length_singleton]
  have hsum : limbsValue ((addLoop 0 left right).1 ++ [(addLoop 0 left right).2.toUInt32]) =
      limbsValue left + limbsValue right := by
    have hcarry : (addLoop 0 left right).2.toUInt32.toNat = (addLoop 0 left right).2.toNat := by
      rw [UInt64.toNat_toUInt32]
      omega
    rw [limbsValue_append, addLoop_length 0 hlen, limbsValue_cons, limbsValue_nil, hcarry]
    simpa using hvalue
  have hlt : limbsValue left + limbsValue right < 2 * limbsValue modulus := by
    have := hl.lt
    have := hr.lt
    omega
  obtain ⟨hlength, hresult⟩ := reduceCandidate_spec hcount (by rwa [hsum])
  rw [hsum] at hresult
  refine ⟨⟨hlength, ?_⟩, hresult⟩
  rw [addLimbsModulo, hresult]
  exact Nat.mod_lt _ (Nat.zero_lt_of_lt hl.lt)

theorem subtractLimbsModulo_eq : subtractLimbsModulo left right modulus =
    if (subtractLoop 0 left right).2 ≠ 0 then
      (addLoop 0 (subtractLoop 0 left right).1 modulus).1
    else (subtractLoop 0 left right).1 := rfl

theorem subtractLimbsModulo_spec (hl : Residue modulus left) (hr : Residue modulus right) :
    Residue modulus (subtractLimbsModulo left right modulus) ∧
      limbsValue (subtractLimbsModulo left right modulus) =
        (limbsValue left + limbsValue modulus - limbsValue right) % limbsValue modulus := by
  have hzero : (0 : UInt64).toNat ≤ 1 := by decide
  have hlen : left.length = right.length := hl.length.trans hr.length.symm
  have hlt := hl.lt
  have hrt := hr.lt
  have hmodulus := limbsValue_lt modulus
  obtain ⟨hvalue, hlast⟩ := subtractLoop_spec hzero hlen
  have hcount := subtractLoop_length 0 hlen
  have hlow := limbsValue_lt (subtractLoop 0 left right).1
  rw [UInt64.toNat_zero, hl.length] at hvalue
  rw [hcount, hl.length] at hlow
  rw [mod_of_lt_two_mul (by omega : _ < 2 * limbsValue modulus), subtractLimbsModulo_eq]
  by_cases hborrow : (subtractLoop 0 left right).2 = 0
  · rw [hborrow, UInt64.toNat_zero] at hvalue
    rw [if_neg (not_not.2 hborrow), if_pos (by omega)]
    exact ⟨⟨by rw [hcount, hl.length], by omega⟩, by omega⟩
  · have hone : (subtractLoop 0 left right).2.toNat = 1 := by
      have : (subtractLoop 0 left right).2.toNat ≠ 0 := fun h => hborrow (UInt64.toNat_inj.1 h)
      omega
    have hlen' : (subtractLoop 0 left right).1.length = modulus.length := by rw [hcount, hl.length]
    obtain ⟨hback, hcarry⟩ := addLoop_spec hzero hlen'
    have hcount' := addLoop_length 0 hlen'
    have hresult := limbsValue_lt (addLoop 0 (subtractLoop 0 left right).1 modulus).1
    rw [hcount', hlen'] at hresult
    rw [hone] at hvalue
    rw [UInt64.toNat_zero, hlen'] at hback
    rw [if_pos hborrow, if_neg (by omega)]
    -- The carry of the addition is the borrow of the subtraction.
    have hcarry : (addLoop 0 (subtractLoop 0 left right).1 modulus).2.toNat = 1 := by
      rcases Nat.eq_zero_or_pos (addLoop 0 (subtractLoop 0 left right).1 modulus).2.toNat with h | h
      · rw [h] at hback
        omega
      · omega
    rw [hcarry] at hback
    exact ⟨⟨by rw [hcount', hlen'], by omega⟩, by omega⟩

end residues

section reduction

theorem newton_round (m x : UInt32) :
    1 - m * (x * (2 - m * x)) = (1 - m * x) * (1 - m * x) := by grind

/-- **The iteration finds the negated inverse of an odd limb.** -/
theorem montgomeryN0Prime_spec {m : UInt32} (hodd : m.toNat % 2 = 1) :
    m * montgomeryN0Prime m + 1 = 0 := by
  obtain ⟨c, rfl⟩ : ∃ c : UInt32, m = 2 * c + 1 := by
    refine ⟨UInt32.ofNat (m.toNat / 2), UInt32.toNat_inj.1 ?_⟩
    have hm := m.toNat_lt
    rw [UInt32.toNat_add, UInt32.toNat_mul, UInt32.toNat_ofNat_of_lt' (by rw [UInt32.size]; omega)]
    change _ = (2 * (m.toNat / 2) % 2 ^ 32 + 1) % 2 ^ 32
    omega
  -- The error starts even, and its power of two doubles with each round.
  have herror : ∀ n, 1 - (2 * c + 1) * ((List.range n).foldl
      (fun inverse _ => inverse * (2 - (2 * c + 1) * inverse)) 1) =
        ((fun e : UInt32 => e * e)^[n] (0 - 2 * c)) := by
    intro n
    induction n with
    | zero =>
      rw [List.range_zero, List.foldl_nil, Function.iterate_zero_apply]
      grind
    | succ n ih =>
      rw [List.range_succ, List.foldl_append, List.foldl_cons, List.foldl_nil, newton_round, ih,
        Function.iterate_succ_apply']
  have hsquare : ∀ k e c : UInt32, e = k * c → e * e = k * k * (c * c) := by grind
  have hvanish : ((fun e : UInt32 => e * e)^[5] (0 - 2 * c)) = 0 := by
    have hround₁ := hsquare (0 - 2) (0 - 2 * c) c (by grind)
    have hround₂ := hsquare _ _ _ hround₁
    have hround₃ := hsquare _ _ _ hround₂
    have hround₄ := hsquare _ _ _ hround₃
    have hround₅ := hsquare _ _ _ hround₄
    simp only [Function.iterate_succ_apply', Function.iterate_zero_apply]
    rw [hround₅]
    exact UInt32.zero_mul
  have hfive := (herror 5).trans hvanish
  rw [montgomeryN0Prime]
  grind

variable {modulus product : Limbs32} {n0Prime : UInt32}

theorem dvd_n0Prime (hodd : limbsValue modulus % 2 = 1) :
    2 ^ 32 ∣ limbsValue modulus * (montgomeryN0Prime (modulus.headD 0)).toNat + 1 := by
  cases modulus with
  | nil => simp at hodd
  | cons m modulus =>
    rw [limbsValue_cons] at hodd ⊢
    have hspec := montgomeryN0Prime_spec (m := m) (by omega)
    have hnat := congrArg UInt32.toNat hspec
    rw [UInt32.toNat_add, UInt32.toNat_mul] at hnat
    change (m.toNat * (montgomeryN0Prime m).toNat % 2 ^ 32 + 1) % 2 ^ 32 = 0 at hnat
    have hlow : 2 ^ 32 ∣ m.toNat * (montgomeryN0Prime m).toNat + 1 := by
      rw [Nat.dvd_iff_mod_eq_zero]
      omega
    rw [List.headD_cons, add_mul, add_right_comm, mul_assoc]
    exact hlow.add (Nat.dvd_mul_right _ _)

/-- **No row of a reduction ends with a carry**; the rows are those of the numbers. -/
theorem reduceRows_spec (hn0 : 2 ^ 32 ∣ limbsValue modulus * n0Prime.toNat + 1) {n : ℕ}
    (hlen : product.length = modulus.length + 1 + n)
    (hlt : limbsValue product < limbsValue modulus * (2 ^ 32) ^ n + limbsValue modulus) :
    ∃ candidate, reduceRows modulus n0Prime n product = .ok candidate ∧
      candidate.length = modulus.length + 1 ∧
      limbsValue candidate =
        Redc.rows (2 ^ 32) (limbsValue modulus) n0Prime.toNat n (limbsValue product) := by
  induction n generalizing product with
  | zero => exact ⟨product, rfl, hlen, rfl⟩
  | succ n ih =>
    have hmodulus : limbsValue modulus < (2 ^ 32) ^ modulus.length := by
      rw [← pow_mul]
      exact limbsValue_lt modulus
    have hfactor : (product.headD 0 * n0Prime).toNat =
        limbsValue product * n0Prime.toNat % 2 ^ 32 := by
      cases product with
      | nil => simp at hlen
      | cons p product =>
        rw [List.headD_cons, UInt32.toNat_mul, limbsValue_cons, add_mul, mul_assoc,
          Nat.add_mul_mod_self_left]
    have hfits : limbsValue product + (product.headD 0 * n0Prime).toNat * limbsValue modulus <
        2 ^ (32 * product.length) := by
      rw [hfactor, hlen, pow_mul, show modulus.length + 1 + (n + 1) = modulus.length + (n + 1) + 1 by ring]
      exact Redc.add_lt (by norm_num) hmodulus hlt
    obtain ⟨hcarry, hvalue⟩ := accumulateRow_fits (product.headD 0 * n0Prime) (by omega) hfits
    have hcount := accumulateRow_length (product.headD 0 * n0Prime) 0 modulus product
    -- The lowest limb vanishes, so that leaving it behind divides.
    have hrow : limbsValue (accumulateRow (product.headD 0 * n0Prime) 0 modulus product).1.tail =
        Redc.row (2 ^ 32) (limbsValue modulus) n0Prime.toNat (limbsValue product) := by
      have hdiv := Redc.row_mul_eq hn0 (limbsValue product)
      rw [← hfactor, ← hvalue] at hdiv
      cases hout : (accumulateRow (product.headD 0 * n0Prime) 0 modulus product).1 with
      | nil =>
        rw [hout, List.length_nil] at hcount
        omega
      | cons p rest =>
        have hp := p.toNat_lt
        rw [hout, limbsValue_cons] at hdiv
        rw [List.tail_cons]
        omega
    rw [reduceRows]
    simp only [hcarry, ne_eq, not_true_eq_false, if_false]
    rw [Redc.rows, ← hrow]
    refine ih ?_ ?_
    · rw [List.length_tail, hcount, hlen]
      omega
    · rw [hrow]
      exact Redc.row_lt (by norm_num) hlt

/-- **`MontgomeryReduce` does not fail** on a product of residues, and divides it by the
    radix of the limbs. -/
theorem montgomeryReduce_spec (hodd : limbsValue modulus % 2 = 1)
    (hlen : product.length = modulus.length * 2 + 1)
    (hlt : limbsValue product < limbsValue modulus * (2 ^ 32) ^ modulus.length) :
    ∃ output, montgomeryReduce product modulus (montgomeryN0Prime (modulus.headD 0)) = .ok output ∧
      Residue modulus output ∧
      2 ^ (32 * modulus.length) * limbsValue output ≡ limbsValue product
        [MOD limbsValue modulus] := by
  have hn0 := dvd_n0Prime hodd
  have hempty : modulus.length ≠ 0 := by
    intro h
    rw [List.length_eq_zero_iff.1 h] at hodd
    simp at hodd
  obtain ⟨candidate, hrows, hcount, hvalue⟩ :=
    reduceRows_spec hn0 (by omega : product.length = modulus.length + 1 + modulus.length) (by omega)
  have hbound : limbsValue candidate < 2 * limbsValue modulus := by
    rw [hvalue]
    exact Redc.rows_lt (by norm_num) (by omega)
  obtain ⟨hlength, hresult⟩ := reduceCandidate_spec hcount hbound
  have hmul := Redc.rows_mul hn0 modulus.length (limbsValue product)
  rw [← hvalue, ← pow_mul] at hmul
  refine ⟨reduceCandidate candidate modulus, ?_, ⟨hlength, ?_⟩, ?_⟩
  · rw [montgomeryReduce, if_neg (by omega), hrows]
    change Except.ok _ = _
    rw [List.take_of_length_le (by omega)]
  · rw [hresult]
    exact Nat.mod_lt _ (by omega)
  · rw [hresult]
    exact ((Nat.mod_modEq _ _).mul_left _).trans hmul

theorem montgomeryMultiply_spec (hodd : limbsValue modulus % 2 = 1) {left right : Limbs32}
    (hl : Residue modulus left) (hr : Residue modulus right) {productCount : ℕ}
    (hcount : productCount = modulus.length * 2 + 1) :
    ∃ output,
      montgomeryMultiply left right modulus (montgomeryN0Prime (modulus.headD 0)) productCount =
        .ok output ∧
      Residue modulus output ∧
      2 ^ (32 * modulus.length) * limbsValue output ≡ limbsValue left * limbsValue right
        [MOD limbsValue modulus] := by
  obtain ⟨hlength, hproduct⟩ :=
    multiplyLimbs_spec (by rw [hl.length, hr.length]; omega : left.length + right.length ≤ productCount)
  obtain ⟨output, hreduce, hresidue, hmod⟩ :=
    montgomeryReduce_spec hodd (hlength.trans hcount) (by
      rw [hproduct, ← pow_mul]
      exact Nat.mul_lt_mul'' hl.lt hr.lt_pow)
  rw [hproduct] at hmod
  exact ⟨output, hreduce, hresidue, hmod⟩

end reduction

section copies

variable {modulus left right x : Limbs32}

theorem select_masked (d c : UInt32) (k : Bool) :
    (d &&& ~~~ (if k then 0xffffffff else 0)) ||| (c &&& (if k then 0xffffffff else 0)) =
      if k then c else d := by
  have hones : (0xffffffff : UInt32) = -1 := rfl
  cases k with
  | false => simp
  | true => simp [hones]

theorem selectLimbs_eq (hlen : left.length = right.length) (k : Bool) :
    selectLimbs left right k = if k then right else left := by
  induction left generalizing right with
  | nil =>
    cases right with
    | nil => cases k <;> rfl
    | cons r right => simp at hlen
  | cons l left ih =>
    cases right with
    | nil => simp at hlen
    | cons r right =>
      have hrest := ih (Nat.succ.inj hlen)
      rw [selectLimbs] at hrest ⊢
      rw [List.zipWith_cons_cons, hrest, select_masked]
      cases k <;> rfl

theorem and_one (k : UInt32) : k &&& 1 = 0 ∨ k &&& 1 = 1 := by
  have hbit : (k &&& 1).toNat = k.toNat % 2 := by
    rw [UInt32.toNat_and]
    exact Nat.and_one_is_mod _
  rcases Nat.mod_two_eq_zero_or_one k.toNat with h | h
  · exact Or.inl (UInt32.toNat_inj.1 (hbit.trans h))
  · exact Or.inr (UInt32.toNat_inj.1 (hbit.trans h))

theorem swap_masked (l r k : UInt32) :
    (l ^^^ ((0 - (k &&& 1)) &&& (l ^^^ r)) = if k &&& 1 = 0 then l else r) ∧
      (r ^^^ ((0 - (k &&& 1)) &&& (l ^^^ r)) = if k &&& 1 = 0 then r else l) := by
  rcases and_one k with hk | hk
  · simp [hk]
  · have hones : (0 - 1 : UInt32) = -1 := rfl
    rw [hk, if_neg (by decide), if_neg (by decide), hones, UInt32.neg_one_and]
    constructor
    · rw [← UInt32.xor_assoc, UInt32.xor_self, UInt32.zero_xor]
    · rw [UInt32.xor_comm l r, ← UInt32.xor_assoc, UInt32.xor_self, UInt32.zero_xor]

theorem swapLimbsConditional_eq (hlen : left.length = right.length) (k : UInt32) :
    swapLimbsConditional left right k =
      if k &&& 1 = 0 then (left, right) else (right, left) := by
  induction left generalizing right with
  | nil =>
    cases right with
    | nil => exact (ite_self _).symm
    | cons r right => simp at hlen
  | cons l left ih =>
    cases right with
    | nil => simp at hlen
    | cons r right =>
      have hrest := ih (Nat.succ.inj hlen)
      obtain ⟨hl, hr⟩ := swap_masked l r k
      rw [swapLimbsConditional] at hrest ⊢
      rw [List.zip_cons_cons, List.map_cons, List.unzip_cons, hrest, hl, hr]
      split_ifs <;> rfl

@[simp] theorem setSmallLimbs_length (n : ℕ) (v : UInt32) : (setSmallLimbs n v).length = n := by
  simp [setSmallLimbs]

theorem setSmallLimbs_value (n : ℕ) (v : UInt32) :
    limbsValue (setSmallLimbs (n + 1) v) = v.toNat := by
  rw [setSmallLimbs, List.replicate_succ, List.set_cons_zero, limbsValue_cons, limbsValue_replicate]
  rfl

/-- The bit that is read is that of the exponent. -/
theorem exponentBitIsSet_eq (exponent : Bytes) (bit : ℕ) :
    exponentBitIsSet exponent bit = (ofBigEndian exponent).testBit bit := by
  have hmask : ∀ c : UInt8, ∀ i < 8,
      (c &&& UInt8.ofNat (1 <<< i) != 0) = c.toNat.testBit i := by decide +kernel
  have hread := testBit_getD exponent.reverse bit
  rw [decodeLittleEndian, List.reverse_reverse] at hread
  rw [exponentBitIsSet, ← hread]
  by_cases h : bit / 8 ≥ exponent.length
  · rw [if_pos h, List.getD_eq_default _ _ (by rwa [List.length_reverse])]
    simp
  · rw [if_neg h, hmask _ _ (Nat.mod_lt _ (by norm_num)), List.getD_reverse _ (by omega)]

example : exponentBitIsSet [0x80, 0x00] 15 = true := by decide +kernel

end copies

/-- What an array stands for modulo `N`, in the Montgomery form of `n` limbs. -/
def montgomeryElement (N n : ℕ) (x : Limbs32) : ZMod N := limbsValue x * ((2 ^ (32 * n) : ℕ) : ZMod N)⁻¹

section elements

variable {N n : ℕ} {modulus left right x : Limbs32}

/-- The radix is invertible modulo an odd number. -/
theorem radix_mul_inv (hodd : N % 2 = 1) (n : ℕ) :
    ((2 ^ (32 * n) : ℕ) : ZMod N) * ((2 ^ (32 * n) : ℕ) : ZMod N)⁻¹ = 1 := by
  refine ZMod.coe_mul_inv_eq_one _ (Nat.Coprime.pow_left _ ?_)
  rw [Nat.coprime_two_left]
  exact Nat.odd_iff.2 hodd

theorem montgomeryElement_add (hN : limbsValue modulus = N) (hl : Residue modulus left)
    (hr : Residue modulus right) :
    montgomeryElement N n (addLimbsModulo left right modulus) = montgomeryElement N n left + montgomeryElement N n right := by
  rw [montgomeryElement, (addLimbsModulo_spec hl hr).2, hN, ZMod.natCast_mod, Nat.cast_add, montgomeryElement, montgomeryElement]
  ring

theorem montgomeryElement_subtract (hN : limbsValue modulus = N) (hl : Residue modulus left)
    (hr : Residue modulus right) :
    montgomeryElement N n (subtractLimbsModulo left right modulus) =
      montgomeryElement N n left - montgomeryElement N n right := by
  have hlt := hr.lt
  rw [montgomeryElement, (subtractLimbsModulo_spec hl hr).2, hN, ZMod.natCast_mod, Nat.cast_sub (by omega),
    Nat.cast_add, ZMod.natCast_self, add_zero, montgomeryElement, montgomeryElement]
  ring

/-- A conversion puts a number in Montgomery form. -/
theorem montgomeryElement_convert (hN : limbsValue modulus = N) (hodd : N % 2 = 1)
    (hn : modulus.length = n) (h : Residue modulus x) :
    montgomeryElement N n (convertToMontgomery modulus x) = limbsValue x := by
  rw [montgomeryElement, (convertToMontgomery_spec h).2, hN, hn, ZMod.natCast_mod, Nat.cast_mul, mul_assoc,
    radix_mul_inv hodd, mul_one]

variable {productCount : ℕ}

theorem montgomeryElement_multiply (hN : limbsValue modulus = N) (hodd : N % 2 = 1)
    (hn : modulus.length = n) (hl : Residue modulus left) (hr : Residue modulus right)
    (hcount : productCount = n * 2 + 1) :
    ∃ output,
      montgomeryMultiply left right modulus (montgomeryN0Prime (modulus.headD 0)) productCount =
        .ok output ∧
      Residue modulus output ∧ montgomeryElement N n output = montgomeryElement N n left * montgomeryElement N n right := by
  obtain ⟨output, hok, hresidue, hmod⟩ :=
    montgomeryMultiply_spec (by rwa [hN]) hl hr (by omega : productCount = modulus.length * 2 + 1)
  refine ⟨output, hok, hresidue, ?_⟩
  rw [hN, hn] at hmod
  have hcast := (ZMod.natCast_eq_natCast_iff _ _ _).2 hmod
  rw [Nat.cast_mul, Nat.cast_mul] at hcast
  have hunit := radix_mul_inv hodd n
  rw [montgomeryElement, montgomeryElement, montgomeryElement]
  linear_combination (((2 ^ (32 * n) : ℕ) : ZMod N)⁻¹) ^ 2 * hcast -
    (limbsValue output : ZMod N) * ((2 ^ (32 * n) : ℕ) : ZMod N)⁻¹ * hunit

/-- A residue is the least one of its number. -/
theorem limbsValue_eq_val (hN : limbsValue modulus = N) (h : Residue modulus x) {v : ZMod N}
    (hv : (limbsValue x : ZMod N) = v) : limbsValue x = v.val := by
  rw [← hv, ZMod.val_cast_of_lt]
  rw [← hN]
  exact h.lt

theorem value_multiply_one (hN : limbsValue modulus = N) (hodd : N % 2 = 1)
    (hn : modulus.length = n) (hl : Residue modulus left) (hr : Residue modulus right)
    (hone : limbsValue right = 1) (hcount : productCount = n * 2 + 1) :
    ∃ output,
      montgomeryMultiply left right modulus (montgomeryN0Prime (modulus.headD 0)) productCount =
        .ok output ∧
      Residue modulus output ∧ limbsValue output = (montgomeryElement N n left).val := by
  obtain ⟨output, hok, hresidue, hvalue⟩ := montgomeryElement_multiply hN hodd hn hl hr hcount
  refine ⟨output, hok, hresidue, limbsValue_eq_val hN hresidue ?_⟩
  have hunit := radix_mul_inv hodd n
  rw [montgomeryElement, montgomeryElement, montgomeryElement, hone, Nat.cast_one, one_mul] at hvalue
  rw [montgomeryElement]
  linear_combination ((2 ^ (32 * n) : ℕ) : ZMod N) * hvalue +
    ((limbsValue left : ZMod N) * ((2 ^ (32 * n) : ℕ) : ZMod N)⁻¹ - limbsValue output) * hunit

end elements

end KernelHttp.Crypto
