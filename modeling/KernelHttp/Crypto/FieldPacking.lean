/-
  Field elements and octets (`crypto/KeyExchange.cpp`).

  `PackFieldElement` carries until the limbs are digits and takes the modulus off twice where it
  fits.
-/
import KernelHttp.Crypto.FieldArithmetic

namespace KernelHttp.Crypto

open BigEndian Checked Limbs

variable {x y : FieldElement}

/-! ## Unpacking -/

variable {input : Bytes}

theorem unpackLimbs_spec (n : ℕ) (hlength : input.length = 2 * n) :
    (unpackLimbs input).length = n ∧ Digits radix (unpackLimbs input) ∧
      value radix (unpackLimbs input) = decodeLittleEndian input := by
  induction n generalizing input with
  | zero =>
    obtain rfl := List.length_eq_zero_iff.1 hlength
    exact ⟨rfl, nofun, rfl⟩
  | succ n ih =>
    match input, hlength with
    | c :: d :: input, hlength =>
      obtain ⟨hlen, hdigits, hvalue⟩ := @ih input (by simp at hlength; omega)
      have hc := c.toNat_lt
      have hd := d.toNat_lt
      have hor : c.toNat ||| d.toNat <<< 8 = d.toNat * 256 + c.toNat := by
        rw [Nat.lor_comm, ← Nat.shiftLeft_add_eq_or_of_lt (by omega), Nat.shiftLeft_eq]
      rw [unpackLimbs, hor]
      refine ⟨by rw [List.length_cons, hlen], ?_, ?_⟩
      · rw [digits_cons, radix_eq]
        exact ⟨⟨Int.natCast_nonneg _, by omega⟩, hdigits⟩
      · rw [value_cons, hvalue, decodeLittleEndian_cons, decodeLittleEndian_cons, radix_eq]
        push_cast
        ring

theorem unpackFieldElement_spec (hlength : input.length = 32) :
    Reduced (unpackFieldElement input) ∧
      element (unpackFieldElement input) = decodeUCoordinate input := by
  obtain ⟨hlen, hdigits, hvalue⟩ := unpackLimbs_spec 16 hlength
  set x := unpackLimbs input with hx
  have hlt : 15 < x.length := by omega
  have hsplit : x = x.take 15 ++ [x[15]] := by
    conv_lhs => rw [← List.take_append_drop 15 x, List.drop_eq_getElem_cons hlt,
      List.drop_eq_nil_of_le (by omega)]
  have hunpack : unpackFieldElement input = x.take 15 ++ [x[15] % 0x8000] := by
    rw [unpackFieldElement, ← hx, List.modify_eq_take_cons_drop hlt,
      List.drop_eq_nil_of_le (by omega)]
  have hlow : Digits radix (x.take 15) := fun v hv => hdigits v (List.mem_of_mem_take hv)
  have htake : (x.take 15).length = 15 := by rw [List.length_take, hlen]; rfl
  have hlowlt := hlow.value_lt (by decide)
  have hlownonneg := hlow.value_nonneg (by decide)
  obtain ⟨htop, htop'⟩ := hdigits _ (List.getElem_mem hlt)
  rw [radix_eq] at htop'
  have hpow : radix ^ 15 = 2 ^ 240 := by norm_num [radix]
  rw [htake, hpow] at hlowlt
  rw [hsplit, value_append, htake, hpow, value_cons, value_nil, mul_zero, add_zero] at hvalue
  rw [hunpack]
  constructor
  · refine reduced_of_digits ?_ ?_
    · rw [List.length_append, htake]
      rfl
    · intro v hv
      rcases List.mem_append.1 hv with hv | hv
      · exact hlow v hv
      · rw [List.mem_singleton.1 hv, radix_eq]
        exact ⟨by omega, by omega⟩
  · rw [element, number, value_append, htake, hpow, value_cons, value_nil, mul_zero, add_zero,
      decodeUCoordinate]
    have hmod : value radix (x.take 15) + (2 ^ 240 : ℤ) * (x[15] % 0x8000) =
        ((decodeLittleEndian input % 2 ^ 255 : ℕ) : ℤ) := by
      push_cast
      rw [← hvalue]
      omega
    rw [hmod, Int.cast_natCast]

/-! ## Packing -/

/-- The limbs are sixteen digits. -/
structure Canonical (x : FieldElement) : Prop where
  length : x.length = fieldElementLength
  digits : Digits radix x

theorem Canonical.reduced (h : Canonical x) : Reduced x := reduced_of_digits h.length h.digits

theorem Canonical.number_bounds (h : Canonical x) : 0 ≤ number x ∧ number x < 2 ^ 256 :=
  number_digits h.length h.digits

theorem carry_reduced (hx : Reduced x) :
    ∃ y z q, carryFieldElement x = some z ∧ Carried q y z ∧ number y + 2 ^ 256 * q = number x := by
  obtain ⟨y, z, q, hcarry, hcarried, -, hvalue⟩ := carryFieldElement_spec (C := 4) hx.bounded
    (by norm_num) (by norm_num) (by norm_num) (by norm_num)
  exact ⟨y, z, q, hcarry, hcarried, hvalue⟩

theorem carry_first (hx : Reduced x) :
    ∃ z, carryFieldElement x = some z ∧ Reduced z ∧ 0 ≤ number z ∧ number z < 2 ^ 256 ∧
      element z = element x := by
  obtain ⟨y, z, q, hcarry, hcarried, hvalue⟩ := carry_reduced hx
  obtain ⟨hlo, hhi⟩ := hx.number_bounds
  obtain ⟨hylo, hyhi⟩ := number_digits hcarried.length hcarried.digits
  have hnumber := hcarried.number_eq
  have hq : |q| ≤ 1 := abs_le.2 ⟨by omega, by omega⟩
  refine ⟨z, hcarry, ⟨q, y, hq, hcarried⟩, ?_, ?_, hcarried.element_eq hvalue⟩
  · omega
  · omega

theorem carry_canonical (hx : Reduced x) (hlo : 0 ≤ number x) (hhi : number x < 2 ^ 256) :
    ∃ z, carryFieldElement x = some z ∧ Canonical z ∧ number z = number x := by
  obtain ⟨y, z, q, hcarry, hcarried, hvalue⟩ := carry_reduced hx
  obtain ⟨hylo, hyhi⟩ := number_digits hcarried.length hcarried.digits
  obtain rfl : q = 0 := by omega
  obtain rfl := hcarried.digits_of_zero
  exact ⟨_, hcarry, ⟨hcarried.length, hcarried.digits⟩, by linarith⟩

theorem subtractModulus_spec {borrow : ℤ} (hborrow : 0 ≤ borrow ∧ borrow ≤ 1) {m v : ℤ}
    {ms vs : List ℤ} (hlength : ms.length = vs.length) (hms : Digits radix (m :: ms))
    (hvs : Digits radix (v :: vs)) :
    ∃ w t, subtractModulus borrow (m :: ms) (v :: vs) = some (w ++ [t]) ∧ w.length = vs.length ∧
      Digits radix w ∧ -2 ^ 16 ≤ t ∧ t < 2 ^ 16 ∧
      value radix (w ++ [t]) = value radix (v :: vs) - value radix (m :: ms) - borrow := by
  induction vs generalizing borrow m v ms with
  | nil =>
    obtain rfl := List.length_eq_zero_iff.1 hlength
    obtain ⟨⟨hm, hm'⟩, -⟩ := digits_cons.1 hms
    obtain ⟨⟨hv, hv'⟩, -⟩ := digits_cons.1 hvs
    rw [radix_eq] at hm' hv'
    refine ⟨[], v - (m + borrow), ?_, rfl, nofun, by omega, by omega, ?_⟩
    · rw [subtractModulus, bind_of_some (limb_eq (abs_le.2 ⟨by omega, by omega⟩)),
        bind_of_some (limb_eq (abs_le.2 ⟨by omega, by omega⟩)), if_pos rfl]
      rfl
    · simp only [List.nil_append, value_cons, value_nil]
      ring
  | cons v' vs ih =>
    match ms, hlength with
    | m' :: ms, hlength =>
      obtain ⟨⟨hm, hm'⟩, hms⟩ := digits_cons.1 hms
      obtain ⟨⟨hv, hv'⟩, hvs⟩ := digits_cons.1 hvs
      rw [radix_eq] at hm' hv'
      set t := v - (m + borrow) with ht
      have hdiv : t >>> (16 : ℕ) = t / 65536 := shiftRight_eq t
      obtain ⟨w, t', hrest, hlen, hdigits, hlo, hhi, hvalue⟩ :=
        @ih (t >>> (16 : ℕ) % 2) ⟨by omega, by omega⟩ m' v' ms (by simpa using hlength) hms hvs
      refine ⟨t % 0x10000 :: w, t', ?_, by rw [List.length_cons, hlen, List.length_cons], ?_, hlo,
        hhi, ?_⟩
      · rw [subtractModulus, bind_of_some (limb_eq (abs_le.2 ⟨by omega, by omega⟩)),
          bind_of_some (limb_eq (abs_le.2 ⟨by omega, by omega⟩)), if_neg (List.cons_ne_nil _ _),
          ← ht, bind_of_some hrest]
        rfl
      · rw [digits_cons, radix_eq]
        exact ⟨⟨by omega, by omega⟩, hdigits⟩
      · rw [List.cons_append, value_cons, hvalue, value_cons (v := v), value_cons (v := m)]
        have hborrow' : t % 0x10000 = t + radix * (t >>> (16 : ℕ) % 2) := by
          rw [radix_eq]
          omega
        rw [hborrow', ht]
        ring

theorem modulusLimbs_spec : modulusLimbs.length = fieldElementLength ∧
    Digits radix modulusLimbs ∧ value radix modulusLimbs = p25519 := by
  refine ⟨rfl, ?_, by decide⟩
  unfold Digits
  decide

theorem packRound_spec (hx : Canonical x) :
    ∃ z, packRound x = some z ∧ Canonical z ∧
      number z = if (p25519 : ℤ) ≤ number x then number x - p25519 else number x := by
  obtain ⟨hmlen, hmdigits, hmvalue⟩ := modulusLimbs_spec
  obtain ⟨m, ms, hm⟩ : ∃ m ms, modulusLimbs = m :: ms := ⟨_, _, rfl⟩
  obtain ⟨v, vs, rfl⟩ := List.exists_cons_of_length_eq_add_one hx.length
  rw [hm] at hmlen hmdigits hmvalue
  have hlength : ms.length = vs.length := by
    have := hmlen.trans hx.length.symm
    simpa using this
  obtain ⟨w, t, hsub, hlen, hdigits, hlo, hhi, hvalue⟩ :=
    subtractModulus_spec ⟨le_rfl, zero_le_one⟩ hlength hmdigits hx.digits
  have hvs : vs.length = 15 := by simpa [fieldElementLength] using hx.length
  have hpow : radix ^ 15 = 2 ^ 240 := by norm_num [radix]
  rw [value_append, hlen, hvs, hpow, value_cons, value_nil, mul_zero, add_zero, sub_zero,
    hmvalue] at hvalue
  have hwlo := hdigits.value_nonneg (by decide)
  have hwhi := hdigits.value_lt (by decide)
  rw [hlen, hvs, hpow] at hwhi
  -- the sign of the last limb tells whether the modulus fits
  have hsign : (p25519 : ℤ) ≤ value radix (v :: vs) ↔ 0 ≤ t := by
    constructor
    · intro h
      by_contra hneg
      omega
    · intro h
      omega
  have hbit : 1 - t >>> (16 : ℕ) % 2 = if decide (0 ≤ t) then 1 else 0 := by
    rw [shiftRight_eq]
    by_cases h : 0 ≤ t
    · rw [decide_eq_true h, if_pos rfl]
      omega
    · rw [decide_eq_false h, if_neg Bool.false_ne_true]
      omega
  have hreduced : Bounded (2 ^ 62) (w ++ [t]) := by
    refine ⟨by rw [List.length_append, hlen, hvs]; rfl, ?_⟩
    intro u hu
    rcases List.mem_append.1 hu with hu | hu
    · exact (hdigits.within u hu).trans (by decide)
    · rw [List.mem_singleton.1 hu]
      exact abs_le.2 ⟨by omega, by omega⟩
  have hget : (w ++ [t]).getD 15 0 = t := by
    rw [List.getD_append_right _ _ _ _ (by omega), hlen, hvs]
    rfl
  have hround : packRound (v :: vs) =
      some (if decide (0 ≤ t) then (w ++ [t], v :: vs) else (v :: vs, w ++ [t])).1 := by
    rw [packRound, hm, bind_of_some hsub, hget, hbit,
      selectFieldElement_spec (hx.reduced.bounded.mono (by norm_num)) hreduced]
  by_cases h : 0 ≤ t
  · refine ⟨w ++ [t], ?_, ⟨hreduced.length, ?_⟩, ?_⟩
    · rw [hround, decide_eq_true h, if_pos rfl]
    · intro u hu
      rcases List.mem_append.1 hu with hu | hu
      · exact hdigits u hu
      · rw [List.mem_singleton.1 hu, radix_eq]
        exact ⟨h, by omega⟩
    · rw [if_pos (hsign.2 h), number, value_append, hlen, hvs, hpow, value_cons, value_nil,
        mul_zero, add_zero, hvalue]
  · refine ⟨v :: vs, ?_, hx, (if_neg fun hle => h (hsign.1 hle)).symm⟩
    rw [hround, decide_eq_false h, if_neg Bool.false_ne_true]

theorem octets_eq {x : List ℤ} (h : Digits radix x) {n : ℕ} (hn : (n : ℤ) = value radix x) :
    x.flatMap (fun v : ℤ =>
        [UInt8.ofNat (v % 0x100).toNat, UInt8.ofNat (v >>> (8 : ℕ) % 0x100).toNat]) =
      (bigEndian (2 * x.length) n).reverse := by
  induction x generalizing n with
  | nil => rfl
  | cons v x ih =>
    obtain ⟨⟨hv, hv'⟩, hx⟩ := digits_cons.1 h
    rw [radix_eq] at hv'
    rw [value_cons, radix_eq] at hn
    have hshift : v >>> (8 : ℕ) = v / 256 := Int.shiftRight_eq_div_pow v 8
    have hnonneg := hx.value_nonneg (by decide)
    rw [List.flatMap_cons, List.length_cons, Nat.mul_succ, littleEndian_succ, littleEndian_succ,
      ih hx (n := n / 256 / 256) (by rw [radix_eq] at hnonneg ⊢; omega), hshift]
    have hlow : (v % 0x100).toNat = n % 256 := by omega
    have hhigh : (v / 256 % 0x100).toNat = n / 256 % 256 := by omega
    rw [hlow, hhigh]
    rfl

/-- **The octets of a packed element are those of its least residue.** -/
theorem packFieldElement_spec (hx : Reduced x) :
    packFieldElement x = some (encodeUCoordinate (element x)) := by
  obtain ⟨x₁, h₁, hr₁, hlo, hhi, he⟩ := carry_first hx
  obtain ⟨x₂, h₂, hc₂, hn₂⟩ := carry_canonical hr₁ hlo hhi
  obtain ⟨x₃, h₃, hc₃, hn₃⟩ := carry_canonical hc₂.reduced hc₂.number_bounds.1 hc₂.number_bounds.2
  obtain ⟨x₄, h₄, hc₄, hn₄⟩ := packRound_spec hc₃
  obtain ⟨x₅, h₅, hc₅, hn₅⟩ := packRound_spec hc₄
  have hp : (p25519 : ℤ) = 2 ^ 255 - 19 := by norm_num [p25519]
  -- below 2^256, at most twice the modulus has to be taken off
  have hresidue : number x₅ = number x₁ % p25519 := by
    rw [hn₄, hn₃, hn₂] at hn₅
    rw [hn₅, hp]
    split_ifs <;> omega
  have hval : (((element x).val : ℕ) : ℤ) = number x₅ := by
    rw [← he, element, ZMod.val_intCast, hresidue]
  rw [packFieldElement, bind_of_some h₁, bind_of_some h₂, bind_of_some h₃, bind_of_some h₄,
    bind_of_some h₅, octets_eq hc₅.digits hval, hc₅.length]
  rfl

end KernelHttp.Crypto
