/-
  The field arithmetic of X25519 (`crypto/KeyExchange.cpp`).

  `Reduced` is the form that every product has: sums and differences of two such elements are small
  enough to multiply.
-/
import KernelHttp.Crypto.Curve25519
import KernelHttp.Crypto.X25519
import KernelHttp.Lib.Limbs

namespace KernelHttp.Crypto

open Checked Limbs

def radix : ℤ := 2 ^ 16

theorem radix_eq : radix = 65536 := by decide

abbrev number (x : FieldElement) : ℤ := value radix x

variable {z : FieldElement} {p : List ℤ} {v C V w P : ℤ}

theorem limb_eq (h : |v| ≤ 2 ^ 62) : limb v = some v := by
  obtain ⟨hlo, hhi⟩ := abs_le.1 h
  exact represent_eq (by omega) (by omega)

theorem shiftRight_eq (v : ℤ) : v >>> (16 : ℕ) = v / 65536 := by
  rw [Int.shiftRight_eq_div_pow]
  rfl

/-! ## Sums and differences -/

theorem mapM_zip_eq {f : ℤ → ℤ → Option ℤ} {g : ℤ → ℤ → ℤ} {A B : ℤ} {x y : List ℤ}
    (hx : Within A x) (hy : Within B y)
    (h : ∀ v w, |v| ≤ A → |w| ≤ B → f v w = some (g v w)) :
    (x.zip y).mapM (fun l => f l.1 l.2) = some (List.zipWith g x y) := by
  induction x generalizing y with
  | nil => rfl
  | cons v x ih =>
    cases y with
    | nil => rfl
    | cons w y =>
      obtain ⟨hv, hx⟩ := within_cons.1 hx
      obtain ⟨hw, hy⟩ := within_cons.1 hy
      rw [List.zip_cons_cons, List.mapM_cons, bind_of_some (h v w hv hw), bind_of_some (ih hx hy)]
      rfl

/-- An element of sixteen limbs, none of them larger than `B`. -/
structure Bounded (B : ℤ) (x : FieldElement) : Prop where
  length : x.length = fieldElementLength
  within : Within B x

theorem Bounded.mono {A B : ℤ} {x : FieldElement} (h : Bounded A x) (hle : A ≤ B) : Bounded B x :=
  ⟨h.length, h.within.mono hle⟩

variable {A B : ℤ} {x y : FieldElement}

theorem addFieldElement_spec (hx : Bounded A x) (hy : Bounded B y) (hle : A + B ≤ 2 ^ 62) :
    ∃ z, addFieldElement x y = some z ∧ Bounded (A + B) z ∧ number z = number x + number y := by
  have hlength : x.length = y.length := hx.length.trans hy.length.symm
  refine ⟨List.zipWith (· + ·) x y, ?_, ⟨?_, ?_⟩, value_zipWith_add radix hlength⟩
  · refine mapM_zip_eq hx.within hy.within fun v w hv hw => limb_eq ?_
    exact (abs_add_le v w).trans (by linarith)
  · rw [List.length_zipWith, ← hlength, min_self, hx.length]
  · exact hx.within.zipWith hy.within fun v w hv hw => (abs_add_le v w).trans (add_le_add hv hw)

theorem subtractFieldElement_spec (hx : Bounded A x) (hy : Bounded B y) (hle : A + B ≤ 2 ^ 62) :
    ∃ z, subtractFieldElement x y = some z ∧ Bounded (A + B) z ∧
      number z = number x - number y := by
  have hlength : x.length = y.length := hx.length.trans hy.length.symm
  refine ⟨List.zipWith (· - ·) x y, ?_, ⟨?_, ?_⟩, value_zipWith_sub radix hlength⟩
  · refine mapM_zip_eq hx.within hy.within fun v w hv hw => limb_eq ?_
    exact (abs_sub v w).trans (by linarith)
  · rw [List.length_zipWith, ← hlength, min_self, hx.length]
  · exact hx.within.zipWith hy.within fun v w hv hw => (abs_sub v w).trans (add_le_add hv hw)

/-! ## Carries -/

theorem carryLimbs_spec {carry : ℤ} {x : List ℤ} (hx : Within V x) (hcarry : |carry| ≤ C)
    (hstable : V + C + 2 ^ 16 ≤ 2 ^ 16 * C) (hsmall : V + C ≤ 2 ^ 60) :
    ∃ y last, carryLimbs carry x = some (y, last) ∧ y.length = x.length ∧ Digits radix y ∧
      |last| ≤ C ∧ value radix y + radix ^ x.length * last = value radix x + carry := by
  induction x generalizing carry with
  | nil => exact ⟨[], carry, rfl, rfl, nofun, hcarry, by simp⟩
  | cons v x ih =>
    obtain ⟨hv, hx⟩ := within_cons.1 hx
    have hC : 0 ≤ C := (abs_nonneg _).trans hcarry
    obtain ⟨hv₁, hv₂⟩ := abs_le.1 hv
    obtain ⟨hc₁, hc₂⟩ := abs_le.1 hcarry
    -- the carry of this limb is the quotient by the radix
    set q := (v + carry + 2 ^ 16) >>> (16 : ℕ) with hq
    have hdiv : q = (v + carry + 2 ^ 16) / 65536 := shiftRight_eq _
    have hnext : |q - 1| ≤ C := abs_le.2 ⟨by omega, by omega⟩
    obtain ⟨y, last, hrest, hlength, hdigits, hlast, hvalue⟩ := ih hx hnext
    refine ⟨(v + carry + 2 ^ 16 - q * 2 ^ 16) :: y, last, ?_, ?_, ?_, hlast, ?_⟩
    · rw [carryLimbs, bind_of_some (limb_eq (abs_le.2 ⟨by omega, by omega⟩)),
        bind_of_some (limb_eq (abs_le.2 ⟨by omega, by omega⟩))]
      dsimp only
      rw [← hq, bind_of_some (limb_eq (abs_le.2 ⟨by omega, by omega⟩)),
        bind_of_some (limb_eq (abs_le.2 ⟨by omega, by omega⟩)),
        bind_of_some (limb_eq (abs_le.2 ⟨by omega, by omega⟩)), bind_of_some hrest]
    · rw [List.length_cons, hlength, List.length_cons]
    · rw [digits_cons, radix_eq]
      exact ⟨by omega, hdigits⟩
    · rw [value_cons, value_cons, List.length_cons, pow_succ']
      have hradix : radix = 2 ^ 16 := rfl
      linear_combination radix * hvalue + (q - 1) * hradix

/-- The element is sixteen digits, with `38 * q` on the lowest of them. -/
structure Carried (q : ℤ) (y z : FieldElement) : Prop where
  length : y.length = fieldElementLength
  digits : Digits radix y
  eq : z = y.modify 0 (· + 38 * q)

theorem carryFieldElement_spec (hx : Bounded V x) (hV : V ≤ 2 ^ 50) (hC : 0 ≤ C)
    (hC' : C ≤ 2 ^ 50) (hstable : V + C + 2 ^ 16 ≤ 2 ^ 16 * C) :
    ∃ y z q, carryFieldElement x = some z ∧ Carried q y z ∧ |q| ≤ C ∧
      number y + 2 ^ 256 * q = number x := by
  obtain ⟨y, q, hcarry, hlength, hdigits, hq, hvalue⟩ :=
    carryLimbs_spec hx.within (abs_zero.trans_le hC) hstable (by linarith)
  rw [hx.length] at hlength hvalue
  obtain ⟨hq₁, hq₂⟩ := abs_le.1 hq
  match y, hlength with
  | v :: y, hlength =>
    obtain ⟨⟨hv₁, hv₂⟩, -⟩ := digits_cons.1 hdigits
    rw [radix_eq] at hv₂
    refine ⟨v :: y, (v + 38 * q) :: y, q, ?_, ⟨hlength, hdigits, rfl⟩, hq, ?_⟩
    · rw [carryFieldElement, bind_of_some hcarry]
      dsimp only
      rw [bind_of_some (limb_eq (abs_le.2 ⟨by omega, by omega⟩)),
        bind_of_some (limb_eq (abs_le.2 ⟨by omega, by omega⟩))]
    · rw [add_zero] at hvalue
      exact hvalue

theorem number_digits (hlength : y.length = fieldElementLength) (h : Digits radix y) :
    0 ≤ number y ∧ number y < 2 ^ 256 := by
  have hlt := h.value_lt (by decide)
  rw [hlength] at hlt
  exact ⟨h.value_nonneg (by decide), hlt⟩

namespace Carried

variable {q C : ℤ} {z : FieldElement}

theorem number_eq (h : Carried q y z) : number z = number y + 38 * q := by
  rw [h.eq]
  match y, h.length with
  | v :: y, _ =>
    change v + 38 * q + radix * value radix y = v + radix * value radix y + 38 * q
    ring

theorem bounded (h : Carried q y z) (hq : |q| ≤ C) : Bounded (2 ^ 16 + 38 * C) z := by
  obtain ⟨hq₁, hq₂⟩ := abs_le.1 hq
  have hC : 0 ≤ C := (abs_nonneg q).trans hq
  refine ⟨by rw [h.eq, List.length_modify, h.length], ?_⟩
  rw [h.eq]
  match y, h.digits with
  | [], _ => exact nofun
  | v :: y, hdigits =>
    obtain ⟨⟨hv₁, hv₂⟩, hy⟩ := digits_cons.1 hdigits
    rw [radix_eq] at hv₂
    have hv : |v + 38 * q| ≤ 2 ^ 16 + 38 * C := abs_le.2 ⟨by omega, by omega⟩
    refine within_cons.2 ⟨hv, hy.within.mono ?_⟩
    rw [radix_eq]
    omega

theorem digits_of_zero (h : Carried 0 y z) : z = y := by
  rw [h.eq]
  match y with
  | [] => rfl
  | v :: y => simp [List.modify]

end Carried

/-- What a product is: sixteen digits, with at most a carry on the lowest of them. -/
structure Reduced (z : FieldElement) : Prop where
  carried : ∃ q y, |q| ≤ 1 ∧ Carried q y z

theorem Reduced.bounded (h : Reduced z) : Bounded (2 ^ 17) z := by
  obtain ⟨q, y, hq, hcarried⟩ := h.carried
  exact (hcarried.bounded hq).mono (by norm_num)

theorem Reduced.number_bounds (h : Reduced z) :
    -38 ≤ number z ∧ number z < 2 ^ 256 + 38 := by
  obtain ⟨q, y, hq, hcarried⟩ := h.carried
  obtain ⟨hlo, hhi⟩ := number_digits hcarried.length hcarried.digits
  obtain ⟨hq₁, hq₂⟩ := abs_le.1 hq
  rw [hcarried.number_eq]
  constructor <;> omega

/-- Digits are reduced. -/
theorem reduced_of_digits (hlength : y.length = fieldElementLength) (h : Digits radix y) :
    Reduced y := by
  refine ⟨0, y, by norm_num, hlength, h, ?_⟩
  match y with
  | [] => rfl
  | v :: y => simp [List.modify]

/-- The element that the limbs stand for. -/
def element (x : FieldElement) : Field25519 := (number x : Field25519)

theorem cast_pow_256 : ((2 ^ 256 : ℤ) : Field25519) = ((38 : ℤ) : Field25519) :=
  (ZMod.intCast_eq_intCast_iff' _ _ _).2 (by norm_num [p25519])

theorem Carried.element_eq {q : ℤ} (h : Carried q y z)
    (hvalue : number y + 2 ^ 256 * q = number x) : element z = element x := by
  rw [element, element, h.number_eq, ← hvalue, Int.cast_add, Int.cast_mul, Int.cast_add,
    Int.cast_mul, cast_pow_256]

theorem carry_carry_spec (hx : Bounded (2 ^ 46) x) :
    ∃ z, (carryFieldElement x >>= carryFieldElement) = some z ∧ Reduced z ∧
      element z = element x := by
  obtain ⟨y₁, z₁, q₁, h₁, hc₁, hq₁, hv₁⟩ :=
    carryFieldElement_spec (C := 2 ^ 31) hx (by norm_num) (by norm_num) (by norm_num) (by norm_num)
  have hz₁ : Bounded (2 ^ 38) z₁ := (hc₁.bounded hq₁).mono (by norm_num)
  obtain ⟨y₂, z₂, q₂, h₂, hc₂, -, hv₂⟩ :=
    carryFieldElement_spec (C := 2 ^ 23) hz₁ (by norm_num) (by norm_num) (by norm_num) (by norm_num)
  obtain ⟨hlo₁, hhi₁⟩ := number_digits hc₁.length hc₁.digits
  obtain ⟨hlo₂, hhi₂⟩ := number_digits hc₂.length hc₂.digits
  obtain ⟨hq₁, hq₁'⟩ := abs_le.1 hq₁
  -- the value is now so close to sixteen digits that the second carry is at most one
  have hq₂ : |q₂| ≤ 1 := by
    rw [hc₁.number_eq] at hv₂
    exact abs_le.2 ⟨by omega, by omega⟩
  refine ⟨z₂, ?_, ⟨q₂, y₂, hq₂, hc₂⟩, ?_⟩
  · rw [bind_of_some h₁, h₂]
  · rw [hc₂.element_eq hv₂, hc₁.element_eq hv₁]

/-! ## Products -/

theorem abs_mul_le (hv : |v| ≤ A) (hw : |w| ≤ B) : |v * w| ≤ A * B := by
  rw [abs_mul]
  exact mul_le_mul hv hw (abs_nonneg w) ((abs_nonneg v).trans hv)

theorem addRow_spec {l : ℤ} (hl : |l| ≤ A) {x : List ℤ} (hx : Within B x) (hp : Within P p)
    (hlength : x.length ≤ p.length) (hB : 0 ≤ B) (hsmall : P + A * B ≤ 2 ^ 62) (hP : 0 ≤ P) :
    ∃ r, addRow l x p = some r ∧ r.length = p.length ∧ Within (P + A * B) r ∧
      value radix r = value radix p + l * value radix x := by
  have hAB : 0 ≤ A * B := mul_nonneg ((abs_nonneg l).trans hl) hB
  induction x generalizing p with
  | nil =>
    refine ⟨p, ?_, rfl, hp.mono (by linarith), by simp⟩
    cases p <;> rfl
  | cons v x ih =>
    match p, hlength with
    | w :: p, hlength =>
      obtain ⟨hv, hx⟩ := within_cons.1 hx
      obtain ⟨hw, hp⟩ := within_cons.1 hp
      have hterm := abs_mul_le hl hv
      have hsum : |w + l * v| ≤ P + A * B := (abs_add_le _ _).trans (add_le_add hw hterm)
      obtain ⟨r, hr, hlen, hwithin, hvalue⟩ := ih hx hp (Nat.le_of_succ_le_succ hlength)
      refine ⟨(w + l * v) :: r, ?_, ?_, within_cons.2 ⟨hsum, hwithin⟩, ?_⟩
      · rw [addRow, bind_of_some (limb_eq (hterm.trans (by linarith))),
          bind_of_some (limb_eq (hsum.trans hsmall)), bind_of_some hr]
      · rw [List.length_cons, hlen, List.length_cons]
      · rw [value_cons, value_cons, value_cons, hvalue]
        ring

theorem addRows_spec (hA : 0 ≤ A) (hB : 0 ≤ B) {x y : List ℤ} (hx : Within A x)
    (hy : Within B y) (hp : Within P p) (hP : 0 ≤ P) (hpos : 0 < y.length)
    (hlength : x.length + y.length ≤ p.length + 1)
    (hsmall : P + x.length * (A * B) ≤ 2 ^ 62) :
    ∃ r, addRows x y p = some r ∧ r.length = p.length ∧ Within (P + x.length * (A * B)) r ∧
      value radix r = value radix p + value radix x * value radix y := by
  have hAB : 0 ≤ A * B := mul_nonneg hA hB
  induction x generalizing p P with
  | nil => exact ⟨p, rfl, rfl, hp.mono (by simp), by simp⟩
  | cons v x ih =>
    obtain ⟨hv, hx⟩ := within_cons.1 hx
    rw [List.length_cons] at hlength hsmall ⊢
    push_cast at hsmall ⊢
    have hrest : 0 ≤ (x.length : ℤ) * (A * B) := mul_nonneg (Int.natCast_nonneg _) hAB
    obtain ⟨r, hr, hlen, hwithin, hvalue⟩ := addRow_spec hv hy hp (by omega) hB (by linarith) hP
    match r, hlen with
    | [], hlen =>
      rw [List.length_nil] at hlen
      omega
    | w :: r, hlen =>
      obtain ⟨hw, hr'⟩ := within_cons.1 hwithin
      rw [List.length_cons] at hlen
      obtain ⟨r', h', hlen', hwithin', hvalue'⟩ :=
        ih hx hr' (by linarith) (by omega) (by linarith)
      refine ⟨w :: r', ?_, ?_, ?_, ?_⟩
      · rw [addRows, bind_of_some hr]
        dsimp only
        rw [bind_of_some h']
      · rw [List.length_cons, hlen', hlen]
      · refine within_cons.2 ⟨hw.trans (by linarith), hwithin'.mono (by linarith)⟩
      · rw [value_cons] at hvalue
        rw [value_cons, value_cons, hvalue']
        linear_combination hvalue

theorem foldProduct_spec (hP : 0 ≤ P) (hsmall : 39 * P ≤ 2 ^ 62) {low high : List ℤ}
    (hlow : Within P low) (hhigh : Within P high) (hlength : high.length ≤ low.length) :
    ∃ r, foldProduct low high = some r ∧ r.length = low.length ∧ Within (39 * P) r ∧
      value radix r = value radix low + 38 * value radix high := by
  induction high generalizing low with
  | nil =>
    refine ⟨low, ?_, rfl, hlow.mono (by linarith), by simp⟩
    cases low <;> rfl
  | cons h high ih =>
    match low, hlength with
    | v :: low, hlength =>
      obtain ⟨hv, hlow⟩ := within_cons.1 hlow
      obtain ⟨hh, hhigh⟩ := within_cons.1 hhigh
      have hterm : |38 * h| ≤ 38 * P := abs_mul_le (by norm_num) hh
      have hsum : |v + 38 * h| ≤ 39 * P := (abs_add_le _ _).trans (by linarith)
      obtain ⟨r, hr, hlen, hwithin, hvalue⟩ := ih hlow hhigh (Nat.le_of_succ_le_succ hlength)
      refine ⟨(v + 38 * h) :: r, ?_, ?_, within_cons.2 ⟨hsum, hwithin⟩, ?_⟩
      · rw [foldProduct, bind_of_some (limb_eq (hterm.trans (by linarith))),
          bind_of_some (limb_eq (hsum.trans hsmall)), bind_of_some hr]
      · rw [List.length_cons, hlen, List.length_cons]
      · rw [value_cons, value_cons, value_cons, hvalue]
        ring

/-- **A product of two elements does not overflow, and is reduced.** -/
theorem multiplyFieldElement_spec (hx : Bounded (2 ^ 18) x) (hy : Bounded (2 ^ 18) y) :
    ∃ z, multiplyFieldElement x y = some z ∧ Reduced z ∧ element z = element x * element y := by
  have hxlen : x.length = 16 := hx.length
  have hylen : y.length = 16 := hy.length
  have hzero : Within 0 (List.replicate x25519ProductLength 0) := by
    intro v hv
    rw [List.eq_of_mem_replicate hv, abs_zero]
  obtain ⟨r, hr, hlen, hwithin, hvalue⟩ := addRows_spec (by norm_num) (by norm_num) hx.within
    hy.within hzero le_rfl (by omega) (by rw [hxlen, hylen]; decide) (by rw [hxlen]; norm_num)
  rw [List.length_replicate] at hlen
  rw [hxlen] at hwithin
  have hlow : Within (2 ^ 40) (r.take fieldElementLength) := fun v hv =>
    (hwithin v (List.mem_of_mem_take hv)).trans (by norm_num)
  have hhigh : Within (2 ^ 40) (r.drop fieldElementLength) := fun v hv =>
    (hwithin v (List.mem_of_mem_drop hv)).trans (by norm_num)
  have htake : (r.take fieldElementLength).length = fieldElementLength := by
    rw [List.length_take, hlen]
    decide
  obtain ⟨f, hf, hflen, hfwithin, hfvalue⟩ := foldProduct_spec (by norm_num) (by norm_num) hlow
    hhigh (by rw [htake, List.length_drop, hlen]; decide)
  obtain ⟨z, hz, hreduced, helement⟩ :=
    carry_carry_spec ⟨hflen.trans htake, hfwithin.mono (by norm_num)⟩
  refine ⟨z, ?_, hreduced, ?_⟩
  · rw [multiplyFieldElement, bind_of_some hr, bind_of_some hf]
    exact hz
  · have hsplit := value_append radix (r.take fieldElementLength) (r.drop fieldElementLength)
    rw [List.take_append_drop, htake, hvalue, value_replicate_zero, zero_add] at hsplit
    have hcast := congrArg (Int.cast (R := Field25519)) hsplit
    have hradix : radix ^ fieldElementLength = 2 ^ 256 := by norm_num [radix, fieldElementLength]
    rw [hradix, Int.cast_mul, Int.cast_add, Int.cast_mul, cast_pow_256] at hcast
    rw [helement, element, number, hfvalue, Int.cast_add, Int.cast_mul, ← hcast]
    rfl

theorem squareFieldElement_spec (hx : Bounded (2 ^ 18) x) :
    ∃ z, squareFieldElement x = some z ∧ Reduced z ∧ element z = element x ^ 2 := by
  obtain ⟨z, hz, hreduced, helement⟩ := multiplyFieldElement_spec hx hx
  exact ⟨z, hz, hreduced, by rw [helement, sq]⟩

/-! ## Inversion -/

def invertExponent (indices : List ℕ) (e : ℕ) : ℕ :=
  indices.foldl (fun e index => if index ≠ 2 ∧ index ≠ 4 then 2 * e + 1 else 2 * e) e

theorem invertStep_spec (hx : Reduced x) (hy : Reduced y) (index : ℕ) :
    ∃ z, (squareFieldElement y >>= fun value =>
        if index ≠ 2 ∧ index ≠ 4 then multiplyFieldElement value x else some value) = some z ∧
      Reduced z ∧
      element z = element y ^ 2 * if index ≠ 2 ∧ index ≠ 4 then element x else 1 := by
  obtain ⟨z, hz, hreduced, helement⟩ :=
    squareFieldElement_spec (hy.bounded.mono (by norm_num))
  rw [bind_of_some hz]
  split_ifs
  · obtain ⟨w, hw, hreduced', helement'⟩ := multiplyFieldElement_spec
      (hreduced.bounded.mono (by norm_num)) (hx.bounded.mono (by norm_num))
    exact ⟨w, hw, hreduced', by rw [helement', helement]⟩
  · exact ⟨z, rfl, hreduced, by rw [helement, mul_one]⟩

theorem invertSteps_spec (hx : Reduced x) (indices : List ℕ) {e : ℕ} (hy : Reduced y)
    (hpow : element y = element x ^ e) :
    ∃ z, indices.foldlM (fun value index => do
        let value ← squareFieldElement value
        if index ≠ 2 ∧ index ≠ 4 then multiplyFieldElement value x else some value) y = some z ∧
      Reduced z ∧ element z = element x ^ invertExponent indices e := by
  induction indices generalizing y e with
  | nil => exact ⟨y, rfl, hy, hpow⟩
  | cons index indices ih =>
    obtain ⟨w, hw, hreduced, helement⟩ := invertStep_spec hx hy index
    rw [List.foldlM_cons, bind_of_some hw]
    refine ih hreduced ?_
    rw [helement, hpow]
    dsimp only
    split_ifs
    · rw [pow_succ (element x) (2 * e), pow_mul']
    · rw [mul_one, pow_mul']

/-- **The inversion is the power to the prime less two.** -/
theorem invertFieldElement_spec (hx : Reduced x) :
    ∃ z, invertFieldElement x = some z ∧ Reduced z ∧
      element z = element x ^ (p25519 - 2) := by
  have hexponent : invertExponent (List.range 254).reverse 1 = p25519 - 2 := by decide +kernel
  rw [← hexponent]
  exact invertSteps_spec hx _ hx (pow_one _).symm

/-! ## Selection -/

theorem toInt_ofInt (h : |v| ≤ 2 ^ 62) : (BitVec.ofInt 64 v).toInt = v := by
  obtain ⟨hlo, hhi⟩ := abs_le.1 h
  exact BitVec.toInt_ofInt_eq_self (by decide) (by omega) (by omega)

theorem selectLimb_eq (hv : |v| ≤ 2 ^ 62) (hw : |w| ≤ 2 ^ 62) (k : Bool) :
    selectLimb (~~~ BitVec.ofInt 64 ((if k then 1 else 0) - 1)) v w =
      if k then (w, v) else (v, w) := by
  cases k with
  | false =>
    have hmask : ~~~ BitVec.ofInt 64 ((if false = true then 1 else 0) - 1) = 0#64 := by decide
    rw [selectLimb, hmask]
    simp [toInt_ofInt hv, toInt_ofInt hw]
  | true =>
    have hmask : ~~~ BitVec.ofInt 64 ((if true = true then 1 else 0) - 1) = BitVec.allOnes 64 := by
      decide
    rw [selectLimb, hmask, BitVec.allOnes_and, ← BitVec.xor_assoc, BitVec.xor_self,
      BitVec.zero_xor, BitVec.xor_comm (BitVec.ofInt 64 v), ← BitVec.xor_assoc, BitVec.xor_self,
      BitVec.zero_xor, toInt_ofInt hv, toInt_ofInt hw]
    rfl

theorem selectFieldElement_spec (hx : Bounded (2 ^ 62) x) (hy : Bounded (2 ^ 62) y) (k : Bool) :
    selectFieldElement x y (if k then 1 else 0) = if k then (y, x) else (x, y) := by
  have hlength : x.length = y.length := hx.length.trans hy.length.symm
  have hmap : (x.zip y).map
      (fun l => selectLimb (~~~ BitVec.ofInt 64 ((if k then 1 else 0) - 1)) l.1 l.2) =
        if k then y.zip x else x.zip y := by
    have hlimb : ∀ l ∈ x.zip y,
        selectLimb (~~~ BitVec.ofInt 64 ((if k then 1 else 0) - 1)) l.1 l.2 =
          if k then l.swap else l := by
      intro l hl
      obtain ⟨hl₁, hl₂⟩ := List.of_mem_zip hl
      exact selectLimb_eq (hx.within _ hl₁) (hy.within _ hl₂) k
    rw [List.map_congr_left hlimb]
    cases k with
    | false => exact List.map_id _
    | true => exact List.zip_swap x y
  unfold selectFieldElement
  dsimp only
  rw [hmap]
  cases k with
  | false => exact List.unzip_zip hlength
  | true => exact List.unzip_zip hlength.symm

end KernelHttp.Crypto
