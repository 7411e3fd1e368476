/-
  `X448` is the function of RFC 7748 (`crypto/KeyExchange.cpp`).

  A run of the block program is a run over the field on what the blocks stand for (`run_spec`).
-/
import KernelHttp.Crypto.Curve448
import KernelHttp.Crypto.MontgomeryForm
import KernelHttp.Crypto.X448
import KernelHttp.Lib.Incremental

namespace KernelHttp.Crypto

open BigEndian MontgomeryLadder Powering

/-! ## Programs over the field -/

/-- What an operation does to what the blocks stand for; `r` is the radix. -/
def X448Operation.over {F : Type*} [CommRing F] (r rinv : F) (s : X448Block → F) :
    X448Operation → X448Block → F
  | .setSmall smallValue value => Function.update s value (smallValue.toNat * rinv)
  | .zero value => Function.update s value 0
  | .copy source destination => Function.update s destination (s source)
  | .convert value => Function.update s value (s value * r)
  | .swap k left right =>
    if k &&& 1 = 0 then s
    else Function.update (Function.update s left (s right)) right (s left)
  | .add left right output => Function.update s output (s left + s right)
  | .subtract left right output => Function.update s output (s left - s right)
  | .multiply left right output => Function.update s output (s left * s right)

def runOver {F : Type*} [CommRing F] (r rinv : F) (program : List X448Operation)
    (s : X448Block → F) : X448Block → F :=
  program.foldl (X448Operation.over r rinv) s

def blockValues (N : ℕ) (blocks : X448Blocks) (i : X448Block) : ZMod N :=
  montgomeryElement N x448LimbCount (blocks i)

def blockRadix (N : ℕ) : ZMod N := ((2 ^ (32 * x448LimbCount) : ℕ) : ZMod N)

theorem blockValues_update (N : ℕ) (blocks : X448Blocks) (i : X448Block) (x : Limbs32) :
    blockValues N (Function.update blocks i x) =
      Function.update (blockValues N blocks) i (montgomeryElement N x448LimbCount x) := by
  ext j
  by_cases hj : j = i
  · subst hj
    rw [blockValues, Function.update_self, Function.update_self]
  · rw [blockValues, Function.update_of_ne hj, Function.update_of_ne hj, blockValues]

def AllResidues (modulus : Limbs32) (blocks : X448Blocks) : Prop := ∀ i, Residue modulus (blocks i)

section simulation

variable {N : ℕ} {modulus : Limbs32} {blocks : X448Blocks}

theorem AllResidues.update (h : AllResidues modulus blocks) (i : X448Block) {x : Limbs32}
    (hx : Residue modulus x) : AllResidues modulus (Function.update blocks i x) := by
  intro j
  by_cases hj : j = i
  · subst hj
    rwa [Function.update_self]
  · rw [Function.update_of_ne hj]
    exact h j

variable (hN : limbsValue modulus = N) (hn : modulus.length = x448LimbCount) (hlarge : 2 ^ 32 ≤ N)

include hN hn hlarge

theorem residue_small (v : UInt32) : Residue modulus (setSmallLimbs x448LimbCount v) := by
  refine ⟨by rw [setSmallLimbs_length, hn], ?_⟩
  rw [show x448LimbCount = 13 + 1 from rfl, setSmallLimbs_value, hN]
  exact v.toNat_lt.trans_le hlarge

theorem residue_zero : Residue modulus (List.replicate x448LimbCount 0) := by
  refine ⟨by rw [List.length_replicate, hn], ?_⟩
  rw [limbsValue_replicate, hN]
  omega

variable (hodd : N % 2 = 1)

include hodd

/-- **An operation on residues leaves residues**, and is that of the field. -/
theorem exec_spec (h : AllResidues modulus blocks) (operation : X448Operation) :
    ∃ blocks', operation.exec modulus (montgomeryN0Prime (modulus.headD 0)) blocks = .ok blocks' ∧
      AllResidues modulus blocks' ∧
      blockValues N blocks' =
        operation.over (blockRadix N) (blockRadix N)⁻¹ (blockValues N blocks) := by
  cases operation with
  | setSmall smallValue value =>
    refine ⟨_, rfl, h.update value (residue_small hN hn hlarge smallValue), ?_⟩
    have hvalue : limbsValue (setSmallLimbs x448LimbCount smallValue) = smallValue.toNat :=
      setSmallLimbs_value 13 smallValue
    rw [blockValues_update, montgomeryElement, hvalue, X448Operation.over, blockRadix]
  | zero value =>
    refine ⟨_, rfl, h.update value (residue_zero hN hn hlarge), ?_⟩
    rw [blockValues_update, montgomeryElement, limbsValue_replicate, Nat.cast_zero, zero_mul]
    rfl
  | copy source destination =>
    exact ⟨_, rfl, h.update destination (h source), blockValues_update _ _ _ _⟩
  | convert value =>
    refine ⟨_, rfl, h.update value (convertToMontgomery_spec (h value)).1, ?_⟩
    have hunit := radix_mul_inv hodd x448LimbCount
    rw [blockValues_update, montgomeryElement_convert hN hodd hn (h value), X448Operation.over,
      blockValues, montgomeryElement, blockRadix]
    congr 1
    linear_combination -(limbsValue (blocks value) : ZMod N) * hunit
  | swap k left right =>
    have hlen : (blocks left).length = (blocks right).length :=
      (h left).length.trans (h right).length.symm
    rw [X448Operation.exec, X448Operation.over, swapLimbsConditional_eq hlen]
    by_cases hk : k &&& 1 = 0
    · refine ⟨blocks, ?_, h, (if_pos hk).symm⟩
      rw [if_pos hk]
      simp only [Function.update_eq_self]
    · refine ⟨_, by rw [if_neg hk], (h.update left (h right)).update right (h left), ?_⟩
      rw [if_neg hk, blockValues_update, blockValues_update]
      rfl
  | add left right output =>
    refine ⟨_, rfl, h.update output (addLimbsModulo_spec (h left) (h right)).1, ?_⟩
    rw [blockValues_update, montgomeryElement_add hN (h left) (h right)]
    rfl
  | subtract left right output =>
    refine ⟨_, rfl, h.update output (subtractLimbsModulo_spec (h left) (h right)).1, ?_⟩
    rw [blockValues_update, montgomeryElement_subtract hN (h left) (h right)]
    rfl
  | multiply left right output =>
    obtain ⟨product, hok, hresidue, hvalue⟩ :=
      montgomeryElement_multiply hN hodd hn (h left) (h right) (rfl : x448ProductCount = _)
    refine ⟨Function.update blocks output product, ?_, h.update output hresidue, ?_⟩
    · rw [X448Operation.exec, hok]
      rfl
    · rw [blockValues_update, hvalue]
      rfl

/-- **A run does not fail**, and is a run over the field. -/
theorem run_spec (program : List X448Operation) (h : AllResidues modulus blocks) :
    ∃ blocks', x448Run modulus (montgomeryN0Prime (modulus.headD 0)) program blocks = .ok blocks' ∧
      AllResidues modulus blocks' ∧
      blockValues N blocks' =
        runOver (blockRadix N) (blockRadix N)⁻¹ program (blockValues N blocks) := by
  induction program generalizing blocks with
  | nil => exact ⟨blocks, rfl, h, rfl⟩
  | cons operation program ih =>
    obtain ⟨blocks₁, hok₁, h₁, hvalue₁⟩ := exec_spec hN hn hlarge hodd h operation
    obtain ⟨blocks₂, hok₂, h₂, hvalue₂⟩ := ih h₁
    refine ⟨blocks₂, ?_, h₂, ?_⟩
    · rw [x448Run, List.foldlM_cons, hok₁]
      exact hok₂
    · rw [hvalue₂, hvalue₁]
      rfl

end simulation

/-! ## The ladder -/

section ladder

variable {F : Type*} [CommRing F] {r rinv u : F} {s : X448Block → F} {p : Pairs F}

/-- What the blocks hold between two rounds. -/
structure AtRound (rinv u : F) (p : Pairs F) (s : X448Block → F) : Prop where
  x₁ : s .x1 = u
  x₂ : s .x2 = p.x₂
  z₂ : s .z2 = p.z₂
  x₃ : s .x3 = p.x₃
  z₃ : s .z3 = p.z₃
  a24 : s .a24Montgomery = 39081
  one : s .oneRegular = rinv

theorem runOver_append (program program' : List X448Operation) (s : X448Block → F) :
    runOver r rinv (program ++ program') s = runOver r rinv program' (runOver r rinv program s) :=
  List.foldl_append

theorem setup_spec (hr : rinv * r = 1) (hu : s .x1 * r = u) :
    AtRound rinv u ⟨1, 0, u, 1⟩ (runOver r rinv x448Setup s) := by
  have ha24 : ((x448A24.toNat : ℕ) : F) * rinv * r = 39081 := by
    rw [mul_assoc, hr, mul_one]
    rfl
  constructor <;> simp [runOver, x448Setup, X448Operation.over, hr, hu, ha24]

/-- A bit as the source keeps it. -/
def bitWord (k : Bool) : UInt32 := if k then 1 else 0

theorem swap_spec (h : AtRound rinv u p s) (k : Bool) :
    AtRound rinv u (p.cswap k) (runOver r rinv (x448Swap (bitWord k)) s) := by
  cases k with
  | false => exact h
  | true =>
    constructor <;>
      simp [runOver, x448Swap, X448Operation.over, bitWord, Pairs.cswap, h.x₁, h.x₂, h.z₂, h.x₃,
        h.z₃, h.a24, h.one]

/-- **A round is a step of the ladder.** -/
theorem round_spec (h : AtRound rinv u p s) :
    AtRound rinv u (p.step 39081 u) (runOver r rinv x448Round s) := by
  constructor <;>
    simp [runOver, x448Round, X448Operation.square, X448Operation.over, Pairs.step, h.x₁, h.x₂,
      h.z₂, h.x₃, h.z₃, h.a24, h.one, sq]

theorem bitWord_xor (k k' : Bool) : bitWord k ^^^ bitWord k' = bitWord (xor k k') := by
  cases k <;> cases k' <;> rfl

theorem x448ScalarBit_eq (scalar : Bytes) (bit : ℕ) :
    x448ScalarBit scalar bit = bitWord ((decodeLittleEndian scalar).testBit bit) := by
  rw [x448ScalarBit, (bit_index bit).1, (bit_index bit).2, testBit_toNat, testBit_getD, bitWord]
  split_ifs <;> rfl

/-- **The ladder of the program is that of the field**, its exchanges put off. -/
theorem ladder_spec (r : F) (scalar : Bytes) (bits : List ℕ) (h : AtRound rinv u p s) (swap : Bool) :
    let q := (bits.map (decodeLittleEndian scalar).testBit).foldl (deferred 39081 u) (p, swap)
    AtRound rinv u (q.1.cswap q.2) (runOver r rinv (x448Ladder scalar (bitWord swap) bits) s) := by
  induction bits generalizing p s swap with
  | nil => exact swap_spec h swap
  | cons bit bits ih =>
    rw [x448Ladder, x448ScalarBit_eq, bitWord_xor, runOver_append, runOver_append]
    exact ih (round_spec (swap_spec h _)) _

/-! ## The inversion -/

variable {base output scratch : X448Block}

theorem exponentBit_spec (r rinv : F) (hbase : base ≠ output)
    (hbase' : base ≠ scratch) (k : Bool) (s : X448Block → F) :
    let s' := runOver r rinv ([.square output scratch, .copy scratch output] ++
      if k then [.multiply output base scratch, .copy scratch output] else []) s
    s' output = step (s base) (s output) k ∧ ∀ i, i ≠ output → i ≠ scratch → s' i = s i := by
  cases k with
  | false =>
    refine ⟨?_, fun i ho hs => ?_⟩
    · simp [runOver, X448Operation.square, X448Operation.over, step]
    · simp [runOver, X448Operation.square, X448Operation.over, ho, hs]
  | true =>
    refine ⟨?_, fun i ho hs => ?_⟩
    · simp [runOver, X448Operation.square, X448Operation.over, step, hbase, hbase']
    · simp [runOver, X448Operation.square, X448Operation.over, ho, hs]

/-- **The exponentiation leaves the power in its output.** -/
theorem exponentiate_spec (exponent : Bytes)
    (hbase : base ≠ output) (hbase' : base ≠ scratch) (hr : rinv * r = 1)
    (s : X448Block → F) :
    let s' := runOver r rinv (montgomeryExponentiatePublic base exponent output scratch) s
    s' output = s base ^ ofBigEndian exponent ∧
      ∀ i, i ≠ output → i ≠ scratch → s' i = s i := by
  have hbits : ∀ (bits : List ℕ) (s : X448Block → F),
      let s' := runOver r rinv (bits.flatMap fun remaining =>
        [.square output scratch, .copy scratch output] ++
          if exponentBitIsSet exponent remaining then
            [.multiply output base scratch, .copy scratch output]
          else []) s
      s' output = (bits.map (ofBigEndian exponent).testBit).foldl (step (s base)) (s output) ∧
        ∀ i, i ≠ output → i ≠ scratch → s' i = s i := by
    intro bits
    induction bits with
    | nil => exact fun s => ⟨rfl, fun i _ _ => rfl⟩
    | cons bit bits ih =>
      intro s
      obtain ⟨hout₁, hframe₁⟩ := exponentBit_spec r rinv hbase hbase'
        ((ofBigEndian exponent).testBit bit) s
      rw [List.flatMap_cons, runOver_append, exponentBitIsSet_eq]
      obtain ⟨hout₂, hframe₂⟩ := ih (runOver r rinv
        ([.square output scratch, .copy scratch output] ++
          if (ofBigEndian exponent).testBit bit then
            [.multiply output base scratch, .copy scratch output]
          else []) s)
      refine ⟨?_, fun i ho hs => (hframe₂ i ho hs).trans (hframe₁ i ho hs)⟩
      rw [hout₂, hout₁, hframe₁ base hbase hbase']
      rfl
  obtain ⟨hout, hframe⟩ := hbits (List.range (exponent.length * 8)).reverse
    (runOver r rinv [.setSmall 1 output, .convert output] s)
  have hone : runOver r rinv [.setSmall 1 output, .convert output] s output = 1 := by
    simp [runOver, X448Operation.over, hr]
  have hrest : ∀ i, i ≠ output → runOver r rinv [.setSmall 1 output, .convert output] s i = s i := by
    intro i ho
    simp [runOver, X448Operation.over, ho]
  have hlt : ofBigEndian exponent < 2 ^ (exponent.length * 8) := by
    rw [Nat.mul_comm, pow_mul]
    exact ofBigEndian_lt exponent
  rw [montgomeryExponentiatePublic, runOver_append]
  refine ⟨?_, fun i ho hs => (hframe i ho hs).trans (hrest i ho)⟩
  rw [hout, hone, hrest base hbase]
  have hpower := power_eq (s base) (bitsFrom (exponent.length * 8) (ofBigEndian exponent))
  rwa [ofBits_bitsFrom hlt] at hpower

theorem finish_spec (s : X448Block → F) :
    runOver r rinv [.multiply .x2 .inverse .resultMontgomery,
      .multiply .resultMontgomery .oneRegular .resultRegular] s .resultRegular =
        s .x2 * s .inverse * s .oneRegular := by
  simp [runOver, X448Operation.over]

theorem program_spec (scalar exponent : Bytes) (hr : rinv * r = 1) (hu : s .x1 * r = u) :
    runOver r rinv (x448Program scalar exponent) s .resultRegular =
      (let q := (bitsFrom 448 (decodeLittleEndian scalar)).foldl (deferred 39081 u)
          (⟨1, 0, u, 1⟩, false)
        let q := q.1.cswap q.2
        q.x₂ * q.z₂ ^ ofBigEndian exponent) * rinv := by
  have hladder := ladder_spec r scalar (List.range 448).reverse (setup_spec hr hu) false
  rw [x448Program, runOver_append, runOver_append, runOver_append, finish_spec]
  rw [show bitWord false = 0 from rfl] at hladder
  generalize runOver r rinv (x448Ladder scalar 0 (List.range 448).reverse)
    (runOver r rinv x448Setup s) = t at *
  obtain ⟨hpower, hframe⟩ := exponentiate_spec exponent (by decide : X448Block.z2 ≠ .inverse)
    (by decide : X448Block.z2 ≠ .temp1) hr t
  rw [hpower, hframe .x2 (by decide) (by decide), hframe .oneRegular (by decide) (by decide),
    hladder.x₂, hladder.z₂, hladder.one]
  rfl

end ladder

/-! ## The scalar and the peer's value -/

theorem clampX448_spec (c : UInt8) :
    (c &&& 252).toNat = c.toNat / 4 * 4 ∧ (c ||| 128).toNat = 128 + c.toNat % 128 := by
  revert c
  decide +kernel

theorem clampX448Scalar_spec {k : Bytes} (hk : k.length = x448KeyLength) :
    decodeLittleEndian (clampX448Scalar k) = decodeScalar448 k := by
  obtain ⟨c, m, d, rfl, hm⟩ : ∃ c m d, k = c :: (m ++ [d]) ∧ m.length = 54 := by
    match k, hk with
    | c :: k, hk =>
      have hk : k.length = 55 := Nat.succ.inj hk
      have hne : k ≠ [] := by
        rintro rfl
        simp at hk
      refine ⟨c, k.dropLast, k.getLast hne, by rw [List.dropLast_append_getLast], ?_⟩
      rw [List.length_dropLast, hk]
  have hclamp : clampX448Scalar (c :: (m ++ [d])) = (c &&& 252) :: (m ++ [d ||| 128]) := by
    rw [clampX448Scalar, List.modify_zero_cons, List.modify_succ_cons,
      List.modify_eq_take_drop, List.take_left' hm, List.drop_left' hm]
    rfl
  have hlt := decodeLittleEndian_lt m
  rw [hm] at hlt
  rw [hclamp, decodeScalar448, decodeLittleEndian_cons, decodeLittleEndian_cons,
    decodeLittleEndian_concat, decodeLittleEndian_concat, hm, (clampX448_spec c).1,
    (clampX448_spec d).2]
  have hc := c.toNat_lt
  have hd := d.toNat_lt
  omega

section start

variable {N : ℕ} {modulus : Limbs32} (hN : limbsValue modulus = N)
  (hn : modulus.length = x448LimbCount) (hlarge : 2 ^ 32 ≤ N)

include hN hn hlarge

variable {peer : Bytes}

/-- **The peer's value is taken modulo `N`** by one subtraction, where it is below `2 * N`. -/
theorem start_spec (hpeer : peer.length = x448KeyLength) (hlt : decodeLittleEndian peer < 2 * N) :
    AllResidues modulus (x448Start modulus peer) ∧
      limbsValue (x448Start modulus peer .x1) = decodeLittleEndian peer % N := by
  obtain ⟨hlen, hvalue⟩ :=
    littleEndianToLimbs_spec (n := x448LimbCount) hpeer
  have hlen' := hlen.trans hn.symm
  -- The reduced limbs.
  have hx1 : Residue modulus (x448Start modulus peer .x1) ∧
      limbsValue (x448Start modulus peer .x1) = decodeLittleEndian peer % N := by
    rw [mod_of_lt_two_mul hlt, x448Start, Function.update_self]
    by_cases hge : compareLimbs (littleEndianToLimbs x448LimbCount peer) modulus ≥ 0
    · have hle := (compareLimbs_nonneg hlen').1 hge
      obtain ⟨hlength, hdiff⟩ := subtractLimbsInPlace_spec hlen' hle
      rw [hN, hvalue] at hle hdiff
      rw [if_pos hge, if_pos hle]
      exact ⟨⟨hlength.trans hlen', by omega⟩, hdiff⟩
    · have hlt' := mt (compareLimbs_nonneg hlen').2 hge
      rw [hN, hvalue] at hlt'
      rw [if_neg hge, if_neg hlt']
      exact ⟨⟨hlen', by omega⟩, hvalue⟩
  refine ⟨fun i => ?_, hx1.2⟩
  by_cases hi : i = .x1
  · subst hi
    exact hx1.1
  · rw [x448Start, Function.update_of_ne hi]
    exact residue_zero hN hn hlarge

variable (hodd : N % 2 = 1)

include hodd

/-- **The program computes the ladder and the inversion modulo `N`**, and every block stays
    below `N` on the way. -/
theorem x448Run_spec (scalar exponent : Bytes) (hpeer : peer.length = x448KeyLength)
    (hlt : decodeLittleEndian peer < 2 * N) :
    (∃ blocks, x448Run modulus (montgomeryN0Prime (modulus.headD 0)) (x448Program scalar exponent)
        (x448Start modulus peer) = .ok blocks ∧
      (blocks .resultRegular).length = x448LimbCount ∧
      limbsValue (blocks .resultRegular) =
        (let u : ZMod N := (decodeLittleEndian peer : ℕ)
          let q := (bitsFrom 448 (decodeLittleEndian scalar)).foldl (deferred 39081 u)
            (⟨1, 0, u, 1⟩, false)
          let q := q.1.cswap q.2
          q.x₂ * q.z₂ ^ ofBigEndian exponent).val) ∧
    ∀ before after, x448Program scalar exponent = before ++ after →
      ∃ blocks, x448Run modulus (montgomeryN0Prime (modulus.headD 0)) before
          (x448Start modulus peer) = .ok blocks ∧
        AllResidues modulus blocks := by
  obtain ⟨hstart, hx1⟩ := start_spec hN hn hlarge hpeer hlt
  have hunit : blockRadix N * (blockRadix N)⁻¹ = 1 := radix_mul_inv hodd x448LimbCount
  constructor
  · obtain ⟨blocks, hok, hresidues, hvalue⟩ :=
      run_spec hN hn hlarge hodd (x448Program scalar exponent) hstart
    have hu : blockValues N (x448Start modulus peer) .x1 * blockRadix N =
        ((decodeLittleEndian peer : ℕ) : ZMod N) := by
      rw [blockValues, montgomeryElement, hx1, ZMod.natCast_mod]
      change _ * (blockRadix N)⁻¹ * _ = _
      linear_combination ((decodeLittleEndian peer : ℕ) : ZMod N) * hunit
    have hprogram := program_spec scalar exponent (by rw [mul_comm]; exact hunit) hu
    rw [← hvalue] at hprogram
    refine ⟨blocks, hok, (hresidues _).length.trans hn, limbsValue_eq_val hN (hresidues _) ?_⟩
    have hcancel : (limbsValue (blocks .resultRegular) : ZMod N) =
        blockValues N blocks .resultRegular * blockRadix N := by
      rw [blockValues, montgomeryElement]
      change _ = _ * (blockRadix N)⁻¹ * _
      linear_combination -(limbsValue (blocks .resultRegular) : ZMod N) * hunit
    rw [hcancel, hprogram, mul_assoc, mul_comm _ (blockRadix N)]
    rw [hunit, mul_one]
  · intro before after _
    obtain ⟨blocks, hok, hresidues, -⟩ := run_spec hN hn hlarge hodd before hstart
    exact ⟨blocks, hok, hresidues⟩

end start

/-! ## The function -/

theorem x448Constants : ∃ modulusBytes exponentBytes,
    parseHexToBytes x448PrimeHex x448KeyLength = .ok modulusBytes ∧
      parseHexToBytes x448PrimeMinusTwoHex x448KeyLength = .ok exponentBytes ∧
      modulusBytes.length = x448KeyLength ∧
      ofBigEndian modulusBytes = p448 ∧ ofBigEndian exponentBytes = p448 - 2 := by
  have hlength : x448KeyLength = 28 * 2 := rfl
  have hpos : x448KeyLength ≠ 0 := by decide
  have hmodulus := parseHexToBytes_lines
    [0xFFFFFFFFFFFFFFFFFFFFFFFFFFFFFFFFFFFFFFFFFFFFFFFFFFFFFFFE,
      0xFFFFFFFFFFFFFFFFFFFFFFFFFFFFFFFFFFFFFFFFFFFFFFFFFFFFFFFF]
    (rfl : 56 = 2 * 28) hlength hpos
  have hexponent := parseHexToBytes_lines
    [0xFFFFFFFFFFFFFFFFFFFFFFFFFFFFFFFFFFFFFFFFFFFFFFFFFFFFFFFE,
      0xFFFFFFFFFFFFFFFFFFFFFFFFFFFFFFFFFFFFFFFFFFFFFFFFFFFFFFFD]
    (rfl : 56 = 2 * 28) hlength hpos
  exact ⟨_, _, hmodulus, hexponent, by decide +kernel⟩

/-- **`X448` is the function of RFC 7748**: it does not fail on a peer's value other than
    zero octets, and every block stays below the prime between any two operations. -/
theorem x448_eq {privateKey peerPublicKey : Bytes} (hprivate : privateKey.length = x448KeyLength)
    (hpeer : peerPublicKey.length = x448KeyLength) (hnonzero : ∃ c ∈ peerPublicKey, c ≠ 0) :
    x448 privateKey peerPublicKey = .ok (x448Function privateKey peerPublicKey) ∧
      decodeLittleEndian (x448Function privateKey peerPublicKey) < p448 ∧
      ∃ modulusBytes exponentBytes,
        parseHexToBytes x448PrimeHex x448KeyLength = .ok modulusBytes ∧
        parseHexToBytes x448PrimeMinusTwoHex x448KeyLength = .ok exponentBytes ∧
        ∀ before after,
          x448Program (clampX448Scalar privateKey) exponentBytes = before ++ after →
          let modulus := bigEndianToLimbs x448LimbCount modulusBytes
          let n0Prime := montgomeryN0Prime (modulus.headD 0)
          ∃ blocks, x448Run modulus n0Prime before (x448Start modulus peerPublicKey) = .ok blocks ∧
            (∀ i, (blocks i).length = x448LimbCount ∧ limbsValue (blocks i) < p448) ∧
            ∀ i j, montgomeryMultiply (blocks i) (blocks j) modulus n0Prime x448ProductCount ≠
              .error statusIntegerOverflow := by
  obtain ⟨modulusBytes, exponentBytes, hmodulus, hexponent, hlength, hp, hp2⟩ := x448Constants
  obtain ⟨hn, hN⟩ := bigEndianToLimbs_spec (n := x448LimbCount) hlength
  rw [hp] at hN
  have hlarge : 2 ^ 32 ≤ p448 := by norm_num [p448]
  have hodd : p448 % 2 = 1 := by norm_num [p448]
  have hpeerlt : decodeLittleEndian peerPublicKey < 2 * p448 := by
    have hlt := decodeLittleEndian_lt peerPublicKey
    have hbound : 256 ^ x448KeyLength ≤ 2 * p448 := by norm_num [p448, x448KeyLength]
    rw [hpeer] at hlt
    exact hlt.trans_le hbound
  obtain ⟨⟨blocks, hok, hcount, hvalue⟩, hprefix⟩ :=
    x448Run_spec hN hn hlarge hodd (clampX448Scalar privateKey) exponentBytes hpeer hpeerlt
  have hresult : limbsValue (blocks .resultRegular) =
      (ladder448 (decodeScalar448 privateKey) (decodeLittleEndian peerPublicKey : ℕ)).val := by
    rw [hvalue, clampX448Scalar_spec hprivate, hp2]
    rfl
  refine ⟨?_, ?_, modulusBytes, exponentBytes, hmodulus, hexponent, ?_⟩
  · have hzero : isAllZero peerPublicKey = false := by
      rw [← Bool.not_eq_true, isAllZero_iff]
      push Not
      exact hnonzero
    have hoctets := limbsToLittleEndian_spec hcount
    rw [hresult] at hoctets
    rw [x448, hzero, if_neg Bool.false_ne_true, Incremental.bind_of_ok hmodulus,
      Incremental.bind_of_ok hexponent, Incremental.bind_of_ok hok]
    exact congrArg Except.ok hoctets
  · have hval := ZMod.val_lt (ladder448 (decodeScalar448 privateKey)
      (decodeLittleEndian peerPublicKey : ℕ))
    have hbound : p448 ≤ 256 ^ 56 := by norm_num [p448]
    rw [x448Function, encodeUCoordinate448, decodeLittleEndian, List.reverse_reverse,
      ofBigEndian_bigEndian (hval.trans_le hbound)]
    exact hval
  · intro before after hprogram
    obtain ⟨blocks, hok, hresidues⟩ := hprefix before after hprogram
    refine ⟨blocks, hok, fun i => ⟨(hresidues i).length.trans hn, ?_⟩, fun i j => ?_⟩
    · rw [← hN]
      exact (hresidues i).lt
    · obtain ⟨output, hproduct, -⟩ := montgomeryElement_multiply hN hodd hn (hresidues i)
        (hresidues j) (rfl : x448ProductCount = _)
      rw [hproduct]
      rintro ⟨⟩

/-- The base point, with a scalar of octets one. -/
theorem x448_eq_base :
    x448 (List.replicate 56 1) (5 :: List.replicate 55 0) =
      .ok (x448Function (List.replicate 56 1) (5 :: List.replicate 55 0)) :=
  (x448_eq (by decide) (by decide) ⟨5, List.mem_cons_self, by decide⟩).1

end KernelHttp.Crypto
