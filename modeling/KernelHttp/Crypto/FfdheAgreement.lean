/-
  Finite-field key exchange is exact (`crypto/KeyExchange.cpp`).

  Accepted public keys are the numbers from 2 to two below the modulus (`validate_spec`), and two
  parties that accept each other's derive the same octets.
-/
import KernelHttp.Crypto.Ffdhe
import KernelHttp.Crypto.MontgomeryForm
import KernelHttp.Lib.Incremental

namespace KernelHttp.Crypto

open BigEndian Incremental Powering

/-! ## Public keys -/

/-- **A key is normalised to the octets of its number**, unless that is zero or too large. -/
theorem normalize_spec {publicKey : Bytes} (hne : publicKey ≠ []) {n : ℕ} (hn : n ≠ 0) :
    normalizeFfdhePublicKey publicKey n =
      if ofBigEndian publicKey = 0 ∨ 256 ^ n ≤ ofBigEndian publicKey then
        .error statusInvalidNetworkResponse
      else .ok (bigEndian n (ofBigEndian publicKey)) := by
  have hempty : (publicKey.dropWhile (· == 0)).length = 0 ↔ ofBigEndian publicKey = 0 := by
    rw [← Nat.le_zero, dropWhile_length_le, pow_zero, Nat.lt_one_iff]
  have hlong : (publicKey.dropWhile (· == 0)).length > n ↔ 256 ^ n ≤ ofBigEndian publicKey := by
    rw [gt_iff_lt, ← not_le, dropWhile_length_le, not_lt]
  rw [normalizeFfdhePublicKey, if_neg (by simp [hne, hn])]
  simp only [hempty, hlong]
  split
  · rfl
  · rename_i h
    rw [not_or, not_le] at h
    have hle := (dropWhile_length_le publicKey n).2 h.2
    -- The zeros in front make up the length.
    have hpad : (List.replicate (n - (publicKey.dropWhile (· == 0)).length) 0 ++
        publicKey.dropWhile (· == 0)).length = n := by
      rw [List.length_append, List.length_replicate]
      omega
    have hvalue : ofBigEndian (List.replicate (n - (publicKey.dropWhile (· == 0)).length) 0 ++
        publicKey.dropWhile (· == 0)) = ofBigEndian publicKey := by
      rw [ofBigEndian_append, ofBigEndian_replicate_zero, zero_mul, zero_add, ofBigEndian_dropWhile]
    have hback := bigEndian_ofBigEndian
      (List.replicate (n - (publicKey.dropWhile (· == 0)).length) 0 ++
        publicKey.dropWhile (· == 0))
    rw [hpad, hvalue] at hback
    rw [hback]

theorem compareBigEndian_spec {left right : Bytes} (hlen : left.length = right.length) :
    compareBigEndian left right ≥ 0 ↔ ofBigEndian right ≤ ofBigEndian left := by
  induction left generalizing right with
  | nil =>
    cases right with
    | nil => simp [compareBigEndian]
    | cons r right => simp at hlen
  | cons l left ih =>
    cases right with
    | nil => simp at hlen
    | cons r right =>
      have hlen : left.length = right.length := Nat.succ.inj hlen
      have hl := ofBigEndian_lt left
      have hr := ofBigEndian_lt right
      rw [hlen] at hl
      rw [compareBigEndian, ofBigEndian_cons, ofBigEndian_cons, hlen]
      simp only [UInt8.lt_iff_toNat_lt, gt_iff_lt]
      rcases lt_trichotomy l.toNat r.toNat with h | h | h
      · have hstep := Nat.mul_le_mul_right (256 ^ right.length) (Nat.succ_le_of_lt h)
        rw [Nat.succ_mul] at hstep
        rw [if_pos h]
        exact iff_of_false (by decide) (by omega)
      · rw [if_neg (by omega), if_neg (by omega), ih hlen, h]
        omega
      · have hstep := Nat.mul_le_mul_right (256 ^ right.length) (Nat.succ_le_of_lt h)
        rw [Nat.succ_mul] at hstep
        rw [if_neg (by omega), if_pos h]
        exact iff_of_true (by decide) (by omega)

theorem isBigEndianOne_iff (value : Bytes) : isBigEndianOne value = true ↔ ofBigEndian value = 1 := by
  induction value using List.reverseRecOn with
  | nil => simp [isBigEndianOne, ofBigEndian]
  | append_singleton t c _ =>
    have hzero : (∀ d ∈ t, d = 0) ↔ ofBigEndian t = 0 := by
      have hspec := dropWhile_length_le t 0
      rw [Nat.le_zero, List.length_eq_zero_iff, List.dropWhile_eq_nil_iff, pow_zero,
        Nat.lt_one_iff] at hspec
      simpa using hspec
    have hc := c.toNat_lt
    rw [ofBigEndian_concat]
    simp only [isBigEndianOne, List.length_append, List.length_singleton, Nat.add_sub_cancel,
      List.getD_append_right, le_refl, Nat.sub_self, List.getD_cons_zero, List.take_left', hzero,
      decide_eq_true_eq]
    constructor
    · rintro ⟨-, rfl, h⟩
      rw [h]
      rfl
    · intro h
      exact ⟨by omega, UInt8.toNat_inj.1 (by change c.toNat = 1; omega), by omega⟩

theorem subtractOneBigEndian_spec {value : Bytes} (hpos : 0 < ofBigEndian value) :
    (subtractOneBigEndian value).length = value.length ∧
      ofBigEndian (subtractOneBigEndian value) = ofBigEndian value - 1 := by
  have hloop : ∀ value : Bytes, 0 < decodeLittleEndian value →
      (subtractOneLoop value).length = value.length ∧
        decodeLittleEndian (subtractOneLoop value) = decodeLittleEndian value - 1 := by
    intro value
    induction value with
    | nil => exact fun h => absurd h (by decide)
    | cons c value ih =>
      intro h
      rw [decodeLittleEndian_cons] at h
      rw [subtractOneLoop]
      by_cases hc : c ≠ 0
      · have hpos : 1 ≤ c.toNat := by
          rw [Nat.one_le_iff_ne_zero]
          intro h0
          exact hc (UInt8.toNat_inj.1 h0)
        have hsub : (c - 1).toNat = c.toNat - 1 := by
          rw [UInt8.toNat_sub_of_le _ _ (by rwa [UInt8.le_iff_toNat_le])]
          rfl
        rw [if_pos hc, decodeLittleEndian_cons, decodeLittleEndian_cons, hsub]
        exact ⟨rfl, by omega⟩
      · have hc : c = 0 := not_not.1 hc
        subst hc
        obtain ⟨hlen, hvalue⟩ := ih (by simpa using h)
        rw [if_neg (by simp), decodeLittleEndian_cons, decodeLittleEndian_cons, hvalue]
        refine ⟨congrArg (· + 1) hlen, ?_⟩
        change (decodeLittleEndian value - 1) * 256 + 255 = decodeLittleEndian value * 256 + 0 - 1
        have : 0 < decodeLittleEndian value := by simpa using h
        omega
  have hspec := hloop value.reverse (by rwa [decodeLittleEndian, List.reverse_reverse])
  rw [List.length_reverse] at hspec
  simp only [decodeLittleEndian, List.reverse_reverse] at hspec
  rw [subtractOneBigEndian, List.length_reverse]
  exact hspec

/-! ## The groups -/

def FfdheGroupParameters.modulus (parameters : FfdheGroupParameters) : ℕ :=
  match parseHexToBytes parameters.modulusHex parameters.modulusLength with
  | .ok modulusBytes => ofBigEndian modulusBytes
  | .error _ => 0

/-- What the exponentiation needs of a group. -/
structure FfdheGroupParameters.Sound (parameters : FfdheGroupParameters) : Prop where
  parsed : parseHexToBytes parameters.modulusHex parameters.modulusLength =
    .ok (bigEndian parameters.modulusLength parameters.modulus)
  limbs : parameters.modulusLength = 4 * limbCountForBytes parameters.modulusLength
  fits : parameters.modulus < 256 ^ parameters.modulusLength
  odd : parameters.modulus % 2 = 1
  large : 3 ≤ parameters.modulus

theorem sound_of_lines {group : KeyExchangeGroup} {length : ℕ} (lines : List ℕ)
    (hlen : length = 32 * lines.length) (hpos : length ≠ 0)
    (hvalue : ofBigEndian (lines.flatMap (bigEndian 32)) % 2 = 1 ∧
      3 ≤ ofBigEndian (lines.flatMap (bigEndian 32))) :
    (⟨group, lines.flatMap (hexText 64), length⟩ : FfdheGroupParameters).Sound := by
  have hparse := parseHexToBytes_lines lines (rfl : 64 = 2 * 32) hlen hpos
  have hcount : (lines.flatMap (bigEndian 32)).length = length := by
    subst hlen
    clear hpos hvalue hparse
    induction lines with
    | nil => rfl
    | cons v lines ih =>
      rw [List.flatMap_cons, List.length_append, ih, bigEndian_length, List.length_cons]
      ring
  have hmodulus : (⟨group, lines.flatMap (hexText 64), length⟩ : FfdheGroupParameters).modulus =
      ofBigEndian (lines.flatMap (bigEndian 32)) := by
    rw [FfdheGroupParameters.modulus, hparse]
  refine ⟨?_, ?_, ?_, ?_, ?_⟩
  · rw [hmodulus, hparse]
    conv_rhs => rw [← hcount, bigEndian_ofBigEndian]
  · change length = 4 * ((length + 4 - 1) / 4)
    omega
  · rw [hmodulus, ← hcount]
    exact ofBigEndian_lt _
  · rw [hmodulus]
    exact hvalue.1
  · rw [hmodulus]
    exact hvalue.2

/-- **Every group of the table is sound.** -/
theorem ffdheGroups_sound {parameters : FfdheGroupParameters} (h : parameters ∈ ffdheGroups) :
    parameters.Sound := by
  simp only [ffdheGroups, List.mem_cons, List.not_mem_nil, or_false] at h
  rcases h with rfl | rfl | rfl | rfl | rfl
  · exact sound_of_lines _ rfl (by decide) (by decide +kernel)
  · exact sound_of_lines _ rfl (by decide) (by decide +kernel)
  · exact sound_of_lines _ rfl (by decide) (by decide +kernel)
  · exact sound_of_lines _ rfl (by decide) (by decide +kernel)
  · exact sound_of_lines _ rfl (by decide) (by decide +kernel)

/-! ## The exponentiation -/

section exponentiation

variable {N n productCount : ℕ} {modulus base result : Limbs32} (hN : limbsValue modulus = N)
  (hodd : N % 2 = 1) (hn : modulus.length = n) (hcount : productCount = n * 2 + 1)

include hN hodd hn hcount

theorem ffdheExponentBit_spec (hbase : Residue modulus base) (hresult : Residue modulus result)
    (k : Bool) :
    ∃ result', ffdheExponentBit modulus base (montgomeryN0Prime (modulus.headD 0)) productCount
        result k = .ok result' ∧
      Residue modulus result' ∧
      montgomeryElement N n result' =
        step (montgomeryElement N n base) (montgomeryElement N n result) k := by
  obtain ⟨square, hsquare, rsquare, vsquare⟩ :=
    montgomeryElement_multiply hN hodd hn hresult hresult hcount
  obtain ⟨scratch, hscratch, rscratch, vscratch⟩ :=
    montgomeryElement_multiply hN hodd hn rsquare hbase hcount
  have hselect := selectLimbs_eq (rsquare.length.trans rscratch.length.symm) k
  refine ⟨selectLimbs square scratch k, ?_, ?_, ?_⟩
  · rw [ffdheExponentBit, bind_of_ok hsquare, bind_of_ok hscratch]
  · rw [hselect]
    cases k with
    | false => exact rsquare
    | true => exact rscratch
  · rw [hselect, step]
    cases k with
    | false => exact vsquare
    | true => exact vscratch.trans (by rw [vsquare]; rfl)

theorem ffdheExponentBits_spec (exponent : Bytes) (hbase : Residue modulus base) (bits : List ℕ)
    (hresult : Residue modulus result) :
    ∃ result', bits.foldlM (fun result remaining =>
        ffdheExponentBit modulus base (montgomeryN0Prime (modulus.headD 0)) productCount result
          (exponentBitIsSet exponent remaining)) result = .ok result' ∧
      Residue modulus result' ∧
      montgomeryElement N n result' =
        (bits.map (ofBigEndian exponent).testBit).foldl (step (montgomeryElement N n base))
          (montgomeryElement N n result) := by
  induction bits generalizing result with
  | nil => exact ⟨result, rfl, hresult, rfl⟩
  | cons bit bits ih =>
    obtain ⟨result₁, hok₁, r₁, v₁⟩ := ffdheExponentBit_spec hN hodd hn hcount hbase hresult
      (exponentBitIsSet exponent bit)
    obtain ⟨result₂, hok₂, r₂, v₂⟩ := ih r₁
    refine ⟨result₂, ?_, r₂, ?_⟩
    · rw [List.foldlM_cons, bind_of_ok hok₁]
      exact hok₂
    · rw [v₂, v₁, exponentBitIsSet_eq]
      rfl

end exponentiation

variable {parameters : FfdheGroupParameters}

/-- **The exponentiation computes the power modulo the modulus**, in as many octets as the
    modulus has. -/
theorem ffdheModularExponent_spec (hp : parameters.Sound) {base exponent : Bytes}
    {outputLength : ℕ} (hexponent : exponent ≠ []) (houtput : parameters.modulusLength ≤ outputLength)
    (hpos : 1 ≤ ofBigEndian base) (hlt : ofBigEndian base < parameters.modulus) :
    ffdheModularExponent parameters base exponent outputLength =
      .ok (bigEndian parameters.modulusLength
        (ofBigEndian base ^ ofBigEndian exponent % parameters.modulus)) := by
  have hbase : base ≠ [] := by
    rintro rfl
    exact absurd hpos (by decide)
  have hlength : parameters.modulusLength ≠ 0 := by
    intro h
    have hfits := hp.fits
    have hlarge := hp.large
    rw [h, pow_zero] at hfits
    omega
  have hlimbs := hp.limbs
  set limbCount := limbCountForBytes parameters.modulusLength
  obtain ⟨hmlen, hmvalue⟩ := bigEndianToLimbs_spec
    ((bigEndian_length _ parameters.modulus).trans hlimbs)
  obtain ⟨hblen, hbvalue⟩ := bigEndianToLimbs_spec
    ((bigEndian_length _ (ofBigEndian base)).trans hlimbs)
  rw [ofBigEndian_bigEndian hp.fits] at hmvalue
  rw [ofBigEndian_bigEndian (hlt.trans hp.fits)] at hbvalue
  set modulus := bigEndianToLimbs limbCount (bigEndian parameters.modulusLength parameters.modulus)
  set baseRegular := bigEndianToLimbs limbCount
    (bigEndian parameters.modulusLength (ofBigEndian base))
  have hnormal : normalizeFfdhePublicKey base parameters.modulusLength =
      .ok (bigEndian parameters.modulusLength (ofBigEndian base)) := by
    rw [normalize_spec hbase hlength, if_neg (not_or.2 ⟨by omega, not_le.2 (hlt.trans hp.fits)⟩)]
  -- The base and the number one, in Montgomery form.
  have rbase : Residue modulus baseRegular := ⟨hblen.trans hmlen.symm, by rwa [hmvalue, hbvalue]⟩
  have honelen : ((List.replicate limbCount 0).set 0 1 : Limbs32).length = modulus.length := by
    rw [List.length_set, List.length_replicate, hmlen]
  have honevalue : limbsValue ((List.replicate limbCount 0).set 0 1) = 1 := by
    obtain ⟨m, hm⟩ : ∃ m, limbCount = m + 1 := ⟨limbCount - 1, by omega⟩
    rw [hm]
    exact setSmallLimbs_value m 1
  have rone : Residue modulus ((List.replicate limbCount 0).set 0 1) :=
    ⟨honelen, by rw [honevalue, hmvalue]; exact hp.large.trans' (by norm_num)⟩
  have vbase := montgomeryElement_convert hmvalue hp.odd hmlen rbase
  have vone := montgomeryElement_convert hmvalue hp.odd hmlen rone
  obtain ⟨result, hfold, rresult, vresult⟩ := ffdheExponentBits_spec hmvalue hp.odd hmlen rfl
    exponent (convertToMontgomery_spec rbase).1 (List.range (exponent.length * 8)).reverse
    (convertToMontgomery_spec rone).1
  obtain ⟨output, houtputOk, routput, voutput⟩ :=
    value_multiply_one hmvalue hp.odd hmlen rresult rone honevalue rfl
  have hpower : limbsValue output = ofBigEndian base ^ ofBigEndian exponent % parameters.modulus := by
    have hbits : ofBigEndian exponent < 2 ^ (exponent.length * 8) := by
      rw [Nat.mul_comm, pow_mul]
      exact ofBigEndian_lt exponent
    have hspec := power_eq (ofBigEndian base : ZMod parameters.modulus)
      (bitsFrom (exponent.length * 8) (ofBigEndian exponent))
    rw [ofBits_bitsFrom hbits] at hspec
    rw [vbase, vone, honevalue, hbvalue, Nat.cast_one] at vresult
    rw [voutput, vresult.trans hspec, ← Nat.cast_pow, ZMod.val_natCast]
  rw [ffdheModularExponent, if_neg (by simp [hbase, hexponent, houtput]), bind_of_ok hp.parsed,
    bind_of_ok hnormal]
  refine (bind_of_ok hfold _).trans ((bind_of_ok houtputOk _).trans ?_)
  have hoctets := limbsToBigEndian_spec (routput.length.trans hmlen)
  rw [← hlimbs, hpower] at hoctets
  rw [hoctets]

/-- **What is accepted as a public key**: any encoding of a number from 2 to two below the
    modulus. -/
theorem validate_spec (hp : parameters.Sound) (publicKey : Bytes) :
    validateFfdhePublicKeyWithParameters parameters publicKey = .ok () ↔
      2 ≤ ofBigEndian publicKey ∧ ofBigEndian publicKey ≤ parameters.modulus - 2 := by
  have hlarge := hp.large
  have hfits := hp.fits
  have hlength : parameters.modulusLength ≠ 0 := by
    intro h
    rw [h, pow_zero] at hfits
    omega
  rw [validateFfdhePublicKeyWithParameters, bind_of_ok hp.parsed]
  by_cases hempty : publicKey = []
  · subst hempty
    have hvalue : ofBigEndian [] = 0 := rfl
    rw [hvalue, normalizeFfdhePublicKey, if_pos (Or.inl List.length_nil)]
    exact iff_of_false nofun (by omega)
  rw [normalize_spec hempty hlength]
  by_cases hout : ofBigEndian publicKey = 0 ∨ 256 ^ parameters.modulusLength ≤ ofBigEndian publicKey
  · rw [if_pos hout]
    exact iff_of_false nofun (by omega)
  rw [if_neg hout, bind_of_ok rfl]
  rw [not_or, not_le] at hout
  have hnormal := ofBigEndian_bigEndian hout.2
  obtain ⟨hblen, hbound⟩ := subtractOneBigEndian_spec
    (by rw [ofBigEndian_bigEndian hfits]; omega :
      0 < ofBigEndian (bigEndian parameters.modulusLength parameters.modulus))
  rw [ofBigEndian_bigEndian hfits] at hbound
  have hcompare := compareBigEndian_spec
    ((bigEndian_length _ (ofBigEndian publicKey)).trans
      ((bigEndian_length _ parameters.modulus).symm.trans hblen.symm))
  rw [hnormal, hbound] at hcompare
  have hzero : ¬ isAllZero (bigEndian parameters.modulusLength (ofBigEndian publicKey)) = true := by
    rw [isAllZero_iff]
    intro h
    have hdrop := dropWhile_length_le (bigEndian parameters.modulusLength (ofBigEndian publicKey)) 0
    rw [hnormal, Nat.le_zero, List.length_eq_zero_iff, List.dropWhile_eq_nil_iff] at hdrop
    have := hdrop.1 fun c hc => by simpa using h c hc
    omega
  by_cases hrefused : isBigEndianOne (bigEndian parameters.modulusLength (ofBigEndian publicKey)) =
      true ∨ compareBigEndian (bigEndian parameters.modulusLength (ofBigEndian publicKey))
        (subtractOneBigEndian (bigEndian parameters.modulusLength parameters.modulus)) ≥ 0
  · rw [if_pos (Or.inr hrefused)]
    refine iff_of_false nofun ?_
    rw [isBigEndianOne_iff, hnormal, hcompare] at hrefused
    omega
  · rw [if_neg (not_or.2 ⟨hzero, hrefused⟩)]
    refine iff_of_true rfl ?_
    rw [isBigEndianOne_iff, hnormal, hcompare] at hrefused
    omega

/-! ## The exchange -/

/-- A group of the table is found under its name. -/
theorem findFfdheGroup_spec (h : parameters ∈ ffdheGroups) :
    findFfdheGroup parameters.group = some parameters := by
  simp only [ffdheGroups, List.mem_cons, List.not_mem_nil, or_false] at h
  rcases h with rfl | rfl | rfl | rfl | rfl <;> rfl

variable {privateKey : Bytes} {capacity : ℕ}

theorem derivePublicKey_spec (h : parameters ∈ ffdheGroups)
    (hprivate : privateKey ≠ []) (hcapacity : parameters.modulusLength ≤ capacity) :
    derivePublicKey parameters.group privateKey capacity =
      some (.ok (bigEndian parameters.modulusLength
        (2 ^ ofBigEndian privateKey % parameters.modulus))) := by
  have hp := ffdheGroups_sound h
  have hlarge := hp.large
  unfold derivePublicKey
  rw [findFfdheGroup_spec h]
  change (if _ then _ else _) = _
  rw [if_neg (by simp [hprivate, hcapacity])]
  exact congrArg some (ffdheModularExponent_spec hp hprivate hcapacity (by decide)
    (by change 2 < _; omega))

theorem deriveSharedSecret_spec (h : parameters ∈ ffdheGroups) {peerPublicKey : Bytes}
    (hprivate : privateKey ≠ []) (hcapacity : parameters.modulusLength ≤ capacity)
    (haccepted : validateFfdhePublicKeyWithParameters parameters peerPublicKey = .ok ()) :
    deriveSharedSecret parameters.group privateKey peerPublicKey capacity =
      some (.ok (bigEndian parameters.modulusLength
        (ofBigEndian peerPublicKey ^ ofBigEndian privateKey % parameters.modulus))) := by
  have hp := ffdheGroups_sound h
  have hlarge := hp.large
  have hrange := (validate_spec hp peerPublicKey).1 haccepted
  have hpeer : peerPublicKey ≠ [] := by
    rintro rfl
    exact absurd hrange.1 (by decide)
  unfold deriveSharedSecret
  rw [findFfdheGroup_spec h]
  change (if _ then _ else _) = _
  rw [if_neg (by simp [hprivate, hpeer, hcapacity]), bind_of_ok haccepted]
  exact congrArg some (ffdheModularExponent_spec hp hprivate hcapacity (by omega) (by omega))

/-- **Finite-field Diffie-Hellman is exact and safe**: the exponentiation computes the power,
    the check accepts the numbers from 2 to two below the modulus, and two parties with
    accepted public keys derive the same octets. -/
theorem ffdhe_agree (h : parameters ∈ ffdheGroups) :
    (∀ (base exponent : Bytes) (outputLength : ℕ), exponent ≠ [] →
      parameters.modulusLength ≤ outputLength → 1 ≤ ofBigEndian base →
      ofBigEndian base ≤ parameters.modulus - 1 →
      ∃ output, ffdheModularExponent parameters base exponent outputLength = .ok output ∧
        output.length = parameters.modulusLength ∧
        ofBigEndian output = ofBigEndian base ^ ofBigEndian exponent % parameters.modulus) ∧
    (∀ publicKey, validateFfdhePublicKeyWithParameters parameters publicKey = .ok () ↔
      2 ≤ ofBigEndian publicKey ∧ ofBigEndian publicKey ≤ parameters.modulus - 2) ∧
    ∀ (a b publicA publicB : Bytes) (capacity : ℕ), a ≠ [] → b ≠ [] →
      parameters.modulusLength ≤ capacity →
      derivePublicKey parameters.group a capacity = some (.ok publicA) →
      derivePublicKey parameters.group b capacity = some (.ok publicB) →
      validateFfdhePublicKeyWithParameters parameters publicA = .ok () →
      validateFfdhePublicKeyWithParameters parameters publicB = .ok () →
      ∃ secret, deriveSharedSecret parameters.group a publicB capacity = some (.ok secret) ∧
        deriveSharedSecret parameters.group b publicA capacity = some (.ok secret) := by
  have hp := ffdheGroups_sound h
  have hlarge := hp.large
  have hmod : ∀ v, v % parameters.modulus < 256 ^ parameters.modulusLength := fun v =>
    (Nat.mod_lt v (by omega)).trans hp.fits
  refine ⟨?_, validate_spec hp, ?_⟩
  · intro base exponent outputLength hexponent houtput hpos hle
    refine ⟨_, ffdheModularExponent_spec hp hexponent houtput hpos (by omega),
      bigEndian_length _ _, ofBigEndian_bigEndian (hmod _)⟩
  · intro a b publicA publicB capacity ha hb hcapacity hA hB hacceptedA hacceptedB
    rw [derivePublicKey_spec h ha hcapacity] at hA
    rw [derivePublicKey_spec h hb hcapacity] at hB
    obtain rfl := Except.ok.inj (Option.some.inj hA)
    obtain rfl := Except.ok.inj (Option.some.inj hB)
    refine ⟨_, deriveSharedSecret_spec h ha hcapacity hacceptedB, ?_⟩
    rw [deriveSharedSecret_spec h hb hcapacity hacceptedA, ofBigEndian_bigEndian (hmod _),
      ofBigEndian_bigEndian (hmod _), ← Nat.pow_mod, ← Nat.pow_mod, ← pow_mul, ← pow_mul,
      Nat.mul_comm]

/-- In the smallest group, a base with a leading zero. -/
theorem ffdhe_agree_2048 :
    ∃ output, ffdheModularExponent ⟨.ffdhe2048, ffdhe2048ModulusHex, 256⟩ [0, 2] [3] 256 =
        .ok output ∧ output.length = 256 ∧
      ofBigEndian output = ofBigEndian [0, 2] ^ ofBigEndian [3] %
        (⟨.ffdhe2048, ffdhe2048ModulusHex, 256⟩ : FfdheGroupParameters).modulus :=
  (ffdhe_agree (List.mem_cons_self : _ ∈ ffdheGroups)).1 [0, 2] [3] 256 (by decide) (by decide)
    (by decide) (Nat.le_sub_one_of_lt
      (ffdheGroups_sound (List.mem_cons_self : _ ∈ ffdheGroups)).large)

end KernelHttp.Crypto
