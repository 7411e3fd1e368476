/-
  `X25519` is the function of RFC 7748 (`crypto/KeyExchange.cpp`).

  A round is a step of the ladder between two exchanges (`x25519Round_spec`), on reduced elements.
-/
import KernelHttp.Crypto.FieldPacking

namespace KernelHttp.Crypto

open BigEndian Checked Limbs MontgomeryLadder

/-! ## The scalar -/

theorem scalarBit_eq (t : Bytes) (bit : ℕ) :
    scalarBit t bit = if (decodeLittleEndian t).testBit bit then 1 else 0 := by
  rw [scalarBit, (bit_index bit).1, (bit_index bit).2, testBit_toNat, testBit_getD]
  split_ifs <;> rfl

theorem clamp_spec (c : UInt8) :
    (c &&& 248).toNat = c.toNat / 8 * 8 ∧ (c &&& 127 ||| 64).toNat = 64 + c.toNat % 64 := by
  revert c
  decide +kernel

theorem clampX25519Scalar_spec {k : Bytes} (hlength : k.length = 32) :
    decodeLittleEndian (clampX25519Scalar k) = decodeScalar25519 k := by
  obtain ⟨c, k, rfl⟩ := List.exists_cons_of_length_eq_add_one hlength
  obtain ⟨m, d, rfl⟩ : ∃ m d, k = m ++ [d] :=
    ⟨_, _, (List.dropLast_append_getLast (List.ne_nil_of_length_eq_add_one
      (Nat.succ_injective hlength))).symm⟩
  have hm : m.length = 30 := by simpa using hlength
  have hclamp : clampX25519Scalar (c :: (m ++ [d])) =
      (c &&& 248) :: (m ++ [d &&& 127 ||| 64]) := by
    rw [clampX25519Scalar, List.modify_zero_cons, List.modify_succ_cons,
      List.modify_eq_take_drop, List.take_left' hm, List.drop_left' hm]
    rfl
  have hlt := decodeLittleEndian_lt m
  have hc := c.toNat_lt
  have hd := d.toNat_lt
  rw [hm] at hlt
  rw [hclamp, decodeScalar25519, decodeLittleEndian_cons, decodeLittleEndian_cons,
    decodeLittleEndian_concat, decodeLittleEndian_concat, hm, (clamp_spec c).1, (clamp_spec d).2]
  omega

/-! ## The ladder -/

/-- The field elements of the program stand for the coordinates of the ladder. -/
structure Denotes (s : X25519State) (q : Pairs Field25519) : Prop where
  a : Reduced s.a ∧ element s.a = q.x₂
  b : Reduced s.b ∧ element s.b = q.x₃
  c : Reduced s.c ∧ element s.c = q.z₂
  d : Reduced s.d ∧ element s.d = q.z₃

variable {x : FieldElement} {s : X25519State} {q : Pairs Field25519}

/-- The elements behind an exchange. -/
def X25519State.select (s : X25519State) (k : Bool) : X25519State :=
  if k then ⟨s.b, s.a, s.d, s.c⟩ else s

theorem Denotes.select (h : Denotes s q) (k : Bool) : Denotes (s.select k) (q.cswap k) := by
  cases k with
  | false => exact h
  | true => exact ⟨h.b, h.a, h.d, h.c⟩

theorem Denotes.select_eq (h : Denotes s q) (k : Bool) :
    selectFieldElement s.a s.b (if k then 1 else 0) = ((s.select k).a, (s.select k).b) ∧
      selectFieldElement s.c s.d (if k then 1 else 0) = ((s.select k).c, (s.select k).d) := by
  have hbounded : ∀ {y}, Reduced y → Bounded (2 ^ 62) y := fun hy => hy.bounded.mono (by norm_num)
  rw [selectFieldElement_spec (hbounded h.a.1) (hbounded h.b.1),
    selectFieldElement_spec (hbounded h.c.1) (hbounded h.d.1)]
  cases k with
  | false => exact ⟨rfl, rfl⟩
  | true => exact ⟨rfl, rfl⟩

theorem constants_checked : Within (2 ^ 18) field121665 ∧ number field121665 = 121665 ∧
    Digits radix (List.replicate fieldElementLength 0) ∧
    Digits radix ((List.replicate fieldElementLength 0).set 0 1) ∧
    number ((List.replicate fieldElementLength 0).set 0 1) = 1 := by
  unfold Within Digits
  decide

theorem field121665_spec : Bounded (2 ^ 18) field121665 ∧ element field121665 = 121665 := by
  refine ⟨⟨rfl, constants_checked.1⟩, ?_⟩
  rw [element, constants_checked.2.1]
  rfl

variable {y z : FieldElement}

theorem add_reduced (hy : Reduced y) (hz : Reduced z) :
    ∃ w, addFieldElement y z = some w ∧ Bounded (2 ^ 18) w ∧ element w = element y + element z := by
  obtain ⟨w, hw, hbounded, hnumber⟩ :=
    addFieldElement_spec hy.bounded hz.bounded (by norm_num)
  exact ⟨w, hw, hbounded, by rw [element, hnumber, Int.cast_add]; rfl⟩

theorem subtract_reduced (hy : Reduced y) (hz : Reduced z) :
    ∃ w, subtractFieldElement y z = some w ∧ Bounded (2 ^ 18) w ∧
      element w = element y - element z := by
  obtain ⟨w, hw, hbounded, hnumber⟩ :=
    subtractFieldElement_spec hy.bounded hz.bounded (by norm_num)
  exact ⟨w, hw, hbounded, by rw [element, hnumber, Int.cast_sub]; rfl⟩

theorem Reduced.factor (h : Reduced y) : Bounded (2 ^ 18) y :=
  h.bounded.mono (by norm_num)

/-- **A round is a step of the ladder between two exchanges.** -/
theorem x25519Round_spec (hx : Reduced x) (h : Denotes s q) (k : Bool) :
    ∃ s', x25519Round x s (if k then 1 else 0) = some s' ∧
      Denotes s' (exchanged 121665 (element x) q k) := by
  obtain ⟨⟨ha, va⟩, ⟨hb, vb⟩, ⟨hc, vc⟩, hd, vd⟩ := h.select k
  obtain ⟨hab, hcd⟩ := h.select_eq k
  obtain ⟨h121665, v121665⟩ := field121665_spec
  -- the sums and differences of the coordinates
  obtain ⟨A, hA, bA, vA⟩ := add_reduced ha hc
  obtain ⟨B, hB, bB, vB⟩ := subtract_reduced ha hc
  obtain ⟨C, hC, bC, vC⟩ := add_reduced hb hd
  obtain ⟨D, hD, bD, vD⟩ := subtract_reduced hb hd
  -- their products
  obtain ⟨AA, hAA, rAA, vAA⟩ := squareFieldElement_spec bA
  obtain ⟨BB, hBB, rBB, vBB⟩ := squareFieldElement_spec bB
  obtain ⟨CB, hCB, rCB, vCB⟩ := multiplyFieldElement_spec bC bB
  obtain ⟨DA, hDA, rDA, vDA⟩ := multiplyFieldElement_spec bD bA
  obtain ⟨sum, hsum, bsum, vsum⟩ := add_reduced rCB rDA
  obtain ⟨diff, hdiff, bdiff, vdiff⟩ := subtract_reduced rCB rDA
  obtain ⟨sq, hsq, rsq, vsq⟩ := squareFieldElement_spec bdiff
  obtain ⟨E, hE, bE, vE⟩ := subtract_reduced rAA rBB
  obtain ⟨E', hE', rE', vE'⟩ := multiplyFieldElement_spec bE h121665
  obtain ⟨F, hF, bF, vF⟩ := add_reduced rE' rAA
  obtain ⟨z₂, hz₂, rz₂, vz₂⟩ := multiplyFieldElement_spec bE bF
  obtain ⟨x₂, hx₂, rx₂, vx₂⟩ := multiplyFieldElement_spec rAA.factor rBB.factor
  obtain ⟨z₃, hz₃, rz₃, vz₃⟩ := multiplyFieldElement_spec rsq.factor hx.factor
  obtain ⟨x₃, hx₃, rx₃, vx₃⟩ := squareFieldElement_spec bsum
  have hfinal : Denotes ⟨x₂, x₃, z₂, z₃⟩ ((q.cswap k).step 121665 (element x)) := by
    refine ⟨⟨rx₂, ?_⟩, ⟨rx₃, ?_⟩, ⟨rz₂, ?_⟩, rz₃, ?_⟩
    · rw [vx₂, vAA, vBB, vA, vB, va, vc]
      rfl
    · rw [vx₃, vsum, vCB, vDA, vA, vB, vC, vD, va, vb, vc, vd]
      simp only [Pairs.step]
      ring
    · rw [vz₂, vF, vE', vE, vAA, vBB, vA, vB, va, vc, v121665]
      simp only [Pairs.step]
      ring
    · rw [vz₃, vsq, vdiff, vCB, vDA, vA, vB, vC, vD, va, vb, vc, vd]
      simp only [Pairs.step]
      ring
  obtain ⟨hab', hcd'⟩ := hfinal.select_eq k
  refine ⟨_, ?_, hfinal.select k⟩
  rw [x25519Round, hab, hcd]
  dsimp only
  rw [bind_of_some hA, bind_of_some hB, bind_of_some hC, bind_of_some hD, bind_of_some hAA,
    bind_of_some hBB, bind_of_some hCB, bind_of_some hDA, bind_of_some hsum, bind_of_some hdiff,
    bind_of_some hsq, bind_of_some hE, bind_of_some hE', bind_of_some hF, bind_of_some hz₂,
    bind_of_some hx₂, bind_of_some hz₃, bind_of_some hx₃, hab', hcd']

theorem x25519Rounds_spec (hx : Reduced x) (scalar : Bytes) (bits : List ℕ) (h : Denotes s q) :
    ∃ s', bits.foldlM (fun s bit => x25519Round x s (scalarBit scalar bit)) s = some s' ∧
      Denotes s' ((bits.map (decodeLittleEndian scalar).testBit).foldl
        (exchanged 121665 (element x)) q) := by
  induction bits generalizing s q with
  | nil => exact ⟨s, rfl, h⟩
  | cons bit bits ih =>
    obtain ⟨s', hs', h'⟩ := x25519Round_spec hx h ((decodeLittleEndian scalar).testBit bit)
    rw [List.foldlM_cons, scalarBit_eq, bind_of_some hs', List.map_cons, List.foldl_cons]
    exact ih h'

theorem zero_spec : Reduced (List.replicate fieldElementLength 0) ∧
    element (List.replicate fieldElementLength 0) = 0 := by
  refine ⟨reduced_of_digits rfl constants_checked.2.2.1, ?_⟩
  rw [element, number, value_replicate_zero, Int.cast_zero]

theorem one_spec : Reduced ((List.replicate fieldElementLength 0).set 0 1) ∧
    element ((List.replicate fieldElementLength 0).set 0 1) = 1 := by
  refine ⟨reduced_of_digits rfl constants_checked.2.2.2.1, ?_⟩
  rw [element, constants_checked.2.2.2.2, Int.cast_one]

/-- **X25519 is the function of RFC 7748, and no limb overflows.** -/
theorem x25519_eq (privateKey peerPublicKey : Bytes) (hprivate : privateKey.length = 32)
    (hpeer : peerPublicKey.length = 32) (hzero : ∃ c ∈ peerPublicKey, c ≠ 0) :
    x25519 privateKey peerPublicKey = some (.ok (x25519Function privateKey peerPublicKey)) := by
  have hnonzero : ¬ isAllZero peerPublicKey = true := by
    rw [isAllZero_iff]
    push Not
    exact hzero
  obtain ⟨hx, hxu⟩ := unpackFieldElement_spec hpeer
  have hstart : Denotes ⟨(List.replicate fieldElementLength 0).set 0 1,
      unpackFieldElement peerPublicKey, List.replicate fieldElementLength 0,
      (List.replicate fieldElementLength 0).set 0 1⟩
      ⟨1, 0, decodeUCoordinate peerPublicKey, 1⟩ :=
    ⟨one_spec, ⟨hx, hxu⟩, zero_spec, one_spec⟩
  obtain ⟨s, hs, hfinal⟩ := x25519Rounds_spec hx (clampX25519Scalar privateKey)
    (List.range 255).reverse hstart
  obtain ⟨c, hc, rc, vc⟩ := invertFieldElement_spec hfinal.c.1
  obtain ⟨a, ha, ra, va⟩ := multiplyFieldElement_spec hfinal.a.1.factor rc.factor
  have hladder : element a =
      ladder (decodeScalar25519 privateKey) (decodeUCoordinate peerPublicKey) := by
    rw [va, vc, hfinal.a.2, hfinal.c.2, clampX25519Scalar_spec hprivate, hxu, ladder, deferred_eq]
    rfl
  rw [x25519, if_neg hnonzero]
  dsimp only
  rw [bind_of_some hs, bind_of_some hc, bind_of_some ha,
    bind_of_some (packFieldElement_spec ra), hladder]
  rfl

theorem x25519_eq_basePoint :
    x25519 (List.replicate 32 0) (9 :: List.replicate 31 0) =
      some (.ok (x25519Function (List.replicate 32 0) (9 :: List.replicate 31 0))) :=
  x25519_eq _ _ rfl rfl ⟨9, List.mem_cons_self, by decide⟩

end KernelHttp.Crypto
