/-
  `Poly1305` loses no bit (`crypto/Aead.cpp`).

  Between two blocks every limb but the second has 26 bits (`Carried`), which bounds the sums of
  products.
-/
import KernelHttp.Crypto.MontgomeryArithmetic
import KernelHttp.Crypto.Poly1305
import KernelHttp.Crypto.Rfc8439
import KernelHttp.Lib.Checked

namespace KernelHttp.Crypto

open BigEndian

namespace PolyLimbs

def number (h : PolyLimbs) : ℕ :=
  h.l₀ + 2 ^ 26 * h.l₁ + 2 ^ 52 * h.l₂ + 2 ^ 78 * h.l₃ + 2 ^ 104 * h.l₄

/-- The limbs between two blocks. -/
structure Carried (h : PolyLimbs) : Prop where
  l₀ : h.l₀ < 2 ^ 26
  l₁ : h.l₁ < 2 ^ 26 + 64
  l₂ : h.l₂ < 2 ^ 26
  l₃ : h.l₃ < 2 ^ 26
  l₄ : h.l₄ < 2 ^ 26

structure Multiplier (r : PolyLimbs) : Prop where
  l₀ : r.l₀ < 2 ^ 26
  l₁ : r.l₁ < 2 ^ 26
  l₂ : r.l₂ < 2 ^ 26
  l₃ : r.l₃ < 2 ^ 26
  l₄ : r.l₄ < 2 ^ 20

/-- The limbs that are multiplied: a carried number and a block. -/
structure Operand (h : PolyLimbs) : Prop where
  l₀ : h.l₀ < 2 ^ 27 + 64
  l₁ : h.l₁ < 2 ^ 27 + 64
  l₂ : h.l₂ < 2 ^ 27 + 64
  l₃ : h.l₃ < 2 ^ 27 + 64
  l₄ : h.l₄ < 2 ^ 27 + 64

/-- The sums of products, by the number of products that are in each. -/
structure Sums (d : PolyLimbs) : Prop where
  l₀ : d.l₀ < 21 * ((2 ^ 27 + 64) * 2 ^ 26)
  l₁ : d.l₁ < 17 * ((2 ^ 27 + 64) * 2 ^ 26)
  l₂ : d.l₂ < 13 * ((2 ^ 27 + 64) * 2 ^ 26)
  l₃ : d.l₃ < 9 * ((2 ^ 27 + 64) * 2 ^ 26)
  l₄ : d.l₄ < 5 * ((2 ^ 27 + 64) * 2 ^ 26)

/-- The limbs behind the last carry. -/
structure Reduced (h : PolyLimbs) : Prop where
  l₀ : h.l₀ < 2 ^ 26
  l₁ : h.l₁ < 2 ^ 26
  l₂ : h.l₂ < 2 ^ 26
  l₃ : h.l₃ < 2 ^ 26
  l₄ : h.l₄ < 2 ^ 26

end PolyLimbs

open Checked PolyLimbs Rfc8439

variable {h r d : PolyLimbs}

variable {v k : ℕ}

theorem ulong_of_lt (hv : v < 2 ^ 32) : ulong v = some v := if_pos hv

theorem ulonglong_of_lt (hv : v < 2 ^ 64) : ulonglong v = some v := if_pos hv

theorem and_mask26 (v : ℕ) : v &&& mask26 = v % 2 ^ 26 := Nat.and_two_pow_sub_one_eq_mod v 26

/-- Words that do not overlap are added. -/
theorem joined_of_lt {low high : ℕ} (hlow : low < 2 ^ k) :
    joined low k high = some (2 ^ k * high + low) := by
  rw [joined, if_pos hlow, Nat.shiftLeft_eq, or_shifted hlow]

/-! ## A block -/

/-- **The products fit 64 bits**, and are those of the numbers modulo the prime. -/
theorem polyProducts_spec (hh : Operand h) (hr : Multiplier r) :
    ∃ d, polyProducts h r = some d ∧ Sums d ∧ d.number ≡ h.number * r.number [MOD p1305] := by
  obtain ⟨h₀, h₁, h₂, h₃, h₄⟩ := h
  obtain ⟨r₀, r₁, r₂, r₃, r₄⟩ := r
  obtain ⟨hh₀, hh₁, hh₂, hh₃, hh₄⟩ := hh
  obtain ⟨hr₀, hr₁, hr₂, hr₃, hr₄⟩ := hr
  simp only at hh₀ hh₁ hh₂ hh₃ hh₄ hr₀ hr₁ hr₂ hr₃ hr₄
  -- One product of limbs.
  have hmul : ∀ {a b : ℕ}, a < 2 ^ 27 + 64 → b < 2 ^ 26 → a * b < (2 ^ 27 + 64) * 2 ^ 26 :=
    fun ha hb => Nat.mul_lt_mul'' ha hb
  have hr₄' : r₄ < 2 ^ 26 := hr₄.trans (by norm_num)
  have hd₀ : h₀ * r₀ + h₁ * (r₄ * 5) + h₂ * (r₃ * 5) + h₃ * (r₂ * 5) + h₄ * (r₁ * 5) <
      21 * ((2 ^ 27 + 64) * 2 ^ 26) := by
    linarith [hmul hh₀ hr₀, hmul hh₁ hr₄', hmul hh₂ hr₃, hmul hh₃ hr₂, hmul hh₄ hr₁]
  have hd₁ : h₀ * r₁ + h₁ * r₀ + h₂ * (r₄ * 5) + h₃ * (r₃ * 5) + h₄ * (r₂ * 5) <
      17 * ((2 ^ 27 + 64) * 2 ^ 26) := by
    linarith [hmul hh₀ hr₁, hmul hh₁ hr₀, hmul hh₂ hr₄', hmul hh₃ hr₃, hmul hh₄ hr₂]
  have hd₂ : h₀ * r₂ + h₁ * r₁ + h₂ * r₀ + h₃ * (r₄ * 5) + h₄ * (r₃ * 5) <
      13 * ((2 ^ 27 + 64) * 2 ^ 26) := by
    linarith [hmul hh₀ hr₂, hmul hh₁ hr₁, hmul hh₂ hr₀, hmul hh₃ hr₄', hmul hh₄ hr₃]
  have hd₃ : h₀ * r₃ + h₁ * r₂ + h₂ * r₁ + h₃ * r₀ + h₄ * (r₄ * 5) <
      9 * ((2 ^ 27 + 64) * 2 ^ 26) := by
    linarith [hmul hh₀ hr₃, hmul hh₁ hr₂, hmul hh₂ hr₁, hmul hh₃ hr₀, hmul hh₄ hr₄']
  have hd₄ : h₀ * r₄ + h₁ * r₃ + h₂ * r₂ + h₃ * r₁ + h₄ * r₀ <
      5 * ((2 ^ 27 + 64) * 2 ^ 26) := by
    linarith [hmul hh₀ hr₄', hmul hh₁ hr₃, hmul hh₂ hr₂, hmul hh₃ hr₁, hmul hh₄ hr₀]
  have hs₁ : r₁ * 5 < 2 ^ 32 := by linarith
  have hs₂ : r₂ * 5 < 2 ^ 32 := by linarith
  have hs₃ : r₃ * 5 < 2 ^ 32 := by linarith
  have hs₄ : r₄ * 5 < 2 ^ 32 := by linarith
  refine ⟨⟨_, _, _, _, _⟩, ?_, ⟨hd₀, hd₁, hd₂, hd₃, hd₄⟩, ?_⟩
  · rw [polyProducts]
    refine (bind_of_some (ulong_of_lt hs₁) _).trans ?_
    refine (bind_of_some (ulong_of_lt hs₂) _).trans ?_
    refine (bind_of_some (ulong_of_lt hs₃) _).trans ?_
    refine (bind_of_some (ulong_of_lt hs₄) _).trans ?_
    refine (bind_of_some (ulonglong_of_lt (hd₀.trans (by norm_num))) _).trans ?_
    refine (bind_of_some (ulonglong_of_lt (hd₁.trans (by norm_num))) _).trans ?_
    refine (bind_of_some (ulonglong_of_lt (hd₂.trans (by norm_num))) _).trans ?_
    refine (bind_of_some (ulonglong_of_lt (hd₃.trans (by norm_num))) _).trans ?_
    exact bind_of_some (ulonglong_of_lt (hd₄.trans (by norm_num))) _
  · -- The products from 2^130 on are taken five times.
    have hfold : PolyLimbs.number ⟨h₀, h₁, h₂, h₃, h₄⟩ * PolyLimbs.number ⟨r₀, r₁, r₂, r₃, r₄⟩ =
        PolyLimbs.number ⟨h₀ * r₀ + h₁ * (r₄ * 5) + h₂ * (r₃ * 5) + h₃ * (r₂ * 5) + h₄ * (r₁ * 5),
          h₀ * r₁ + h₁ * r₀ + h₂ * (r₄ * 5) + h₃ * (r₃ * 5) + h₄ * (r₂ * 5),
          h₀ * r₂ + h₁ * r₁ + h₂ * r₀ + h₃ * (r₄ * 5) + h₄ * (r₃ * 5),
          h₀ * r₃ + h₁ * r₂ + h₂ * r₁ + h₃ * r₀ + h₄ * (r₄ * 5),
          h₀ * r₄ + h₁ * r₃ + h₂ * r₂ + h₃ * r₁ + h₄ * r₀⟩ +
        p1305 * (h₁ * r₄ + h₂ * r₃ + h₃ * r₂ + h₄ * r₁ +
          2 ^ 26 * (h₂ * r₄ + h₃ * r₃ + h₄ * r₂) + 2 ^ 52 * (h₃ * r₄ + h₄ * r₃) +
          2 ^ 78 * (h₄ * r₄)) := by
      simp only [PolyLimbs.number, p1305]
      norm_num
      ring
    rw [hfold]
    simp [Nat.ModEq]

/-- **Every carry fits 32 bits**, and the limbs are carried again. -/
theorem polyCarry_spec (hd : Sums d) :
    ∃ h, polyCarry d = some h ∧ PolyLimbs.Carried h ∧ h.number ≡ d.number [MOD p1305] := by
  obtain ⟨d₀, d₁, d₂, d₃, d₄⟩ := d
  obtain ⟨hd₀, hd₁, hd₂, hd₃, hd₄⟩ := hd
  simp only at hd₀ hd₁ hd₂ hd₃ hd₄
  -- The sums with what is carried into them.
  obtain ⟨e₁, he₁⟩ : ∃ e, e = d₁ + d₀ / 2 ^ 26 := ⟨_, rfl⟩
  obtain ⟨e₂, he₂⟩ : ∃ e, e = d₂ + e₁ / 2 ^ 26 := ⟨_, rfl⟩
  obtain ⟨e₃, he₃⟩ : ∃ e, e = d₃ + e₂ / 2 ^ 26 := ⟨_, rfl⟩
  obtain ⟨e₄, he₄⟩ : ∃ e, e = d₄ + e₃ / 2 ^ 26 := ⟨_, rfl⟩
  obtain ⟨f₀, hf₀⟩ : ∃ f, f = d₀ % 2 ^ 26 + e₄ / 2 ^ 26 * 5 := ⟨_, rfl⟩
  have hb₀ : d₀ / 2 ^ 26 < 2 ^ 32 := by omega
  have hb₁ : e₁ / 2 ^ 26 < 2 ^ 32 := by omega
  have hb₂ : e₂ / 2 ^ 26 < 2 ^ 32 := by omega
  have hb₃ : e₃ / 2 ^ 26 < 2 ^ 32 := by omega
  have hb₄ : e₄ / 2 ^ 26 < 2 ^ 32 := by omega
  have hb₅ : e₄ / 2 ^ 26 * 5 < 2 ^ 32 := by omega
  have hf₀' : f₀ < 2 ^ 32 := by omega
  have he₁' : e₁ < 2 ^ 64 := by omega
  have he₂' : e₂ < 2 ^ 64 := by omega
  have he₃' : e₃ < 2 ^ 64 := by omega
  have he₄' : e₄ < 2 ^ 64 := by omega
  have hlast : e₁ % 2 ^ 26 + f₀ / 2 ^ 26 < 2 ^ 32 := by omega
  refine ⟨⟨f₀ % 2 ^ 26, e₁ % 2 ^ 26 + f₀ / 2 ^ 26, e₂ % 2 ^ 26, e₃ % 2 ^ 26, e₄ % 2 ^ 26⟩,
    ?_, ?_, ?_⟩
  · simp only [polyCarry, Nat.shiftRight_eq_div_pow, and_mask26]
    rw [bind_of_some (ulong_of_lt hb₀), ← he₁,
      bind_of_some (ulonglong_of_lt he₁'),
      bind_of_some (ulong_of_lt hb₁), ← he₂,
      bind_of_some (ulonglong_of_lt he₂'),
      bind_of_some (ulong_of_lt hb₂), ← he₃,
      bind_of_some (ulonglong_of_lt he₃'),
      bind_of_some (ulong_of_lt hb₃), ← he₄,
      bind_of_some (ulonglong_of_lt he₄'),
      bind_of_some (ulong_of_lt hb₄),
      bind_of_some (ulong_of_lt hb₅), ← hf₀,
      bind_of_some (ulong_of_lt hf₀'),
      bind_of_some (ulong_of_lt hlast)]
  · constructor
    · exact Nat.mod_lt _ (by norm_num)
    · change e₁ % 2 ^ 26 + f₀ / 2 ^ 26 < 2 ^ 26 + 64
      omega
    · exact Nat.mod_lt _ (by norm_num)
    · exact Nat.mod_lt _ (by norm_num)
    · exact Nat.mod_lt _ (by norm_num)
  · -- What is carried out of the top limb comes back five times.
    have hfold : PolyLimbs.number ⟨d₀, d₁, d₂, d₃, d₄⟩ =
        PolyLimbs.number ⟨f₀ % 2 ^ 26, e₁ % 2 ^ 26 + f₀ / 2 ^ 26, e₂ % 2 ^ 26, e₃ % 2 ^ 26, e₄ % 2 ^ 26⟩ +
          p1305 * (e₄ / 2 ^ 26) := by
      simp only [PolyLimbs.number, p1305]
      omega
    rw [hfold]
    simp [Nat.ModEq]

/-- A word is the low 32 bits of the number that the octets spell. -/
theorem readLittleEndian32_spec (t : Bytes) :
    (readLittleEndian32 t).toNat = decodeLittleEndian t % 2 ^ 32 := by
  have hfour : readLittleEndian32 t =
      limbOfBytes [t.getD 0 0, t.getD 1 0, t.getD 2 0, t.getD 3 0] := rfl
  have htake := decodeLittleEndian_take t 4
  rw [hfour, limbOfBytes_spec, show 2 ^ 32 = 256 ^ 4 by norm_num, ← htake]
  match t with
  | [] => rfl
  | [c] => simp [decodeLittleEndian_cons, show decodeLittleEndian [] = 0 from rfl]
  | [c, d] => simp [decodeLittleEndian_cons, show decodeLittleEndian [] = 0 from rfl]
  | [c, d, e] => simp [decodeLittleEndian_cons, show decodeLittleEndian [] = 0 from rfl]
  | c :: d :: e :: f :: t => rfl

theorem polyValues_spec {block : Bytes} (hlen : block.length ≤ 16) :
    (polyValues block).Reduced ∧ (polyValues block).number = blockNumber block := by
  have hpadded : decodeLittleEndian (block ++ 1 :: List.replicate (16 - block.length) 0) =
      blockNumber block := by
    rw [blockNumber, decodeLittleEndian_append, decodeLittleEndian_append, decodeLittleEndian_cons,
      decodeLittleEndian_zeros]
    rfl
  have hlt : blockNumber block < 2 ^ 129 := by
    have hblock := decodeLittleEndian_lt block
    have hpow : 256 ^ block.length ≤ 256 ^ 16 := Nat.pow_le_pow_right (by norm_num) hlen
    rw [blockNumber, decodeLittleEndian_concat]
    change _ + 256 ^ block.length * 1 < _
    omega
  rw [polyValues]
  simp only [readLittleEndian32_spec, decodeLittleEndian_drop, hpadded, and_mask26,
    Nat.shiftRight_eq_div_pow]
  generalize blockNumber block = v at hlt
  constructor
  · constructor <;> exact Nat.mod_lt _ (by norm_num)
  · simp only [PolyLimbs.number]
    norm_num only
    norm_num only at hlt
    omega

/-- **A block is added and multiplied in**, and leaves limbs that are carried. -/
theorem poly1305ProcessBlock_spec (hh : PolyLimbs.Carried h) (hr : Multiplier r) {block : Bytes}
    (hlen : block.length ≤ 16) :
    ∃ h', poly1305ProcessBlock h r block = some h' ∧ PolyLimbs.Carried h' ∧
      h'.number ≡ (h.number + blockNumber block) * r.number [MOD p1305] := by
  obtain ⟨hvalues, hnumber⟩ := polyValues_spec hlen
  obtain ⟨hh₀, hh₁, hh₂, hh₃, hh₄⟩ := hh
  obtain ⟨hv₀, hv₁, hv₂, hv₃, hv₄⟩ := hvalues
  have hb₀ : h.l₀ + (polyValues block).l₀ < 2 ^ 27 + 64 := by omega
  have hb₁ : h.l₁ + (polyValues block).l₁ < 2 ^ 27 + 64 := by omega
  have hb₂ : h.l₂ + (polyValues block).l₂ < 2 ^ 27 + 64 := by omega
  have hb₃ : h.l₃ + (polyValues block).l₃ < 2 ^ 27 + 64 := by omega
  have hb₄ : h.l₄ + (polyValues block).l₄ < 2 ^ 27 + 64 := by omega
  obtain ⟨d, hd, hsums, hproduct⟩ :=
    polyProducts_spec (h := ⟨_, _, _, _, _⟩) ⟨hb₀, hb₁, hb₂, hb₃, hb₄⟩ hr
  obtain ⟨h', hh', hcarried, hcarry⟩ := polyCarry_spec hsums
  refine ⟨h', ?_, hcarried, ?_⟩
  · rw [poly1305ProcessBlock]
    refine (bind_of_some (ulong_of_lt (hb₀.trans (by norm_num))) _).trans ?_
    refine (bind_of_some (ulong_of_lt (hb₁.trans (by norm_num))) _).trans ?_
    refine (bind_of_some (ulong_of_lt (hb₂.trans (by norm_num))) _).trans ?_
    refine (bind_of_some (ulong_of_lt (hb₃.trans (by norm_num))) _).trans ?_
    refine (bind_of_some (ulong_of_lt (hb₄.trans (by norm_num))) _).trans ?_
    exact (bind_of_some hd _).trans hh'
  · have hsum : PolyLimbs.number ⟨h.l₀ + (polyValues block).l₀, h.l₁ + (polyValues block).l₁,
        h.l₂ + (polyValues block).l₂, h.l₃ + (polyValues block).l₃,
        h.l₄ + (polyValues block).l₄⟩ = h.number + blockNumber block := by
      rw [← hnumber]
      simp only [PolyLimbs.number]
      ring
    rw [hsum] at hproduct
    exact hcarry.trans hproduct

/-- **The blocks of a message**: the number before them and the blocks, times powers of the
    multiplier. -/
theorem poly1305Blocks_spec (hr : Multiplier r) (hh : PolyLimbs.Carried h) (message : Bytes) :
    ∃ h', poly1305Blocks r h message = some h' ∧ PolyLimbs.Carried h' ∧
      h'.number ≡ h.number * r.number ^ (blocks message).length +
        powerSum r.number ((blocks message).map blockNumber) [MOD p1305] := by
  induction message using blocks.induct generalizing h with
  | case1 =>
    refine ⟨h, by rw [poly1305Blocks], hh, ?_⟩
    simp [blocks, powerSum, Nat.ModEq]
  | case2 c message ih =>
    obtain ⟨h₁, hok₁, hcarried₁, hmod₁⟩ :=
      poly1305ProcessBlock_spec hh hr (List.length_take_le 16 (c :: message))
    obtain ⟨h₂, hok₂, hcarried₂, hmod₂⟩ := ih hcarried₁
    refine ⟨h₂, ?_, hcarried₂, ?_⟩
    · rw [poly1305Blocks, bind_of_some hok₁, hok₂]
    · rw [blocks, List.map_cons, powerSum, List.length_cons, List.length_map]
      refine hmod₂.trans ?_
      refine ((hmod₁.mul_right _).add_right _).trans ?_
      rw [show ∀ a b c n s : ℕ, (a + b) * c * c ^ n + s = a * c ^ (n + 1) + (b * c ^ (n + 1) + s) by
        intros; ring]

/-! ## The multiplier -/

theorem and_of_lt {m : ℕ} (hm : m < 2 ^ k) : v &&& m = v % 2 ^ k &&& m := by
  have hmod := Nat.and_mod_two_pow (a := v) (b := m) (n := k)
  rwa [Nat.mod_eq_of_lt hm, Nat.mod_eq_of_lt (Nat.and_le_right.trans_lt hm)] at hmod

theorem clamp_limb (v i : ℕ) :
    clamp v / 2 ^ i % 2 ^ 26 =
      v / 2 ^ i % 2 ^ 26 &&& 0x0ffffffc0ffffffc0ffffffc0fffffff / 2 ^ i % 2 ^ 26 := by
  rw [clamp, Nat.and_div_two_pow, Nat.and_mod_two_pow]

theorem number_limbs {c : ℕ} (hc : c < 2 ^ 130) :
    c / 2 ^ 0 % 2 ^ 26 + 2 ^ 26 * (c / 2 ^ 26 % 2 ^ 26) + 2 ^ 52 * (c / 2 ^ 52 % 2 ^ 26) +
      2 ^ 78 * (c / 2 ^ 78 % 2 ^ 26) + 2 ^ 104 * (c / 2 ^ 104 % 2 ^ 26) = c := by
  omega

/-- **The multiplier is the clamped first half of the key**, and its words do not overlap. -/
theorem polyKey_spec (key : Bytes) :
    ∃ r, polyKey key = some r ∧ Multiplier r ∧
      r.number = clamp (decodeLittleEndian (key.take 16)) := by
  have htake := decodeLittleEndian_take key 16
  have hlimbs := clamp_limb (decodeLittleEndian (key.take 16))
  have hlt : clamp (decodeLittleEndian (key.take 16)) < 2 ^ 124 :=
    Nat.and_le_right.trans_lt (by norm_num)
  rw [polyKey]
  simp only [readLittleEndian32_spec, decodeLittleEndian_drop, and_mask26,
    Nat.shiftRight_eq_div_pow]
  generalize decodeLittleEndian (key.take 16) = v at *
  generalize decodeLittleEndian key = w at *
  have hj₁ : w % 2 ^ 32 / 2 ^ 26 < 2 ^ 6 := by omega
  have hj₂ : w / 256 ^ 4 % 2 ^ 32 / 2 ^ 20 < 2 ^ 12 := by omega
  have hj₃ : w / 256 ^ 8 % 2 ^ 32 / 2 ^ 14 < 2 ^ 18 := by omega
  refine ⟨_, (bind_of_some (joined_of_lt hj₁) _).trans ((bind_of_some (joined_of_lt hj₂) _).trans
    (bind_of_some (joined_of_lt hj₃) _)), ?_, ?_⟩
  · constructor
    · exact Nat.mod_lt _ (by norm_num)
    · exact Nat.and_le_right.trans_lt (by norm_num)
    · exact Nat.and_le_right.trans_lt (by norm_num)
    · exact Nat.and_le_right.trans_lt (by norm_num)
    · exact Nat.and_le_right.trans_lt (by norm_num)
  · have hv : v = w % 2 ^ 128 := htake
    -- A limb of the clamped number, by the mask of the source.
    have hlimb (i mask u : ℕ) (hmask : mask < 2 ^ 26)
        (hclamp : 0x0ffffffc0ffffffc0ffffffc0fffffff / 2 ^ i % 2 ^ 26 = mask)
        (hu : u % 2 ^ 26 = v / 2 ^ i % 2 ^ 26) : u &&& mask = clamp v / 2 ^ i % 2 ^ 26 := by
      rw [and_of_lt hmask, hu, hlimbs, hclamp]
    have hl₀ := hlimb 0 mask26 (w % 2 ^ 32) (by decide) (by norm_num [mask26]) (by omega)
    have hl₁ := hlimb 26 0x3ffff03 ((2 ^ 6 * (w / 256 ^ 4 % 2 ^ 32) + w % 2 ^ 32 / 2 ^ 26) % 2 ^ 32)
      (by norm_num) (by norm_num) (by omega)
    have hl₂ := hlimb 52 0x3ffc0ff
      ((2 ^ 12 * (w / 256 ^ 8 % 2 ^ 32) + w / 256 ^ 4 % 2 ^ 32 / 2 ^ 20) % 2 ^ 32)
      (by norm_num) (by norm_num) (by omega)
    have hl₃ := hlimb 78 0x3f03fff
      ((2 ^ 18 * (w / 256 ^ 12 % 2 ^ 32) + w / 256 ^ 8 % 2 ^ 32 / 2 ^ 14) % 2 ^ 32)
      (by norm_num) (by norm_num) (by omega)
    have hl₄ := hlimb 104 0x00fffff (w / 256 ^ 12 % 2 ^ 32 / 2 ^ 8)
      (by norm_num) (by norm_num) (by omega)
    rw [and_mask26] at hl₀
    simp only [PolyLimbs.number]
    rw [hl₀, hl₁, hl₂, hl₃, hl₄]
    exact number_limbs (hlt.trans (by norm_num))

/-! ## The tag -/

/-- **The last carry** leaves limbs of 26 bits: where the second limb was longer, its low bits
    leave room for what the first limb carries. -/
theorem polyCarryFinal_spec (hh : PolyLimbs.Carried h) :
    ∃ h', polyCarryFinal h = some h' ∧ PolyLimbs.Reduced h' ∧ h'.number ≡ h.number [MOD p1305] := by
  obtain ⟨h₀, h₁, h₂, h₃, h₄⟩ := h
  obtain ⟨hh₀, hh₁, hh₂, hh₃, hh₄⟩ := hh
  simp only at hh₀ hh₁ hh₂ hh₃ hh₄
  obtain ⟨e₂, he₂⟩ : ∃ e, e = h₂ + h₁ / 2 ^ 26 := ⟨_, rfl⟩
  obtain ⟨e₃, he₃⟩ : ∃ e, e = h₃ + e₂ / 2 ^ 26 := ⟨_, rfl⟩
  obtain ⟨e₄, he₄⟩ : ∃ e, e = h₄ + e₃ / 2 ^ 26 := ⟨_, rfl⟩
  obtain ⟨f₀, hf₀⟩ : ∃ f, f = h₀ + e₄ / 2 ^ 26 * 5 := ⟨_, rfl⟩
  have hb₂ : e₂ < 2 ^ 32 := by omega
  have hb₃ : e₃ < 2 ^ 32 := by omega
  have hb₄ : e₄ < 2 ^ 32 := by omega
  have hb₅ : e₄ / 2 ^ 26 * 5 < 2 ^ 32 := by omega
  have hf₀' : f₀ < 2 ^ 32 := by omega
  have hlast : h₁ % 2 ^ 26 + f₀ / 2 ^ 26 < 2 ^ 26 := by
    rcases Nat.lt_or_ge h₁ (2 ^ 26) with hshort | hlong
    · -- Nothing is carried at all.
      have he₂' : e₂ = h₂ := by omega
      have he₃' : e₃ = h₃ := by omega
      have he₄' : e₄ = h₄ := by omega
      have hf₀' : f₀ = h₀ := by omega
      omega
    · have hlow : h₁ % 2 ^ 26 < 64 := by omega
      omega
  refine ⟨⟨f₀ % 2 ^ 26, h₁ % 2 ^ 26 + f₀ / 2 ^ 26, e₂ % 2 ^ 26, e₃ % 2 ^ 26, e₄ % 2 ^ 26⟩,
    ?_, ?_, ?_⟩
  · simp only [polyCarryFinal, Nat.shiftRight_eq_div_pow, and_mask26]
    rw [← he₂, bind_of_some (ulong_of_lt hb₂), ← he₃,
      bind_of_some (ulong_of_lt hb₃), ← he₄,
      bind_of_some (ulong_of_lt hb₄),
      bind_of_some (ulong_of_lt hb₅), ← hf₀,
      bind_of_some (ulong_of_lt hf₀'),
      bind_of_some (ulong_of_lt (hlast.trans (by norm_num)))]
  · constructor
    · exact Nat.mod_lt _ (by norm_num)
    · exact hlast
    · exact Nat.mod_lt _ (by norm_num)
    · exact Nat.mod_lt _ (by norm_num)
    · exact Nat.mod_lt _ (by norm_num)
  · have hfold : PolyLimbs.number ⟨h₀, h₁, h₂, h₃, h₄⟩ =
        PolyLimbs.number ⟨f₀ % 2 ^ 26, h₁ % 2 ^ 26 + f₀ / 2 ^ 26, e₂ % 2 ^ 26, e₃ % 2 ^ 26, e₄ % 2 ^ 26⟩ +
          p1305 * (e₄ / 2 ^ 26) := by
      simp only [PolyLimbs.number, p1305]
      omega
    rw [hfold]
    simp [Nat.ModEq]

/-- **The number is taken modulo the prime**: the sign of the top limb says which is chosen. -/
theorem polySubtract_spec (hh : PolyLimbs.Reduced h) :
    ∃ g, polySubtract h = some g ∧ PolyLimbs.Reduced (polySelect h g) ∧
      (polySelect h g).number = h.number % p1305 := by
  obtain ⟨h₀, h₁, h₂, h₃, h₄⟩ := h
  obtain ⟨hh₀, hh₁, hh₂, hh₃, hh₄⟩ := hh
  simp only at hh₀ hh₁ hh₂ hh₃ hh₄
  obtain ⟨g₀, hg₀⟩ : ∃ g, g = h₀ + 5 := ⟨_, rfl⟩
  obtain ⟨g₁, hg₁⟩ : ∃ g, g = h₁ + g₀ / 2 ^ 26 := ⟨_, rfl⟩
  obtain ⟨g₂, hg₂⟩ : ∃ g, g = h₂ + g₁ / 2 ^ 26 := ⟨_, rfl⟩
  obtain ⟨g₃, hg₃⟩ : ∃ g, g = h₃ + g₂ / 2 ^ 26 := ⟨_, rfl⟩
  obtain ⟨g₄, hg₄⟩ : ∃ g, g = h₄ + g₃ / 2 ^ 26 := ⟨_, rfl⟩
  have hb₀ : g₀ < 2 ^ 32 := by omega
  have hb₁ : g₁ < 2 ^ 32 := by omega
  have hb₂ : g₂ < 2 ^ 32 := by omega
  have hb₃ : g₃ < 2 ^ 32 := by omega
  have hb₄ : g₄ < 2 ^ 32 := by omega
  have hsubtract : polySubtract ⟨h₀, h₁, h₂, h₃, h₄⟩ = some ⟨g₀ % 2 ^ 26, g₁ % 2 ^ 26,
      g₂ % 2 ^ 26, g₃ % 2 ^ 26, (g₄ + (2 ^ 32 - 2 ^ 26)) % 2 ^ 32⟩ := by
    simp only [polySubtract, Nat.shiftRight_eq_div_pow, and_mask26]
    rw [← hg₀, bind_of_some (ulong_of_lt hb₀), ← hg₁,
      bind_of_some (ulong_of_lt hb₁), ← hg₂,
      bind_of_some (ulong_of_lt hb₂), ← hg₃,
      bind_of_some (ulong_of_lt hb₃), ← hg₄,
      bind_of_some (ulong_of_lt hb₄)]
  refine ⟨_, hsubtract, ?_⟩
  have hand (v : ℕ) : v &&& 2 ^ 32 - 1 = v % 2 ^ 32 := Nat.and_two_pow_sub_one_eq_mod v 32
  have hlow (v : ℕ) : v % 2 ^ 26 < 2 ^ 26 := Nat.mod_lt _ (by norm_num)
  have hmod {v : ℕ} (hv : v < 2 ^ 26) : v % 2 ^ 32 = v :=
    Nat.mod_eq_of_lt (hv.trans (by norm_num))
  rcases Nat.lt_or_ge g₄ (2 ^ 26) with hsmall | hlarge
  · -- The subtraction borrows.
    have hselect : polySelect ⟨h₀, h₁, h₂, h₃, h₄⟩ ⟨g₀ % 2 ^ 26, g₁ % 2 ^ 26, g₂ % 2 ^ 26,
        g₃ % 2 ^ 26, (g₄ + (2 ^ 32 - 2 ^ 26)) % 2 ^ 32⟩ = ⟨h₀, h₁, h₂, h₃, h₄⟩ := by
      have hmask : ((g₄ + (2 ^ 32 - 2 ^ 26)) % 2 ^ 32 / 2 ^ 31 + (2 ^ 32 - 1)) % 2 ^ 32 = 0 := by
        omega
      simp only [polySelect, Nat.shiftRight_eq_div_pow, hmask, Nat.sub_zero, hand, Nat.and_zero,
        Nat.or_zero]
      rw [hmod hh₀, hmod hh₁, hmod hh₂, hmod hh₃, hmod hh₄]
    rw [hselect]
    refine ⟨⟨hh₀, hh₁, hh₂, hh₃, hh₄⟩, ?_⟩
    have hlt : PolyLimbs.number ⟨h₀, h₁, h₂, h₃, h₄⟩ < p1305 := by
      simp only [PolyLimbs.number, p1305]
      omega
    exact (Nat.mod_eq_of_lt hlt).symm
  · have hselect : polySelect ⟨h₀, h₁, h₂, h₃, h₄⟩ ⟨g₀ % 2 ^ 26, g₁ % 2 ^ 26, g₂ % 2 ^ 26,
        g₃ % 2 ^ 26, (g₄ + (2 ^ 32 - 2 ^ 26)) % 2 ^ 32⟩ =
        ⟨g₀ % 2 ^ 26, g₁ % 2 ^ 26, g₂ % 2 ^ 26, g₃ % 2 ^ 26, 0⟩ := by
      have htop : (g₄ + (2 ^ 32 - 2 ^ 26)) % 2 ^ 32 = 0 := by omega
      have hmask : (0 / 2 ^ 31 + (2 ^ 32 - 1)) % 2 ^ 32 = 2 ^ 32 - 1 := by norm_num
      simp only [polySelect, Nat.shiftRight_eq_div_pow, htop, hmask, Nat.sub_self, hand,
        Nat.and_zero, Nat.zero_or]
      rw [hmod (hlow g₀), hmod (hlow g₁), hmod (hlow g₂), hmod (hlow g₃), Nat.zero_mod]
    rw [hselect]
    refine ⟨⟨hlow g₀, hlow g₁, hlow g₂, hlow g₃, by norm_num⟩, ?_⟩
    -- Here the top limb with its carry is 2^26, and the number is from the prime on.
    have htop : g₄ = 2 ^ 26 := by omega
    have hsum : PolyLimbs.number ⟨h₀, h₁, h₂, h₃, h₄⟩ =
        PolyLimbs.number ⟨g₀ % 2 ^ 26, g₁ % 2 ^ 26, g₂ % 2 ^ 26,
        g₃ % 2 ^ 26, 0⟩ + p1305 := by
      simp only [PolyLimbs.number, p1305]
      omega
    have hlt : PolyLimbs.number ⟨g₀ % 2 ^ 26, g₁ % 2 ^ 26, g₂ % 2 ^ 26, g₃ % 2 ^ 26, 0⟩ < p1305 := by
      simp only [PolyLimbs.number, p1305]
      omega
    rw [hsum, Nat.add_mod_right, Nat.mod_eq_of_lt hlt]

theorem sum_words {a₀ a₁ a₂ a₃ s₀ s₁ s₂ s₃ f₀ f₁ f₂ f₃ : ℕ} (hf₀ : f₀ = a₀ + s₀)
    (hf₁ : f₁ = a₁ + s₁ + f₀ / 2 ^ 32) (hf₂ : f₂ = a₂ + s₂ + f₁ / 2 ^ 32)
    (hf₃ : f₃ = a₃ + s₃ + f₂ / 2 ^ 32) :
    f₀ % 2 ^ 32 + 2 ^ 32 * (f₁ % 2 ^ 32 + 2 ^ 32 * (f₂ % 2 ^ 32 + 2 ^ 32 * (f₃ % 2 ^ 32))) =
      (a₀ + 2 ^ 32 * a₁ + 2 ^ 64 * a₂ + 2 ^ 96 * a₃ +
        (s₀ + 2 ^ 32 * s₁ + 2 ^ 64 * s₂ + 2 ^ 96 * s₃)) % 2 ^ 128 := by
  omega

theorem mod_words (s : ℕ) : s % 2 ^ 32 + 2 ^ 32 * (s / 2 ^ 32 % 2 ^ 32) +
    2 ^ 64 * (s / 2 ^ 64 % 2 ^ 32) + 2 ^ 96 * (s / 2 ^ 96 % 2 ^ 32) = s % 2 ^ 128 := by
  omega

theorem number_words {h₀ h₁ h₂ : ℕ} (hh₀ : h₀ < 2 ^ 26) (hh₁ : h₁ < 2 ^ 26) (hh₂ : h₂ < 2 ^ 26)
    (h₃ h₄ : ℕ) :
    (2 ^ 26 * h₁ + h₀) % 2 ^ 32 + 2 ^ 32 * ((2 ^ 20 * h₂ + h₁ / 2 ^ 6) % 2 ^ 32) +
      2 ^ 64 * ((2 ^ 14 * h₃ + h₂ / 2 ^ 12) % 2 ^ 32) +
      2 ^ 96 * ((2 ^ 8 * h₄ + h₃ / 2 ^ 18) % 2 ^ 32) =
    PolyLimbs.number ⟨h₀, h₁, h₂, h₃, h₄⟩ % 2 ^ 128 := by
  simp only [PolyLimbs.number]
  omega

/-- **The limbs are packed without overlap**, and the second half of the key is added. -/
theorem polyTag_spec (hh : PolyLimbs.Reduced h) (key : Bytes) :
    polyTag h key = some (bigEndian 16
      ((h.number + decodeLittleEndian ((key.drop 16).take 16)) % 2 ^ 128)).reverse := by
  obtain ⟨h₀, h₁, h₂, h₃, h₄⟩ := h
  obtain ⟨hh₀, hh₁, hh₂, hh₃, hh₄⟩ := hh
  simp only at hh₀ hh₁ hh₂ hh₃ hh₄
  have hwords : ∀ k, decodeLittleEndian (key.drop (16 + k)) =
      decodeLittleEndian (key.drop 16) / 256 ^ k := by
    intro k
    rw [← List.drop_drop, decodeLittleEndian_drop]
  have hs₁ : decodeLittleEndian (key.drop 20) = decodeLittleEndian (key.drop 16) / 2 ^ 32 := hwords 4
  have hs₂ : decodeLittleEndian (key.drop 24) = decodeLittleEndian (key.drop 16) / 2 ^ 64 := hwords 8
  have hs₃ : decodeLittleEndian (key.drop 28) = decodeLittleEndian (key.drop 16) / 2 ^ 96 := hwords 12
  have hs : decodeLittleEndian ((key.drop 16).take 16) =
      decodeLittleEndian (key.drop 16) % 2 ^ 128 := decodeLittleEndian_take _ 16
  have hand (v : ℕ) : v &&& 0xffffffff = v % 2 ^ 32 := Nat.and_two_pow_sub_one_eq_mod v 32
  simp only [polyTag, readLittleEndian32_spec, hand, Nat.shiftRight_eq_div_pow, hs₁, hs₂, hs₃, hs]
  generalize decodeLittleEndian (key.drop 16) = s
  have hj₁ : h₁ / 2 ^ 6 < 2 ^ 20 := by omega
  have hj₂ : h₂ / 2 ^ 12 < 2 ^ 14 := by omega
  have hj₃ : h₃ / 2 ^ 18 < 2 ^ 8 := by omega
  rw [bind_of_some (joined_of_lt hh₀), bind_of_some (joined_of_lt hj₁),
    bind_of_some (joined_of_lt hj₂), bind_of_some (joined_of_lt hj₃)]
  obtain ⟨f₀, hf₀⟩ : ∃ f, f = (2 ^ 26 * h₁ + h₀) % 2 ^ 32 + s % 2 ^ 32 := ⟨_, rfl⟩
  obtain ⟨f₁, hf₁⟩ : ∃ f, f = (2 ^ 20 * h₂ + h₁ / 2 ^ 6) % 2 ^ 32 +
    s / 2 ^ 32 % 2 ^ 32 + f₀ / 2 ^ 32 := ⟨_, rfl⟩
  obtain ⟨f₂, hf₂⟩ : ∃ f, f = (2 ^ 14 * h₃ + h₂ / 2 ^ 12) % 2 ^ 32 +
    s / 2 ^ 64 % 2 ^ 32 + f₁ / 2 ^ 32 := ⟨_, rfl⟩
  obtain ⟨f₃, hf₃⟩ : ∃ f, f = (2 ^ 8 * h₄ + h₃ / 2 ^ 18) % 2 ^ 32 +
    s / 2 ^ 96 % 2 ^ 32 + f₂ / 2 ^ 32 := ⟨_, rfl⟩
  have hb₀ : f₀ < 2 ^ 64 := by omega
  have hb₁ : f₁ < 2 ^ 64 := by omega
  have hb₂ : f₂ < 2 ^ 64 := by omega
  have hb₃ : f₃ < 2 ^ 64 := by omega
  rw [← hf₀, bind_of_some (ulonglong_of_lt hb₀), ← hf₁, bind_of_some (ulonglong_of_lt hb₁), ← hf₂,
    bind_of_some (ulonglong_of_lt hb₂), ← hf₃, bind_of_some (ulonglong_of_lt hb₃)]
  have hsum := sum_words hf₀ hf₁ hf₂ hf₃
  rw [number_words hh₀ hh₁ hh₂, mod_words, ← Nat.mod_add_mod, Nat.mod_mod, Nat.mod_add_mod] at hsum
  have hvalue : limbsValue ([f₀, f₁, f₂, f₃].map UInt32.ofNat) =
      (PolyLimbs.number ⟨h₀, h₁, h₂, h₃, h₄⟩ + s % 2 ^ 128) % 2 ^ 128 := by
    rw [← hsum]
    simp only [List.map_cons, List.map_nil, limbsValue_cons, limbsValue_nil, UInt32.toNat_ofNat',
      Nat.mul_zero, Nat.add_zero]
  have hflat : ([f₀, f₁, f₂, f₃].flatMap fun f => writeLittleEndian32 (UInt32.ofNat f)) =
      ([f₀, f₁, f₂, f₃].map UInt32.ofNat).flatMap bytesOfLimb := by
    rw [List.flatMap_map]
    rfl
  rw [hflat, flatMap_bytesOfLimb, hvalue, List.length_map]
  rfl

/-- **`Poly1305` is the authenticator**, for every message: nothing overflows or overlaps. -/
theorem poly1305_eq (key message : Bytes) : poly1305 key message = some (mac key message) := by
  obtain ⟨r, hkey, hr, hnumber⟩ := polyKey_spec key
  have hzero : PolyLimbs.Carried ⟨0, 0, 0, 0, 0⟩ :=
    ⟨by norm_num, by norm_num, by norm_num, by norm_num, by norm_num⟩
  obtain ⟨h₁, hblocks, hcarried, hsum⟩ := poly1305Blocks_spec hr hzero message
  obtain ⟨h₂, hcarry, hreduced, hmod⟩ := polyCarryFinal_spec hcarried
  obtain ⟨g, hsubtract, hselect, htotal⟩ := polySubtract_spec hreduced
  have hvalue : (polySelect h₂ g).number =
      powerSum (clamp (decodeLittleEndian (key.take 16))) ((blocks message).map blockNumber) %
        p1305 := by
    rw [htotal, hmod.trans hsum, hnumber]
    simp [PolyLimbs.number]
  rw [poly1305, bind_of_some hkey, bind_of_some hblocks, bind_of_some hcarry,
    bind_of_some hsubtract, polyTag_spec hselect, hvalue, mac]

end KernelHttp.Crypto
