/-
  Bit strings packed into octets, least significant bit first.
-/
import Mathlib.Data.List.Basic
import Mathlib.Data.Nat.Bitwise
import Mathlib.Tactic

namespace BitPacking

/-- The number with the given bits, least significant bit first. -/
def ofBits (bits : List Bool) : ℕ := bits.foldr (fun b n => 2 * n + b.toNat) 0

@[simp] theorem ofBits_nil : ofBits [] = 0 := rfl

@[simp] theorem ofBits_cons (b : Bool) (bits : List Bool) :
    ofBits (b :: bits) = 2 * ofBits bits + b.toNat := rfl

theorem ofBits_lt (bits : List Bool) : ofBits bits < 2 ^ bits.length := by
  induction bits with
  | nil => simp
  | cons b bits ih =>
    have hb := b.toNat_le
    rw [ofBits_cons, List.length_cons, Nat.pow_succ]
    omega

theorem testBit_ofBits (bits : List Bool) (i : ℕ) : (ofBits bits).testBit i = bits.getD i false := by
  induction bits generalizing i with
  | nil => simp
  | cons b bits ih =>
    have hb : 2 * ofBits bits + b.toNat = Nat.bit b (ofBits bits) := by
      rw [Nat.bit_val]
    rw [ofBits_cons, hb]
    cases i with
    | zero => simp
    | succ i => rw [Nat.testBit_bit_succ, ih, List.getD_cons_succ]

/-- The lowest `width` bits of a number. -/
def codeBits : ℕ → ℕ → List Bool
  | 0, _ => []
  | width + 1, n => n.testBit 0 :: codeBits width (n / 2)

@[simp] theorem length_codeBits (width : ℕ) : ∀ n, (codeBits width n).length = width := by
  induction width with
  | zero => exact fun _ => rfl
  | succ width ih => exact fun n => by rw [codeBits, List.length_cons, ih]

/-- A number is read back from its bits. -/
theorem ofBits_codeBits (width : ℕ) : ∀ {n : ℕ}, n < 2 ^ width → ofBits (codeBits width n) = n := by
  induction width with
  | zero =>
    intro n hn
    rw [Nat.pow_zero] at hn
    rw [codeBits, ofBits_nil]
    omega
  | succ width ih =>
    intro n hn
    rw [Nat.pow_succ] at hn
    rw [codeBits, ofBits_cons, ih (by omega), Nat.testBit_zero]
    rcases Nat.mod_two_eq_zero_or_one n with h | h
    · simp [h]
      omega
    · simp [h]
      omega

/-- A bit string in octets. -/
def packBits : List Bool → List UInt8
  | [] => []
  | b :: bits => UInt8.ofNat (ofBits ((b :: bits).take 8)) :: packBits (bits.drop 7)
termination_by bits => bits.length
decreasing_by
  rw [List.length_drop, List.length_cons]
  omega

theorem length_packBits : ∀ bits : List Bool, (packBits bits).length = (bits.length + 7) / 8
  | [] => by rw [packBits]; rfl
  | b :: bits => by
    rw [packBits, List.length_cons, length_packBits (bits.drop 7), List.length_drop,
      List.length_cons]
    omega
termination_by bits => bits.length
decreasing_by
  rw [List.length_drop, List.length_cons]
  omega

/-- **Every bit is found where it was put.** -/
theorem testBit_packBits : ∀ (bits : List Bool) (i : ℕ),
    ((packBits bits).getD (i / 8) 0).toNat.testBit (i % 8) = bits.getD i false
  | [], i => by simp [packBits]
  | b :: bits, i => by
    have hoctet : (UInt8.ofNat (ofBits ((b :: bits).take 8))).toNat =
        ofBits ((b :: bits).take 8) := by
      have hlt := ofBits_lt ((b :: bits).take 8)
      have hle : 2 ^ ((b :: bits).take 8).length ≤ 2 ^ 8 :=
        Nat.pow_le_pow_right (by decide) (List.length_take_le _ _)
      rw [UInt8.toNat_ofNat']
      exact Nat.mod_eq_of_lt (lt_of_lt_of_le hlt hle)
    rw [packBits]
    by_cases hi : i < 8
    · rw [Nat.div_eq_of_lt hi, List.getD_cons_zero, hoctet, testBit_ofBits, Nat.mod_eq_of_lt hi]
      simp only [List.getD_eq_getElem?_getD, List.getElem?_take, if_pos hi]
    · have ih := testBit_packBits (bits.drop 7) (i - 8)
      have hdiv : i / 8 = (i - 8) / 8 + 1 := by omega
      have hmod : i % 8 = (i - 8) % 8 := by omega
      rw [hdiv, hmod, List.getD_cons_succ, ih]
      simp only [List.getD_eq_getElem?_getD, List.getElem?_drop]
      obtain ⟨j, rfl⟩ : ∃ j, i = j + 8 := ⟨i - 8, by omega⟩
      rw [show 7 + (j + 8 - 8) = j + 7 by omega, show j + 8 = (j + 7) + 1 by omega,
        List.getElem?_cons_succ]
termination_by bits => bits.length
decreasing_by
  rw [List.length_drop, List.length_cons]
  omega

/-- The bits of a number at their place in a longer bit string. -/
theorem ofBits_window {s t : List Bool} (width : ℕ) {n : ℕ} (hn : n < 2 ^ width) :
    ofBits ((List.range width).map fun i => (s ++ (codeBits width n ++ t)).getD (s.length + i)
      false) = n := by
  have hwindow : (List.range width).map (fun i => (s ++ (codeBits width n ++ t)).getD (s.length + i)
      false) = codeBits width n := by
    refine List.ext_getElem (by simp) fun i hi hi' => ?_
    rw [length_codeBits] at hi'
    simp only [List.getElem_map, List.getElem_range, List.getD_eq_getElem?_getD]
    rw [List.getElem?_append_right (Nat.le_add_right _ _), Nat.add_sub_cancel_left,
      List.getElem?_append_left (by rwa [length_codeBits]), List.getElem?_eq_getElem]
    rfl
  rw [hwindow, ofBits_codeBits width hn]

end BitPacking
