/-
  Numbers as octets, lowest first.

  The key exchange and the signatures of RFC 7748 and RFC 8032 spell numbers this way.
-/
import KernelHttp.Core.Types
import KernelHttp.Lib.BigEndian

namespace KernelHttp.Crypto

open BigEndian

def decodeLittleEndian (t : Bytes) : ℕ := ofBigEndian t.reverse

theorem decodeLittleEndian_cons (c : UInt8) (t : Bytes) :
    decodeLittleEndian (c :: t) = decodeLittleEndian t * 256 + c.toNat := by
  rw [decodeLittleEndian, List.reverse_cons, ofBigEndian_concat, decodeLittleEndian]

theorem littleEndian_succ (n v : ℕ) :
    (bigEndian (n + 1) v).reverse = UInt8.ofNat (v % 256) :: (bigEndian n (v / 256)).reverse := by
  rw [bigEndian, List.reverse_concat]

theorem decodeLittleEndian_concat (t : Bytes) (c : UInt8) :
    decodeLittleEndian (t ++ [c]) = decodeLittleEndian t + 256 ^ t.length * c.toNat := by
  induction t with
  | nil => simp [decodeLittleEndian, ofBigEndian]
  | cons d t ih =>
    rw [List.cons_append, decodeLittleEndian_cons, ih, decodeLittleEndian_cons, List.length_cons,
      pow_succ]
    ring

theorem decodeLittleEndian_lt (t : Bytes) : decodeLittleEndian t < 256 ^ t.length := by
  rw [decodeLittleEndian, ← List.length_reverse]
  exact ofBigEndian_lt t.reverse

theorem decodeLittleEndian_append (x y : Bytes) :
    decodeLittleEndian (x ++ y) = decodeLittleEndian x + 256 ^ x.length * decodeLittleEndian y := by
  induction x with
  | nil => simp [decodeLittleEndian, ofBigEndian]
  | cons c x ih =>
    rw [List.cons_append, decodeLittleEndian_cons, decodeLittleEndian_cons, ih, List.length_cons,
      pow_succ]
    ring

theorem decodeLittleEndian_zeros (n : ℕ) : decodeLittleEndian (List.replicate n 0) = 0 := by
  rw [decodeLittleEndian, List.reverse_replicate, ofBigEndian_replicate_zero]

theorem decodeLittleEndian_take (t : Bytes) (k : ℕ) :
    decodeLittleEndian (t.take k) = decodeLittleEndian t % 256 ^ k := by
  rcases Nat.lt_or_ge t.length k with h | h
  · have hlt := decodeLittleEndian_lt t
    have hpow := Nat.pow_lt_pow_right (by norm_num : 1 < 256) h
    rw [List.take_of_length_le h.le, Nat.mod_eq_of_lt (hlt.trans hpow)]
  · have hlt := decodeLittleEndian_lt (t.take k)
    have hsplit := decodeLittleEndian_append (t.take k) (t.drop k)
    rw [List.length_take, min_eq_left h] at hlt hsplit
    rw [List.take_append_drop] at hsplit
    rw [hsplit, Nat.add_mul_mod_self_left, Nat.mod_eq_of_lt hlt]

theorem decodeLittleEndian_drop (t : Bytes) (k : ℕ) :
    decodeLittleEndian (t.drop k) = decodeLittleEndian t / 256 ^ k := by
  rcases Nat.lt_or_ge t.length k with h | h
  · have hlt := decodeLittleEndian_lt t
    have hpow := Nat.pow_lt_pow_right (by norm_num : 1 < 256) h
    rw [List.drop_of_length_le h.le, Nat.div_eq_of_lt (hlt.trans hpow)]
    rfl
  · have hlt := decodeLittleEndian_lt (t.take k)
    have hsplit := decodeLittleEndian_append (t.take k) (t.drop k)
    rw [List.length_take, min_eq_left h] at hlt hsplit
    rw [List.take_append_drop] at hsplit
    rw [hsplit, Nat.add_mul_div_left _ _ (by positivity), Nat.div_eq_of_lt hlt, zero_add]

/-- The bits of the octets are those of the number. -/
theorem testBit_getD (t : Bytes) (bit : ℕ) :
    (t.getD (bit / 8) 0).toNat.testBit (bit % 8) = (decodeLittleEndian t).testBit bit := by
  induction t generalizing bit with
  | nil =>
    rw [List.getD_nil, decodeLittleEndian]
    simp [ofBigEndian]
  | cons c t ih =>
    have hc : c.toNat < 2 ^ 8 := c.toNat_lt
    rw [decodeLittleEndian_cons, Nat.mul_comm, show 256 = 2 ^ 8 from rfl,
      Nat.testBit_two_pow_mul_add _ hc]
    split_ifs with h
    · rw [Nat.div_eq_of_lt h, Nat.mod_eq_of_lt h, List.getD_cons_zero]
    · obtain ⟨bit, rfl⟩ := Nat.exists_eq_add_of_le' (not_lt.1 h)
      rw [Nat.add_div_right _ (by decide), Nat.add_mod_right, List.getD_cons_succ, ih,
        Nat.add_sub_cancel]

/-- A bit, read by a shift and a mask. -/
theorem testBit_toNat (n i : ℕ) : n >>> i &&& 1 = if n.testBit i then 1 else 0 := by
  rw [Nat.and_one_is_mod, Nat.testBit_eq_decide_div_mod_eq, Nat.shiftRight_eq_div_pow]
  have := Nat.mod_two_eq_zero_or_one (n / 2 ^ i)
  by_cases h : n / 2 ^ i % 2 = 1
  · rw [h]
    rfl
  · rw [if_neg (by simpa using h)]
    omega

/-- The index of an octet and of a bit in it, by a shift and a mask. -/
theorem bit_index (bit : ℕ) : bit >>> 3 = bit / 8 ∧ bit &&& 7 = bit % 8 :=
  ⟨Nat.shiftRight_eq_div_pow bit 3, Nat.and_two_pow_sub_one_eq_mod bit 3⟩

end KernelHttp.Crypto
