/-
  HPACK integers (`Hpack.cpp`, "Integer encoding",
  RFC 7541 Section 5.1).
-/
import KernelHttp.Core.Types

namespace KernelHttp

/-! ## Encoding -/

/-- The continuation loop `while (value >= 128)` of `HpackEncodeInteger` and
    the final octet; `dest` holds the octets written so far. -/
def encodeIntegerLoop (capacity value : Nat) (dest : Bytes) : Except NTSTATUS Bytes :=
  if value ≥ 128 then
    if dest.length ≥ capacity then .error statusBufferTooSmall
    else encodeIntegerLoop capacity (value / 128)
      (dest ++ [UInt8.ofNat (value % 128 + 128)])
  else if dest.length ≥ capacity then .error statusBufferTooSmall
  else .ok (dest ++ [UInt8.ofNat value])
termination_by value

/-- `HpackEncodeInteger(value, prefix, prefixBits, dest, capacity, bytesWritten)`. -/
def hpackEncodeInteger (value pfx prefixBits capacity : Nat) : Except NTSTATUS Bytes :=
  if prefixBits = 0 ∨ prefixBits > 8 then .error statusInvalidParameter
  else
    let maxPrefix := 2 ^ prefixBits - 1
    -- `prefix & prefixMask`: the bits above the integer
    let head := pfx / 2 ^ prefixBits * 2 ^ prefixBits
    if value < maxPrefix then
      if capacity < 1 then .error statusBufferTooSmall
      else .ok [UInt8.ofNat (head + value)]
    else if capacity < 1 then .error statusBufferTooSmall
    else encodeIntegerLoop capacity (value - maxPrefix) [UInt8.ofNat (head + maxPrefix)]

/-! ## Decoding -/

/-- The loop of `HpackDecodeInteger`; `consumed` is its `offset`. -/
def decodeIntegerLoop : Bytes → (result m continuationBytes consumed : Nat) →
    Except NTSTATUS (Nat × Nat)
  | [], _, _, _, _ => .error statusMoreProcessingRequired
  | b :: src, result, m, continuationBytes, consumed =>
    if continuationBytes + 1 > 5 then .error statusIntegerOverflow
    else
      let chunk := b.toNat % 128
      if m ≥ 32 ∨ (m ≥ 28 ∧ chunk > 0x0f) then .error statusIntegerOverflow
      else
        let increment := chunk * 2 ^ m
        if result > 2 ^ 32 - 1 - increment then .error statusIntegerOverflow
        else if b.toNat < 128 then .ok (result + increment, consumed + 1)
        else decodeIntegerLoop src (result + increment) (m + 7) (continuationBytes + 1)
          (consumed + 1)

/-- `HpackDecodeInteger(src, length, prefixBits, value, bytesConsumed)`. -/
def hpackDecodeInteger (src : Bytes) (prefixBits : Nat) : Except NTSTATUS (Nat × Nat) :=
  if prefixBits = 0 ∨ prefixBits > 8 then .error statusInvalidParameter
  else match src with
  | [] => .error statusInvalidParameter
  | b :: rest =>
    let maxPrefix := 2 ^ prefixBits - 1
    let result := b.toNat % 2 ^ prefixBits
    if result < maxPrefix then .ok (result, 1) else decodeIntegerLoop rest result 0 0 1

/-! ## The octets of an integer -/

/-- The continuation octets of `value`: groups of seven bits, least
    significant first. -/
def integerTail (value : Nat) : Bytes :=
  if value ≥ 128 then UInt8.ofNat (value % 128 + 128) :: integerTail (value / 128)
  else [UInt8.ofNat value]
termination_by value

/-- All octets of `value` behind the bits `pfx`. -/
def integerOctets (value pfx prefixBits : Nat) : Bytes :=
  let head := pfx / 2 ^ prefixBits * 2 ^ prefixBits
  if value < 2 ^ prefixBits - 1 then [UInt8.ofNat (head + value)]
  else UInt8.ofNat (head + (2 ^ prefixBits - 1)) :: integerTail (value - (2 ^ prefixBits - 1))

theorem integerTail_length_pos (value : Nat) : 0 < (integerTail value).length := by
  unfold integerTail; split <;> simp

theorem encodeIntegerLoop_eq (capacity value : Nat) (dest : Bytes) :
    encodeIntegerLoop capacity value dest =
      if dest.length + (integerTail value).length ≤ capacity then
        .ok (dest ++ integerTail value) else .error statusBufferTooSmall := by
  induction value using Nat.strong_induction_on generalizing dest with
  | _ value ih =>
    rw [encodeIntegerLoop, integerTail]
    by_cases hv : value ≥ 128
    · have hpos := integerTail_length_pos (value / 128)
      simp only [hv, if_true, List.length_cons]
      rw [ih (value / 128) (by omega)]
      simp only [List.length_append, List.length_singleton, List.append_assoc,
        List.singleton_append]
      split_ifs <;> first | rfl | omega
    · simp only [hv, if_false, List.length_singleton]
      split_ifs <;> first | rfl | omega

variable {prefixBits pfx : Nat}

/-- **The octets written**: `HpackEncodeInteger` writes the octets of the
    value if they fit. -/
theorem hpackEncodeInteger_eq (value pfx : Nat) (capacity : Nat)
    (hb : prefixBits ≠ 0) (hb' : prefixBits ≤ 8) :
    hpackEncodeInteger value pfx prefixBits capacity =
      if (integerOctets value pfx prefixBits).length ≤ capacity then
        .ok (integerOctets value pfx prefixBits) else .error statusBufferTooSmall := by
  have h : ¬ (prefixBits = 0 ∨ prefixBits > 8) := by omega
  simp only [hpackEncodeInteger, h, if_false, integerOctets]
  by_cases hv : value < 2 ^ prefixBits - 1
  · simp only [hv, if_true, List.length_singleton]
    split_ifs <;> first | rfl | omega
  · simp only [hv, if_false, List.length_cons, encodeIntegerLoop_eq, List.length_nil]
    have hpos := integerTail_length_pos (value - (2 ^ prefixBits - 1))
    split_ifs <;> first | rfl | omega

theorem integerOctets_ne_nil (value pfx prefixBits : Nat) :
    integerOctets value pfx prefixBits ≠ [] := by
  unfold integerOctets; simp only; split_ifs <;> simp

/-- The first octet of an integer behind the bits `pfx`: these bits, and not
    more than the prefix allows. -/
theorem integerOctets_head (value : Nat) (hp : pfx < 256) (hb : prefixBits ≤ 8) :
    ∃ b rest, integerOctets value pfx prefixBits = b :: rest ∧
      b.toNat / 2 ^ prefixBits = pfx / 2 ^ prefixBits ∧
      b.toNat % 2 ^ prefixBits = min value (2 ^ prefixBits - 1) := by
  have hpos : 0 < 2 ^ prefixBits := Nat.two_pow_pos _
  have h256 : 2 ^ (8 - prefixBits) * 2 ^ prefixBits = 256 := by
    rw [← pow_add, Nat.sub_add_cancel hb]; norm_num
  have hq : pfx / 2 ^ prefixBits < 2 ^ (8 - prefixBits) := by
    rw [Nat.div_lt_iff_lt_mul hpos, h256]; exact hp
  have key : ∀ r, r ≤ 2 ^ prefixBits - 1 →
      (UInt8.ofNat (pfx / 2 ^ prefixBits * 2 ^ prefixBits + r)).toNat =
        pfx / 2 ^ prefixBits * 2 ^ prefixBits + r := by
    intro r hr
    rw [UInt8.toNat_ofNat']
    apply Nat.mod_eq_of_lt
    calc pfx / 2 ^ prefixBits * 2 ^ prefixBits + r
        < (pfx / 2 ^ prefixBits + 1) * 2 ^ prefixBits := by rw [add_mul]; omega
      _ ≤ 2 ^ (8 - prefixBits) * 2 ^ prefixBits := Nat.mul_le_mul_right _ hq
      _ = 2 ^ 8 := by rw [h256]; norm_num
  have split : ∀ r, r ≤ 2 ^ prefixBits - 1 →
      (UInt8.ofNat (pfx / 2 ^ prefixBits * 2 ^ prefixBits + r)).toNat / 2 ^ prefixBits =
        pfx / 2 ^ prefixBits ∧
      (UInt8.ofNat (pfx / 2 ^ prefixBits * 2 ^ prefixBits + r)).toNat % 2 ^ prefixBits = r := by
    intro r hr
    rw [key r hr, Nat.add_comm, Nat.add_mul_div_right _ _ hpos, Nat.add_mul_mod_self_right,
      Nat.div_eq_of_lt (by omega), Nat.mod_eq_of_lt (by omega)]
    exact ⟨by omega, rfl⟩
  unfold integerOctets
  simp only
  split_ifs with hv
  · obtain ⟨h1, h2⟩ := split value (by omega)
    exact ⟨_, _, rfl, h1, by rw [h2]; omega⟩
  · obtain ⟨h1, h2⟩ := split (2 ^ prefixBits - 1) le_rfl
    exact ⟨_, _, rfl, h1, by rw [h2]; omega⟩

/-! ## Decoding undoes encoding -/

theorem decodeIntegerLoop_tail (value : Nat) : ∀ (rest : Bytes) (result k consumed : Nat),
    k ≤ 4 → result + value * 2 ^ (7 * k) < 2 ^ 32 →
    decodeIntegerLoop (integerTail value ++ rest) result (7 * k) k consumed =
      .ok (result + value * 2 ^ (7 * k), consumed + (integerTail value).length) := by
  induction value using Nat.strong_induction_on with
  | _ value ih =>
    intro rest result k consumed hk hfit
    -- the fifth group has four bits
    have hchunk : ∀ c, c * 2 ^ (7 * k) < 2 ^ 32 → 7 * k ≥ 28 → ¬ c > 0x0f := by
      intro c hc h28
      obtain rfl : k = 4 := by omega
      norm_num at hc; omega
    rw [integerTail]
    by_cases hv : value ≥ 128
    · have hk3 : k < 4 := by
        rcases Nat.lt_or_ge k 4 with h | h
        · exact h
        · obtain rfl : k = 4 := by omega
          norm_num at hfit; omega
      have hdm := Nat.div_add_mod value 128
      have hb : (UInt8.ofNat (value % 128 + 128)).toNat = value % 128 + 128 := by
        rw [UInt8.toNat_ofNat']; omega
      have hmod : (value % 128 + 128) % 128 = value % 128 := by omega
      have hle : value % 128 * 2 ^ (7 * k) + value / 128 * 2 ^ (7 * (k + 1)) =
          value * 2 ^ (7 * k) := by
        calc _ = (128 * (value / 128) + value % 128) * 2 ^ (7 * k) := by ring
          _ = _ := by rw [hdm]
      rw [if_pos hv, List.cons_append, decodeIntegerLoop]
      simp only [hb, hmod]
      rw [if_neg (by omega), if_neg, if_neg (by omega), if_neg (by omega)]
      · have := ih (value / 128) (by omega) rest (result + value % 128 * 2 ^ (7 * k)) (k + 1)
          (consumed + 1) (by omega) (by omega)
        rw [show 7 * k + 7 = 7 * (k + 1) by ring, this]
        simp only [List.length_cons]
        congr 2 <;> omega
      · have hc := hchunk (value % 128) (by omega)
        omega
    · have hb : (UInt8.ofNat value).toNat = value := by
        rw [UInt8.toNat_ofNat']; omega
      have hmod : value % 128 = value := by omega
      rw [if_neg hv, List.cons_append, decodeIntegerLoop]
      simp only [hb, hmod]
      rw [if_neg (by omega), if_neg, if_neg (by omega), if_pos (by omega)]
      · simp
      · have hc := hchunk value (by omega)
        omega

/-- **Integers round-trip**: the octets of a `ULONG` behind any prefix,
    followed by anything, decode to it and to exactly their number. -/
theorem decode_encodeInteger {value : Nat} (hv : value < 2 ^ 32) (hp : pfx < 256)
    (hb : prefixBits ≠ 0) (hb' : prefixBits ≤ 8) (rest : Bytes) :
    hpackDecodeInteger (integerOctets value pfx prefixBits ++ rest) prefixBits =
      .ok (value, (integerOctets value pfx prefixBits).length) := by
  obtain ⟨b, tl, he, -, hmod⟩ := integerOctets_head value hp hb'
  have hn : ¬ (prefixBits = 0 ∨ prefixBits > 8) := by omega
  have htl : tl = if value < 2 ^ prefixBits - 1 then [] else
      integerTail (value - (2 ^ prefixBits - 1)) := by
    unfold integerOctets at he
    simp only at he
    split_ifs at he ⊢ <;> simp_all
  rw [he, List.cons_append]
  unfold hpackDecodeInteger
  rw [if_neg hn]
  simp only [hmod]
  by_cases hlt : value < 2 ^ prefixBits - 1
  · rw [if_pos (by omega), htl, if_pos hlt, Nat.min_eq_left (by omega)]; rfl
  · rw [if_neg (by omega), htl, if_neg hlt]
    have h := decodeIntegerLoop_tail (value - (2 ^ prefixBits - 1)) rest (2 ^ prefixBits - 1) 0 1
      (by omega) (by simp; omega)
    simp only [Nat.mul_zero, pow_zero, Nat.mul_one] at h
    rw [Nat.min_eq_right (by omega), h]
    simp only [List.length_cons]
    congr 2 <;> omega

/-! ## What octets denote -/

example : hpackDecodeInteger [0xff, 0x9a, 0x0a] 5 = .ok (1337, 3) := by rfl

end KernelHttp
