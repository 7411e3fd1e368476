/-
  The frame codec of the WebSocket client.

  The header parser accepts exactly the headers that are written without a mask.
-/
import KernelHttp.WebSocket.Receive

namespace KernelHttp.WebSocket

open BigEndian

def firstOctet (fin : Bool) (opcode : WebSocketOpcode) : UInt8 :=
  UInt8.ofNat ((if fin then 0x80 else 0x00) + opcode.toNat)

/-- The rules for control frames: whole, and with a short payload. -/
def ControlRules (opcode : WebSocketOpcode) (fin : Bool) (n : ℕ) : Prop :=
  isControlOpcode opcode = true → fin = true ∧ n ≤ webSocketMaxControlPayloadLength

def unmaskedHeaderLength (n : ℕ) : ℕ := 1 + (writePayloadLength n false).length

theorem firstOctet_toNat (fin : Bool) (opcode : WebSocketOpcode) :
    (firstOctet fin opcode).toNat = (if fin then 0x80 else 0x00) + opcode.toNat := by
  have := toNat_lt opcode
  apply toNat_octet
  split_ifs <;> omega

/-! ## Lengths -/

variable {fin : Bool} {t data payload : Bytes} {c : UInt8} {header : WebSocketFrameHeader}
    {opcode : WebSocketOpcode} {n w k destinationCapacity : ℕ}

/-- The length octets of a payload are read back, whatever follows them. -/
theorem readExtendedLength_write (h : n < 2 ^ 63) :
    ∃ c cs, writePayloadLength n false = c :: cs ∧ c.toNat < 128 ∧
      ∀ t, readExtendedLength c.toNat (cs ++ t) = .ok (n, cs.length) := by
  simp only [writePayloadLength, Bool.false_eq_true, if_false, Nat.zero_add]
  by_cases h1 : n ≤ 125
  · have hc : (UInt8.ofNat n).toNat = n := toNat_octet (by omega)
    refine ⟨UInt8.ofNat n, [], if_pos h1, by omega, fun t => ?_⟩
    rw [hc, readExtendedLength, if_pos h1]
    rfl
  rw [if_neg h1]
  by_cases h2 : n ≤ 0xffff
  · have hv : ofBigEndian (bigEndian 2 n) = n := ofBigEndian_bigEndian (by omega)
    refine ⟨UInt8.ofNat 126, bigEndian 2 n, if_pos h2, by decide, fun t => ?_⟩
    rw [show (UInt8.ofNat 126).toNat = 126 from rfl, readExtendedLength, if_neg (by omega),
      if_pos rfl, if_neg (by simp; omega), List.take_left' (bigEndian_length 2 n),
      bigEndian_length]
    simp only [hv]
    exact if_neg h1
  · have hv : ofBigEndian (bigEndian 8 n) = n := ofBigEndian_bigEndian (by omega)
    refine ⟨UInt8.ofNat 127, bigEndian 8 n, if_neg h2, by decide, fun t => ?_⟩
    rw [show (UInt8.ofNat 127).toNat = 127 from rfl, readExtendedLength, if_neg (by omega),
      if_neg (by omega), if_neg (by simp), List.take_left' (bigEndian_length 8 n),
      bigEndian_length]
    simp only [hv]
    exact if_neg (by omega)

theorem writePayloadLength_read (hc : c.toNat < 128)
    (h : readExtendedLength c.toNat t = .ok (n, w)) :
    n < 2 ^ 63 ∧ w ≤ t.length ∧ writePayloadLength n false = c :: t.take w := by
  have hback : ∀ {k : ℕ}, c.toNat = k → UInt8.ofNat k = c := by
    rintro k rfl
    exact UInt8.ofNat_toNat
  have hspell : ∀ k, k ≤ t.length → bigEndian k (ofBigEndian (t.take k)) = t.take k := by
    intro k hk
    have := bigEndian_ofBigEndian (t.take k)
    rwa [List.length_take_of_le hk] at this
  simp only [writePayloadLength, Bool.false_eq_true, if_false, Nat.zero_add]
  rw [readExtendedLength] at h
  by_cases h1 : c.toNat ≤ 125
  · rw [if_pos h1] at h
    obtain ⟨rfl, rfl⟩ := Prod.mk.inj (Except.ok.inj h)
    refine ⟨by omega, Nat.zero_le _, ?_⟩
    rw [if_pos h1, hback rfl, List.take_zero]
  rw [if_neg h1] at h
  by_cases h2 : c.toNat = 126
  · rw [if_pos h2] at h
    split_ifs at h with h3
    simp only at h
    split_ifs at h with h4
    obtain ⟨rfl, rfl⟩ := Prod.mk.inj (Except.ok.inj h)
    have hlt := ofBigEndian_lt (t.take 2)
    rw [List.length_take_of_le (not_lt.1 h3)] at hlt
    refine ⟨by omega, by omega, ?_⟩
    rw [if_neg h4, if_pos (by omega), hspell 2 (by omega), hback h2]
  · rw [if_neg h2] at h
    split_ifs at h with h3
    simp only at h
    split_ifs at h with h4
    obtain ⟨rfl, rfl⟩ := Prod.mk.inj (Except.ok.inj h)
    rw [not_or] at h4
    refine ⟨by omega, by omega, ?_⟩
    rw [if_neg (by omega), if_neg (by omega), hspell 8 (by omega),
      hback (show c.toNat = 127 by omega)]

theorem readExtendedLength_take {lengthCode : ℕ}
    (h : readExtendedLength lengthCode t = .ok (n, w)) (hk : k < w) :
    readExtendedLength lengthCode (t.take k) = .error statusMoreProcessingRequired := by
  rw [readExtendedLength] at h ⊢
  have hlen := List.length_take_le k t
  by_cases h1 : lengthCode ≤ 125
  · rw [if_pos h1] at h
    obtain ⟨-, rfl⟩ := Prod.mk.inj (Except.ok.inj h)
    omega
  rw [if_neg h1] at h ⊢
  by_cases h2 : lengthCode = 126
  · rw [if_pos h2] at h ⊢
    split_ifs at h with h3
    simp only at h
    split_ifs at h
    obtain ⟨-, rfl⟩ := Prod.mk.inj (Except.ok.inj h)
    exact if_pos (by omega)
  · rw [if_neg h2] at h ⊢
    split_ifs at h with h3
    simp only at h
    split_ifs at h
    obtain ⟨-, rfl⟩ := Prod.mk.inj (Except.ok.inj h)
    exact if_pos (by omega)

/-! ## Headers -/

theorem unmaskedHeaderLength_eq (n : ℕ) : unmaskedHeaderLength n = frameHeaderLength n false := by
  simp only [unmaskedHeaderLength, writePayloadLength, frameHeaderLength, Bool.false_eq_true,
    if_false, Nat.add_zero]
  by_cases h1 : n ≤ 125
  · rw [if_pos h1, if_neg (by omega), if_neg (by omega)]
    rfl
  by_cases h2 : n ≤ 0xffff
  · rw [if_neg h1, if_pos h2, if_pos (by omega), List.length_cons, bigEndian_length]
  · rw [if_neg h1, if_neg h2, if_neg (by omega), if_pos (by omega), List.length_cons,
      bigEndian_length]

theorem knownOpcode_some (h : knownOpcode n = some opcode) :
    n = opcode.toNat := by
  unfold knownOpcode at h
  split at h
  all_goals first | cases h; rfl | cases h

theorem firstOctet_bits (fin : Bool) (opcode : WebSocketOpcode) :
    (firstOctet fin opcode).toNat / 16 % 8 = 0 ∧
      (firstOctet fin opcode).toNat % 16 = opcode.toNat ∧
      decide (128 ≤ (firstOctet fin opcode).toNat) = fin := by
  have hop := toNat_lt opcode
  rw [firstOctet_toNat]
  cases fin
  · simp only [Bool.false_eq_true, if_false, decide_eq_false_iff_not]
    omega
  · simp only [if_true, decide_eq_true_eq]
    omega

theorem firstOctet_eq (hrsv : c.toNat / 16 % 8 = 0)
    (hop : c.toNat % 16 = opcode.toNat) : firstOctet (decide (128 ≤ c.toNat)) opcode = c := by
  have hlt := c.toNat_lt
  rw [← UInt8.toNat_inj, firstOctet_toNat]
  by_cases h : 128 ≤ c.toNat
  · rw [decide_eq_true h, if_pos rfl]
    omega
  · rw [decide_eq_false h, if_neg Bool.false_ne_true]
    omega

/-- The headers that are accepted are those that are written without a mask. -/
theorem decodeFrameHeader_iff :
    decodeFrameHeader data = .ok header ↔
      ∃ fin opcode n rest, ControlRules opcode fin n ∧ n < 2 ^ 63 ∧
        data = firstOctet fin opcode :: writePayloadLength n false ++ rest ∧
        header = ⟨fin, false, opcode, n, unmaskedHeaderLength n⟩ := by
  constructor
  · intro h
    rcases data with - | ⟨first, - | ⟨second, t⟩⟩
    · cases h
    · cases h
    rw [decodeFrameHeader] at h
    by_cases hrsv : first.toNat / 16 % 8 ≠ 0
    · rw [if_pos hrsv] at h
      cases h
    rw [if_neg hrsv] at h
    split at h
    · cases h
    case h_2 opcode hop =>
      split at h
      · cases h
      case h_2 n w hread =>
        by_cases hmask : 128 ≤ second.toNat
        · rw [if_pos hmask] at h
          cases h
        rw [if_neg hmask] at h
        split_ifs at h with hcontrol
        obtain rfl := Except.ok.inj h
        rw [Nat.mod_eq_of_lt (not_le.1 hmask)] at hread
        obtain ⟨hn, hw, hwrite⟩ := writePayloadLength_read (not_le.1 hmask) hread
        refine ⟨decide (128 ≤ first.toNat), opcode, n, t.drop w, fun hc => ?_, hn, ?_, ?_⟩
        · obtain ⟨hfin, hle⟩ := not_or.1 fun hbad => hcontrol ⟨hc, hbad⟩
          exact ⟨decide_eq_true (not_lt.1 hfin), not_lt.1 hle⟩
        · rw [firstOctet_eq (not_not.1 hrsv) (knownOpcode_some hop), hwrite, List.cons_append,
            List.cons_append, List.take_append_drop]
        · rw [unmaskedHeaderLength, hwrite, List.length_cons, List.length_take_of_le hw]
          congr 1
          omega
  · rintro ⟨fin, opcode, n, rest, hrules, hn, rfl, rfl⟩
    obtain ⟨c, cs, hw, hc, hread⟩ := readExtendedLength_write hn
    obtain ⟨hrsv, hcode, hfin⟩ := firstOctet_bits fin opcode
    rw [unmaskedHeaderLength, hw, List.cons_append, List.cons_append, decodeFrameHeader,
      if_neg (not_not.2 hrsv), hcode, knownOpcode_toNat]
    simp only [Nat.mod_eq_of_lt hc, hread]
    rw [if_neg (not_le.2 hc), if_neg, hfin, List.length_cons, Nat.add_comm cs.length,
      ← Nat.add_assoc]
    rintro ⟨hcontrol, hbad⟩
    obtain ⟨rfl, hle⟩ := hrules hcontrol
    rcases hbad with hlt | hgt
    · exact absurd (of_decide_eq_true hfin) (not_le.2 hlt)
    · exact absurd hle (not_le.2 hgt)

theorem decodeFrameHeader_take
    (h : decodeFrameHeader data = .ok header) (hk : k < header.headerLength) :
    decodeFrameHeader (data.take k) = .error statusMoreProcessingRequired := by
  rcases data with - | ⟨first, - | ⟨second, t⟩⟩
  · cases h
  · cases h
  rcases k with - | - | k
  · rfl
  · rfl
  rw [List.take_succ_cons, List.take_succ_cons, decodeFrameHeader]
  rw [decodeFrameHeader] at h
  by_cases hrsv : first.toNat / 16 % 8 ≠ 0
  · rw [if_pos hrsv] at h
    cases h
  rw [if_neg hrsv] at h ⊢
  split at h
  · cases h
  case h_2 opcode hop =>
    split at h
    · cases h
    case h_2 n w hread =>
      split_ifs at h
      obtain rfl := Except.ok.inj h
      rw [readExtendedLength_take hread (show k < w by simp only at hk; omega)]

/-! ## Frames -/

/-- A frame of at most `webSocketMaximumPayloadLength` octets that keeps the rules is written
where it fits. -/
theorem encodeFrame_eq_ok (key : Option MaskingKey)
    (hrules : ControlRules opcode fin payload.length)
    (hn : payload.length ≤ webSocketMaximumPayloadLength)
    (hroom : frameHeaderLength payload.length key.isSome + payload.length ≤ destinationCapacity) :
    encodeFrame opcode fin payload key destinationCapacity =
      .ok (firstOctet fin opcode :: writePayloadLength payload.length key.isSome ++
        key.elim payload fun key => [key 0, key 1, key 2, key 3] ++ applyMask key payload) := by
  have hheader : frameHeaderLength payload.length key.isSome ≤ 14 := by
    rw [frameHeaderLength]
    split_ifs <;> omega
  have hsize : maxSizeT = 2 ^ 64 - 1 := rfl
  simp only [webSocketMaximumPayloadLength] at hn
  rw [encodeFrame, if_neg, if_neg (by simp only [webSocketMaximumPayloadLength]; omega)]
  · extract_lets headerLength head
    rw [if_neg (by omega), if_neg (not_lt.2 hroom)]
    cases key with
    | none => rfl
    | some key => exact congrArg Except.ok (List.append_assoc _ _ _)
  · rintro ⟨hcontrol, hbad⟩
    obtain ⟨rfl, hle⟩ := hrules hcontrol
    rcases hbad with hfin | hgt
    · exact hfin rfl
    · exact absurd hle (not_le.2 hgt)

theorem writePayloadLength_masked {cs : Bytes} (hc : c.toNat < 128)
    (h : writePayloadLength n false = c :: cs) :
    writePayloadLength n true = (c ||| 0x80) :: cs := by
  have hor : ∀ k, k < 128 → UInt8.ofNat (128 + k) = UInt8.ofNat k ||| 0x80 := by
    decide +kernel
  simp only [writePayloadLength, Bool.false_eq_true, if_false, if_true, Nat.zero_add] at h ⊢
  by_cases h1 : n ≤ 125
  · rw [if_pos h1] at h ⊢
    obtain ⟨rfl, rfl⟩ := List.cons.inj h
    rw [hor n (by omega)]
  by_cases h2 : n ≤ 0xffff
  · rw [if_neg h1, if_pos h2] at h ⊢
    obtain ⟨rfl, rfl⟩ := List.cons.inj h
    rw [hor 126 (by omega)]
  · rw [if_neg h1, if_neg h2] at h ⊢
    obtain ⟨rfl, rfl⟩ := List.cons.inj h
    rw [hor 127 (by omega)]

theorem unmasked_length (fin : Bool) (opcode : WebSocketOpcode) (n : ℕ) :
    (firstOctet fin opcode :: writePayloadLength n false).length = unmaskedHeaderLength n := by
  rw [List.length_cons, unmaskedHeaderLength, Nat.add_comm]

theorem encodeFrame_masked
    (key : MaskingKey) {capacity capacity' : ℕ} (hrules : ControlRules opcode fin payload.length)
    (hn : payload.length ≤ webSocketMaximumPayloadLength)
    (hroom : frameHeaderLength payload.length false + payload.length ≤ capacity)
    (hroom' : frameHeaderLength payload.length true + payload.length ≤ capacity') :
    ∃ second lengthOctets, second.toNat < 128 ∧
      encodeFrame opcode fin payload none capacity =
        .ok (firstOctet fin opcode :: second :: lengthOctets ++ payload) ∧
      encodeFrame opcode fin payload (some key) capacity' =
        .ok (firstOctet fin opcode :: (second ||| 0x80) :: lengthOctets ++
          [key 0, key 1, key 2, key 3] ++ applyMask key payload) := by
  have hlt : payload.length < 2 ^ 63 := Nat.lt_succ_of_le hn
  obtain ⟨c, cs, hw, hc, -⟩ := readExtendedLength_write hlt
  refine ⟨c, cs, hc, ?_, ?_⟩
  · rw [encodeFrame_eq_ok none hrules hn hroom]
    simp only [Option.isSome_none, hw, Option.elim_none]
  · rw [encodeFrame_eq_ok (some key) hrules hn hroom']
    simp only [Option.isSome_some, writePayloadLength_masked hc hw, Option.elim_some,
      List.append_assoc]

theorem decodeFrame_encodeFrame {frame : Bytes}
    (h : encodeFrame opcode fin payload none destinationCapacity = .ok frame) (rest : Bytes) :
    ∃ header, decodeFrameHeader (frame ++ rest) = .ok header ∧
      header.opcode = opcode ∧ header.fin = fin ∧ header.payloadLength = payload.length ∧
      header.headerLength + header.payloadLength = frame.length ∧
      ∀ capacity, payload.length ≤ capacity →
        decodeFramePayload header (frame ++ rest) capacity = .ok payload := by
  obtain ⟨hrules, hn, hframe⟩ := encodeFrame_ok h
  simp only [Option.isSome_none, Option.elim_none] at hframe
  have hlength := unmasked_length fin opcode payload.length
  have hwhole : frame = (firstOctet fin opcode :: writePayloadLength payload.length false) ++
      payload := hframe
  have hdecode : decodeFrameHeader (frame ++ rest) =
      .ok ⟨fin, false, opcode, payload.length, unmaskedHeaderLength payload.length⟩ :=
    decodeFrameHeader_iff.2 ⟨fin, opcode, payload.length, payload ++ rest, hrules, hn,
      by rw [hwhole, List.append_assoc], rfl⟩
  have hframeLength : frame.length = unmaskedHeaderLength payload.length + payload.length := by
    rw [hwhole, List.length_append, hlength]
  refine ⟨_, hdecode, rfl, rfl, rfl, hframeLength.symm, fun capacity hcapacity => ?_⟩
  have hsize : ¬ payload.length > maxSizeT := by
    have : maxSizeT = 2 ^ 64 - 1 := rfl
    omega
  rw [decodeFramePayload, if_neg hsize, if_neg, if_neg (not_lt.2 hcapacity), hwhole,
    List.append_assoc, List.drop_left' hlength, List.take_left]
  rw [List.length_append, hframeLength, not_or]
  exact ⟨not_lt.2 (le_trans (Nat.le_add_right _ _) (Nat.le_add_right _ _)),
    not_lt.2 (by simp only; omega)⟩

theorem encodeFrame_decodeFrameHeader (h : decodeFrameHeader data = .ok header) :
    header.payloadLength < 2 ^ 63 ∧ header.headerLength ≤ data.length ∧
      ∀ (payload : Bytes) destinationCapacity, payload.length = header.payloadLength →
        header.headerLength + payload.length ≤ destinationCapacity →
        encodeFrame header.opcode header.fin payload none destinationCapacity =
          .ok (data.take header.headerLength ++ payload) := by
  obtain ⟨fin, opcode, n, rest, hrules, hn, hdata, rfl⟩ := decodeFrameHeader_iff.1 h
  have hlength := unmasked_length fin opcode n
  refine ⟨hn, ?_, ?_⟩
  · rw [hdata, List.length_append, hlength]
    exact Nat.le_add_right _ _
  · rintro payload destinationCapacity rfl hroom
    rw [unmaskedHeaderLength_eq] at hroom
    rw [hdata, List.take_left' hlength]
    exact encodeFrame_eq_ok none hrules (Nat.le_of_lt_succ hn) hroom

/-- The codec.  A frame that keeps the rules for control frames is written where it fits; with a
key, the mask bit is set, the key stands before the payload, and the payload is masked with it.
What was written without a mask is read back, whatever follows it.  A header that is read stands
for less than `2 ^ 63` octets and is what is written for them; a proper part of it asks for
more. -/
theorem frame_codec :
    (∀ opcode fin (payload : Bytes) (key : MaskingKey) capacity capacity',
      ControlRules opcode fin payload.length → payload.length ≤ webSocketMaximumPayloadLength →
      frameHeaderLength payload.length false + payload.length ≤ capacity →
      frameHeaderLength payload.length true + payload.length ≤ capacity' →
      ∃ second lengthOctets, second.toNat < 128 ∧
        encodeFrame opcode fin payload none capacity =
          .ok (firstOctet fin opcode :: second :: lengthOctets ++ payload) ∧
        encodeFrame opcode fin payload (some key) capacity' =
          .ok (firstOctet fin opcode :: (second ||| 0x80) :: lengthOctets ++
            [key 0, key 1, key 2, key 3] ++ applyMask key payload)) ∧
    (∀ opcode fin (payload : Bytes) destinationCapacity frame,
      encodeFrame opcode fin payload none destinationCapacity = .ok frame →
      ∀ rest, ∃ header, decodeFrameHeader (frame ++ rest) = .ok header ∧
        header.opcode = opcode ∧ header.fin = fin ∧ header.payloadLength = payload.length ∧
        header.headerLength + header.payloadLength = frame.length ∧
        ∀ capacity, payload.length ≤ capacity →
          decodeFramePayload header (frame ++ rest) capacity = .ok payload) ∧
    (∀ data header, decodeFrameHeader data = .ok header →
      header.payloadLength < 2 ^ 63 ∧ header.headerLength ≤ data.length ∧
      (∀ (payload : Bytes) destinationCapacity, payload.length = header.payloadLength →
        header.headerLength + payload.length ≤ destinationCapacity →
        encodeFrame header.opcode header.fin payload none destinationCapacity =
          .ok (data.take header.headerLength ++ payload)) ∧
      ∀ k, k < header.headerLength →
        decodeFrameHeader (data.take k) = .error statusMoreProcessingRequired) := by
  refine ⟨?_, ?_, ?_⟩
  · intro opcode fin payload key capacity capacity' hrules hn hroom hroom'
    exact encodeFrame_masked key hrules hn hroom hroom'
  · intro opcode fin payload destinationCapacity frame h rest
    exact decodeFrame_encodeFrame h rest
  · intro data header h
    obtain ⟨hn, hle, hwrite⟩ := encodeFrame_decodeFrameHeader h
    exact ⟨hn, hle, hwrite, fun k hk => decodeFrameHeader_take h hk⟩

end KernelHttp.WebSocket
