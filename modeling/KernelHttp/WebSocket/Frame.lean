/-
  WebSocket frames (`websocket/WebSocketFrame.cpp`).

  `encodeFrame` writes a frame and `decodeFrameHeader` reads the header of one.
  `readFrame` is how RFC 6455 section 5.2 reads a frame, with or without a mask.
-/
import KernelHttp.Core.Types
import KernelHttp.Lib.BigEndian

namespace KernelHttp.WebSocket

open BigEndian

inductive WebSocketOpcode where
  | continuation
  | text
  | binary
  | close
  | ping
  | pong
deriving DecidableEq, Repr

/-- The values of the enumeration. -/
def WebSocketOpcode.toNat : WebSocketOpcode → ℕ
  | .continuation => 0x0
  | .text => 0x1
  | .binary => 0x2
  | .close => 0x8
  | .ping => 0x9
  | .pong => 0xA

/-- `IsKnownOpcode`, with the opcode. -/
def knownOpcode : ℕ → Option WebSocketOpcode
  | 0x0 => some .continuation
  | 0x1 => some .text
  | 0x2 => some .binary
  | 0x8 => some .close
  | 0x9 => some .ping
  | 0xA => some .pong
  | _ => none

def isControlOpcode (opcode : WebSocketOpcode) : Bool :=
  opcode == .close || opcode == .ping || opcode == .pong

def webSocketFrameHeaderMaxLength : ℕ := 14
def webSocketMaxControlPayloadLength : ℕ := 125
def webSocketMaximumPayloadLength : ℕ := 0x7fffffffffffffff

/-- A masking key of `WebSocketMaskingKeyLength` octets. -/
abbrev MaskingKey := Fin 4 → UInt8

local instance neZeroKeyLength : NeZero 4 := ⟨four_ne_zero⟩

/-- `byte ^ maskingKey[index % WebSocketMaskingKeyLength]`. -/
def applyMask (key : MaskingKey) (payload : Bytes) : Bytes :=
  payload.mapIdx fun i c => c ^^^ key (Fin.ofNat 4 i)

/-- `WritePayloadLength`; the sum is the `|` of the source, the bits being apart. -/
def writePayloadLength (n : ℕ) (masked : Bool) : Bytes :=
  let maskBit := if masked then 0x80 else 0x00
  if n ≤ 125 then [UInt8.ofNat (maskBit + n)]
  else if n ≤ 0xffff then UInt8.ofNat (maskBit + 126) :: bigEndian 2 n
  else UInt8.ofNat (maskBit + 127) :: bigEndian 8 n

/-- `headerLength` of `EncodeFrame`. -/
def frameHeaderLength (n : ℕ) (masked : Bool) : ℕ :=
  let headerLength := 2 + if masked then 4 else 0
  if n > 125 ∧ n ≤ 0xffff then headerLength + 2
  else if n > 0xffff then headerLength + 8
  else headerLength

/-- `EncodeFrame`: masked when there is a key. -/
def encodeFrame (opcode : WebSocketOpcode) (fin : Bool) (payload : Bytes)
    (maskingKey : Option MaskingKey) (destinationCapacity : ℕ) : Except NTSTATUS Bytes :=
  if isControlOpcode opcode ∧ (¬ fin ∨ payload.length > webSocketMaxControlPayloadLength) then
    .error statusInvalidParameter
  else if payload.length > webSocketMaximumPayloadLength then .error statusInvalidParameter
  else
    let headerLength := frameHeaderLength payload.length maskingKey.isSome
    if payload.length > maxSizeT - headerLength then .error statusIntegerOverflow
    else if destinationCapacity < headerLength + payload.length then .error statusBufferTooSmall
    else
      let head := UInt8.ofNat ((if fin then 0x80 else 0x00) + opcode.toNat) ::
        writePayloadLength payload.length maskingKey.isSome
      match maskingKey with
      | none => .ok (head ++ payload)
      | some key => .ok (head ++ [key 0, key 1, key 2, key 3] ++ applyMask key payload)

structure WebSocketFrameHeader where
  fin : Bool := false
  masked : Bool := false
  opcode : WebSocketOpcode := .continuation
  payloadLength : ℕ := 0
  headerLength : ℕ := 0
deriving DecidableEq

/-- `ReadExtendedLength` on what follows the first two octets: the length, and the octets
that it takes. -/
def readExtendedLength (lengthCode : ℕ) (t : Bytes) : Except NTSTATUS (ℕ × ℕ) :=
  if lengthCode ≤ 125 then .ok (lengthCode, 0)
  else if lengthCode = 126 then
    if t.length < 2 then .error statusMoreProcessingRequired
    else
      let payloadLength := ofBigEndian (t.take 2)
      if payloadLength ≤ 125 then .error statusInvalidNetworkResponse else .ok (payloadLength, 2)
  else if t.length < 8 then .error statusMoreProcessingRequired
  else
    let value := ofBigEndian (t.take 8)
    if 2 ^ 63 ≤ value ∨ value ≤ 0xffff then .error statusInvalidNetworkResponse
    else .ok (value, 8)

/-- The header, of minimal length and without reserved bits. -/
def decodeFrameHeader : Bytes → Except NTSTATUS WebSocketFrameHeader
  | first :: second :: t =>
    if first.toNat / 16 % 8 ≠ 0 then .error statusInvalidNetworkResponse
    else
      match knownOpcode (first.toNat % 16) with
      | none => .error statusInvalidNetworkResponse
      | some opcode =>
        match readExtendedLength (second.toNat % 128) t with
        | .error status => .error status
        | .ok (payloadLength, extended) =>
          if 128 ≤ second.toNat then .error statusInvalidNetworkResponse
          else if isControlOpcode opcode ∧ (first.toNat < 128 ∨ payloadLength > 125) then
            .error statusInvalidNetworkResponse
          else .ok ⟨decide (128 ≤ first.toNat), false, opcode, payloadLength, 2 + extended⟩
  | _ => .error statusMoreProcessingRequired

/-! ## Frames as the standard reads them -/

/-- A frame: whether it ends its message, its opcode and its payload. -/
structure Frame where
  fin : Bool
  opcode : WebSocketOpcode
  payload : Bytes
deriving DecidableEq

/-- The length of a payload in its shortest form, below `2 ^ 63`. -/
def readLength (lengthCode : ℕ) (t : Bytes) : Option (ℕ × Bytes) :=
  if lengthCode ≤ 125 then some (lengthCode, t)
  else
    let width := if lengthCode = 126 then 2 else 8
    let n := ofBigEndian (t.take width)
    if width ≤ t.length ∧ (if lengthCode = 126 then 125 < n else 0xffff < n ∧ n < 2 ^ 63) then
      some (n, t.drop width)
    else none

def readKey (masked : Bool) : Bytes → Option (Option MaskingKey × Bytes)
  | k₀ :: k₁ :: k₂ :: k₃ :: t =>
    if masked then some (some ![k₀, k₁, k₂, k₃], t) else some (none, k₀ :: k₁ :: k₂ :: k₃ :: t)
  | t => if masked then none else some (none, t)

def readFrame : Bytes → Option (Frame × Bytes)
  | first :: second :: t => do
    let opcode ← knownOpcode (first.toNat % 16)
    let (n, t) ← readLength (second.toNat % 128) t
    let (key, t) ← readKey (decide (128 ≤ second.toNat)) t
    let fin := decide (128 ≤ first.toNat)
    if first.toNat / 16 % 8 = 0 ∧ n ≤ t.length ∧ (isControlOpcode opcode → fin ∧ n ≤ 125) then
      some (⟨fin, opcode, (key.elim id applyMask) (t.take n)⟩, t.drop n)
    else none
  | _ => none

/-! ## Round trip -/

theorem knownOpcode_toNat (opcode : WebSocketOpcode) : knownOpcode opcode.toNat = some opcode := by
  cases opcode <;> rfl

theorem toNat_lt (opcode : WebSocketOpcode) : opcode.toNat < 16 := by
  cases opcode <;> decide

theorem applyMask_applyMask (key : MaskingKey) (payload : Bytes) :
    applyMask key (applyMask key payload) = payload := by
  rw [applyMask, applyMask, List.mapIdx_mapIdx]
  apply List.ext_getElem
  · rw [List.length_mapIdx]
  · intro i h1 h2
    simp only [List.getElem_mapIdx, Function.comp_apply, UInt8.xor_assoc, UInt8.xor_self,
      UInt8.xor_zero]

@[simp] theorem applyMask_length (key : MaskingKey) (payload : Bytes) :
    (applyMask key payload).length = payload.length := List.length_mapIdx

variable {fin : Bool} {frame payload : Bytes} {maskingKey : Option MaskingKey}
    {opcode : WebSocketOpcode} {n destinationCapacity : ℕ}

theorem toNat_octet (h : n < 256) : (UInt8.ofNat n).toNat = n := by
  rw [UInt8.toNat_ofNat']
  omega

theorem readLength_write (masked : Bool) (t : Bytes) (h : n < 2 ^ 63) :
    ∃ c cs, writePayloadLength n masked = c :: cs ∧ decide (128 ≤ c.toNat) = masked ∧
      readLength (c.toNat % 128) (cs ++ t) = some (n, t) := by
  have hbit : (if masked then 0x80 else 0x00) = 0x80 ∧ masked = true ∨
      (if masked then 0x80 else 0x00) = 0x00 ∧ masked = false := by
    cases masked
    · exact .inr ⟨rfl, rfl⟩
    · exact .inl ⟨rfl, rfl⟩
  simp only [writePayloadLength]
  generalize (if masked then 0x80 else 0x00) = bit at hbit
  have hmask : ∀ {k : ℕ}, k < 128 → decide (128 ≤ bit + k) = masked ∧ (bit + k) % 128 = k := by
    intro k hk
    rcases hbit with ⟨rfl, rfl⟩ | ⟨rfl, rfl⟩
    · exact ⟨decide_eq_true (by omega), by omega⟩
    · exact ⟨decide_eq_false (by omega), by omega⟩
  have hlt : bit ≤ 128 := by omega
  by_cases h1 : n ≤ 125
  · rw [if_pos h1]
    obtain ⟨hm, hk⟩ := hmask (k := n) (by omega)
    refine ⟨_, _, rfl, ?_, ?_⟩
    · rw [toNat_octet (by omega), hm]
    · rw [toNat_octet (by omega), hk, readLength, if_pos h1]
      rfl
  by_cases h2 : n ≤ 0xffff
  · rw [if_neg h1, if_pos h2]
    obtain ⟨hm, hk⟩ := hmask (k := 126) (by omega)
    refine ⟨_, _, rfl, ?_, ?_⟩
    · rw [toNat_octet (by omega), hm]
    · have hv : ofBigEndian (bigEndian 2 n) = n := ofBigEndian_bigEndian (by omega)
      rw [toNat_octet (by omega), hk, readLength, if_neg (by omega)]
      simp only [if_true, List.take_left' (bigEndian_length 2 n),
        List.drop_left' (bigEndian_length 2 n), hv]
      rw [if_pos ⟨by rw [List.length_append, bigEndian_length]; omega, by omega⟩]
  · rw [if_neg h1, if_neg h2]
    obtain ⟨hm, hk⟩ := hmask (k := 127) (by omega)
    refine ⟨_, _, rfl, ?_, ?_⟩
    · rw [toNat_octet (by omega), hm]
    · have hv : ofBigEndian (bigEndian 8 n) = n := ofBigEndian_bigEndian (by omega)
      rw [toNat_octet (by omega), hk, readLength, if_neg (by omega)]
      simp only [show ¬ (127 = 126) by decide, if_false, List.take_left' (bigEndian_length 8 n),
        List.drop_left' (bigEndian_length 8 n), hv]
      rw [if_pos ⟨by rw [List.length_append, bigEndian_length]; omega, by omega, h⟩]

theorem readKey_none (t : Bytes) : readKey false t = some (none, t) := by
  unfold readKey
  split <;> rfl

/-- What a frame that was written is. -/
theorem encodeFrame_ok
    (h : encodeFrame opcode fin payload maskingKey destinationCapacity = .ok frame) :
    (isControlOpcode opcode = true → fin = true ∧ payload.length ≤ 125) ∧
      payload.length < 2 ^ 63 ∧
      frame = UInt8.ofNat ((if fin then 0x80 else 0x00) + opcode.toNat) ::
        writePayloadLength payload.length maskingKey.isSome ++
        maskingKey.elim payload
          fun key => [key 0, key 1, key 2, key 3] ++ applyMask key payload := by
  unfold encodeFrame at h
  by_cases h1 : isControlOpcode opcode ∧
      (¬ fin ∨ payload.length > webSocketMaxControlPayloadLength)
  · rw [if_pos h1] at h
    cases h
  by_cases h2 : payload.length > webSocketMaximumPayloadLength
  · rw [if_neg h1, if_pos h2] at h
    cases h
  rw [if_neg h1, if_neg h2] at h
  refine ⟨?_, ?_, ?_⟩
  · simpa only [not_and, not_or, Bool.not_eq_true, Bool.not_eq_false,
      webSocketMaxControlPayloadLength, gt_iff_lt, not_lt] using h1
  · simp only [webSocketMaximumPayloadLength] at h2
    omega
  · simp only at h
    generalize frameHeaderLength payload.length maskingKey.isSome = headerLength at h
    by_cases h3 : payload.length > maxSizeT - headerLength
    · rw [if_pos h3] at h
      cases h
    by_cases h4 : destinationCapacity < headerLength + payload.length
    · rw [if_neg h3, if_pos h4] at h
      cases h
    rw [if_neg h3, if_neg h4] at h
    cases maskingKey with
    | none => exact (Except.ok.inj h).symm
    | some key =>
      rw [← Except.ok.inj h]
      exact List.append_assoc _ _ _

/-- A frame that was written is read back. -/
theorem readFrame_encodeFrame
    (h : encodeFrame opcode fin payload maskingKey destinationCapacity = .ok frame) (t : Bytes) :
    readFrame (frame ++ t) = some (⟨fin, opcode, payload⟩, t) := by
  obtain ⟨hcontrol, hlt, rfl⟩ := encodeFrame_ok h
  have hop := toNat_lt opcode
  have hbit : (if fin then 0x80 else 0x00) = 0x80 ∧ fin = true ∨
      (if fin then 0x80 else 0x00) = 0x00 ∧ fin = false := by
    cases fin
    · exact .inr ⟨rfl, rfl⟩
    · exact .inl ⟨rfl, rfl⟩
  generalize (if fin then 0x80 else 0x00) = bit at hbit
  have hfirst : (UInt8.ofNat (bit + opcode.toNat)).toNat = bit + opcode.toNat :=
    toNat_octet (by omega)
  have hfin : decide (128 ≤ bit + opcode.toNat) = fin := by
    rcases hbit with ⟨rfl, rfl⟩ | ⟨rfl, rfl⟩
    · exact decide_eq_true (by omega)
    · exact decide_eq_false (by omega)
  have hcode : (bit + opcode.toNat) % 16 = opcode.toNat := by omega
  have hrsv : (bit + opcode.toNat) / 16 % 8 = 0 := by omega
  cases maskingKey with
  | none =>
    obtain ⟨c, cs, hw, hm, hr⟩ := readLength_write false (payload ++ t) hlt
    simp only [Option.isSome_none, hw, Option.elim_none, List.cons_append, List.append_assoc,
      readFrame, hfirst, hcode, knownOpcode_toNat, Option.bind_eq_bind, Option.bind_some, hr, hm,
      readKey_none, hfin, hrsv, true_and]
    rw [if_pos ⟨by simp, hcontrol⟩, List.take_left, List.drop_left]
    rfl
  | some key =>
    obtain ⟨c, cs, hw, hm, hr⟩ := readLength_write true
      ([key 0, key 1, key 2, key 3] ++ (applyMask key payload ++ t)) hlt
    simp only [List.cons_append, List.nil_append] at hr
    have hkey : (![key 0, key 1, key 2, key 3] : MaskingKey) = key := by
      funext i
      fin_cases i <;> rfl
    simp only [Option.isSome_some, hw, Option.elim_some, List.cons_append, List.nil_append,
      List.append_assoc, readFrame, hfirst, hcode, knownOpcode_toNat, Option.bind_eq_bind,
      Option.bind_some, hr, hm, readKey, if_true, hkey, hfin, hrsv, true_and]
    rw [if_pos ⟨by simp, hcontrol⟩, List.take_left' (applyMask_length key payload),
      List.drop_left' (applyMask_length key payload)]
    simp only [applyMask_applyMask]

end KernelHttp.WebSocket
