/-
  HTTP/2 frames (`Http2Frame.h`, `Http2Frame.cpp`,
  RFC 9113 Sections 4 and 6).
-/
import KernelHttp.Core.Types

namespace KernelHttp.Http2

/-! ## Constants -/

def http2FrameHeaderLength : ℕ := 9
def http2DefaultMaxFrameSize : ℕ := 16384
def http2MaxAllowedFrameSize : ℕ := 16777215
def http2InitialWindowSize : ℕ := 65535
def http2MaxWindowSize : ℕ := 0x7fffffff

/-- `Http2FrameType`; the codes above `Continuation` are not named. -/
inductive Http2FrameType where
  | data
  | headers
  | priority
  | rstStream
  | settings
  | pushPromise
  | ping
  | goAway
  | windowUpdate
  | continuation
  | unknown (code : UInt8)
deriving DecidableEq

def Http2FrameType.ofCode (code : UInt8) : Http2FrameType :=
  match code.toNat with
  | 0 => .data
  | 1 => .headers
  | 2 => .priority
  | 3 => .rstStream
  | 4 => .settings
  | 5 => .pushPromise
  | 6 => .ping
  | 7 => .goAway
  | 8 => .windowUpdate
  | 9 => .continuation
  | _ => .unknown code

/-- `Http2ErrorCode`, as far as the connection uses it. -/
inductive Http2ErrorCode where
  | noError
  | protocolError
  | flowControlError
  | settingsTimeout
  | frameSizeError
  | compressionError
  | enhanceYourCalm
deriving DecidableEq

def Http2ErrorCode.code : Http2ErrorCode → ℕ
  | .noError => 0x0
  | .protocolError => 0x1
  | .flowControlError => 0x3
  | .settingsTimeout => 0x4
  | .frameSizeError => 0x6
  | .compressionError => 0x9
  | .enhanceYourCalm => 0xb

structure Http2Settings where
  headerTableSize : ℕ := 4096
  enablePush : ℕ := 0
  maxConcurrentStreams : ℕ := 100
  initialWindowSize : ℕ := 65535
  maxFrameSize : ℕ := 16384
  maxHeaderListSize : ℕ := 65536
  enableConnectProtocol : ℕ := 0
deriving DecidableEq

/-! ## Numbers -/

/-- Big-endian octets. -/
def readBE (octets : Bytes) : ℕ := octets.foldl (fun n b => n * 256 + b.toNat) 0

/-- `ReadUint32BE` from the start of the octets. -/
def readUint32BE (octets : Bytes) : ℕ := readBE (octets.take 4)

def writeUint32BE (value : ℕ) : Bytes :=
  [UInt8.ofNat (value / 2 ^ 24), UInt8.ofNat (value / 2 ^ 16), UInt8.ofNat (value / 2 ^ 8),
    UInt8.ofNat value]

@[simp] theorem length_writeUint32BE (value : ℕ) : (writeUint32BE value).length = 4 := rfl

theorem readUint32BE_writeUint32BE {value : ℕ} (h : value < 2 ^ 32) (rest : Bytes) :
    readUint32BE (writeUint32BE value ++ rest) = value := by
  simp only [readUint32BE, readBE, writeUint32BE, List.cons_append, List.nil_append,
    List.take_succ_cons, List.take_zero, List.foldl_cons, List.foldl_nil, UInt8.toNat_ofNat']
  omega

/-! ## Frames -/

/-- A frame: the header without the length, and the payload. -/
structure Http2Frame where
  type : Http2FrameType
  flags : UInt8 := 0
  streamId : ℕ
  payload : Bytes := []
deriving DecidableEq

/-- `flags & mask`, for the bit `n` of the mask. -/
def hasFlag (flags : UInt8) (n : ℕ) : Bool := flags.toNat.testBit n

namespace Http2Frame

def endStream (f : Http2Frame) : Bool := hasFlag f.flags 0

def ack (f : Http2Frame) : Bool := hasFlag f.flags 0

def endHeaders (f : Http2Frame) : Bool := hasFlag f.flags 2

end Http2Frame

structure Http2FrameHeader where
  length : ℕ
  type : Http2FrameType
  flags : UInt8
  streamId : ℕ
deriving DecidableEq

/-- `DecodeFrameHeader` of nine octets. -/
def decodeFrameHeader (octets : Bytes) : Http2FrameHeader where
  length := readBE (octets.take 3)
  type := .ofCode (octets.getD 3 0)
  flags := octets.getD 4 0
  streamId := readUint32BE (octets.drop 5) % 2 ^ 31

def Http2FrameHeader.toFrame (h : Http2FrameHeader) (payload : Bytes) : Http2Frame :=
  ⟨h.type, h.flags, h.streamId, payload⟩

def isValidFrameTarget (f : Http2Frame) : Bool :=
  match f.type with
  | .data | .headers | .priority | .rstStream | .continuation | .pushPromise => f.streamId != 0
  | .settings | .ping | .goAway => f.streamId == 0
  | .windowUpdate | .unknown _ => true

def stripPadding (f : Http2Frame) : Except NTSTATUS Bytes :=
  if ¬ hasFlag f.flags 3 then .ok f.payload
  else
    match f.payload with
    | [] => .error statusInvalidNetworkResponse
    | padLength :: rest =>
      if padLength.toNat ≥ f.payload.length then .error statusInvalidNetworkResponse
      else .ok (rest.take (rest.length - padLength.toNat))

def stripPriority (flags : UInt8) (payload : Bytes) : Except NTSTATUS Bytes :=
  if ¬ hasFlag flags 5 then .ok payload
  else if payload.length < 5 then .error statusInvalidNetworkResponse
  else .ok (payload.drop 5)

/-! ## Payloads -/

/-- One setting of `DecodeSettingsPayload`. -/
def decodeSetting (settings : Http2Settings) (id value : ℕ) : Except NTSTATUS Http2Settings :=
  match id with
  | 0x1 => .ok { settings with headerTableSize := value }
  | 0x2 =>
    if value > 1 then .error statusInvalidNetworkResponse
    else .ok { settings with enablePush := value }
  | 0x3 => .ok { settings with maxConcurrentStreams := value }
  | 0x4 =>
    if value > http2MaxWindowSize then .error statusInvalidNetworkResponse
    else .ok { settings with initialWindowSize := value }
  | 0x5 =>
    if value < http2DefaultMaxFrameSize ∨ value > http2MaxAllowedFrameSize then
      .error statusInvalidNetworkResponse
    else .ok { settings with maxFrameSize := value }
  | 0x6 => .ok { settings with maxHeaderListSize := value }
  | 0x8 =>
    if value > 1 then .error statusInvalidNetworkResponse
    else .ok { settings with enableConnectProtocol := value }
  | _ => .ok settings

/-- The settings of a payload, identifiers and values. -/
def settingsOf : Bytes → List (ℕ × ℕ)
  | a :: b :: c :: d :: e :: f :: rest => (readBE [a, b], readBE [c, d, e, f]) :: settingsOf rest
  | _ => []

/-- The loop of `DecodeSettingsPayload`.  The settings are changed in place: a
    value that is refused leaves those before it changed. -/
def decodeSettingsLoop : List (ℕ × ℕ) → Http2Settings → NTSTATUS × Http2Settings
  | [], settings => (statusSuccess, settings)
  | (id, value) :: rest, settings =>
    match decodeSetting settings id value with
    | .error status => (status, settings)
    | .ok settings => decodeSettingsLoop rest settings

def decodeSettingsPayload (payload : Bytes) (settings : Http2Settings) :
    NTSTATUS × Http2Settings :=
  if payload.length % 6 ≠ 0 then (statusInvalidNetworkResponse, settings)
  else decodeSettingsLoop (settingsOf payload) settings

/-- The loop of `SettingsErrorCodeForPayload`. -/
def settingsErrorCodeLoop : List (ℕ × ℕ) → Http2ErrorCode
  | [] => .protocolError
  | (id, value) :: rest =>
    if id = 0x2 ∧ value ≠ 0 then .protocolError
    else if id = 0x4 ∧ value > http2MaxWindowSize then .flowControlError
    else if id = 0x5 ∧ (value < http2DefaultMaxFrameSize ∨ value > http2MaxAllowedFrameSize) then
      .protocolError
    else if id = 0x8 ∧ value > 1 then .protocolError
    else settingsErrorCodeLoop rest

def settingsErrorCodeForPayload (payload : Bytes) : Http2ErrorCode :=
  if payload.length % 6 ≠ 0 then .frameSizeError else settingsErrorCodeLoop (settingsOf payload)

def decodeWindowUpdatePayload (payload : Bytes) : Except NTSTATUS ℕ :=
  if payload.length ≠ 4 then .error statusInvalidNetworkResponse
  else
    let increment := readUint32BE payload % 2 ^ 31
    if increment = 0 then .error statusInvalidNetworkResponse else .ok increment

/-- `DecodeGoAwayPayload`: the last stream id and the error code. -/
def decodeGoAwayPayload (payload : Bytes) : Except NTSTATUS (ℕ × ℕ) :=
  if payload.length < 8 then .error statusInvalidNetworkResponse
  else .ok (readUint32BE payload % 2 ^ 31, readUint32BE (payload.drop 4))

def decodeRstStreamPayload (payload : Bytes) : Except NTSTATUS ℕ :=
  if payload.length ≠ 4 then .error statusInvalidNetworkResponse else .ok (readUint32BE payload)

/-! ## Encoders -/

/-- The check of `EncodeFrameHeader` on the stream id and the length. -/
def encodeFrame (f : Http2Frame) : Except NTSTATUS Http2Frame :=
  if f.payload.length > http2MaxAllowedFrameSize ∨ f.streamId ≥ 2 ^ 31 then
    .error statusInvalidParameter
  else .ok f

/-- `EncodeSettingsAck`. -/
def settingsAck : Http2Frame := { type := .settings, flags := 1, streamId := 0 }

/-- `EncodePing`. -/
def pingFrame (opaqueData : Bytes) (ack : Bool) : Http2Frame :=
  { type := .ping, flags := if ack then 1 else 0, streamId := 0, payload := opaqueData.take 8 }

/-- `EncodeGoAway`. -/
def goAwayFrame (lastStreamId errorCode : ℕ) : Http2Frame :=
  { type := .goAway, streamId := 0
    payload := writeUint32BE (lastStreamId % 2 ^ 31) ++ writeUint32BE errorCode }

def encodeRstStream (streamId errorCode : ℕ) : Except NTSTATUS Http2Frame :=
  if streamId = 0 then .error statusInvalidParameter
  else encodeFrame { type := .rstStream, streamId, payload := writeUint32BE errorCode }

def encodeWindowUpdate (streamId increment : ℕ) : Except NTSTATUS Http2Frame :=
  if increment = 0 ∨ increment > http2MaxWindowSize then .error statusInvalidParameter
  else encodeFrame { type := .windowUpdate, streamId, payload := writeUint32BE increment }

def encodeHeaders (streamId : ℕ) (block : Bytes) (endStream endHeaders : Bool) :
    Except NTSTATUS Http2Frame :=
  if streamId = 0 then .error statusInvalidParameter
  else encodeFrame
    { type := .headers, streamId, payload := block
      flags := (if endStream then 0x01 else 0) + (if endHeaders then 0x04 else 0) }

def encodeContinuation (streamId : ℕ) (block : Bytes) (endHeaders : Bool) :
    Except NTSTATUS Http2Frame :=
  if streamId = 0 then .error statusInvalidParameter
  else encodeFrame
    { type := .continuation, streamId, payload := block, flags := if endHeaders then 0x04 else 0 }

def encodeData (streamId : ℕ) (data : Bytes) (endStream : Bool) : Except NTSTATUS Http2Frame :=
  if streamId = 0 then .error statusInvalidParameter
  else encodeFrame
    { type := .data, streamId, payload := data, flags := if endStream then 0x01 else 0 }

variable {last : Bool} {data : Bytes} {f g : Http2Frame} {status : NTSTATUS}

theorem encodeFrame_error (h : encodeFrame f = .error status) :
    status = statusInvalidParameter := by
  unfold encodeFrame at h
  by_cases hc : f.payload.length > http2MaxAllowedFrameSize ∨ f.streamId ≥ 2 ^ 31
  · rw [if_pos hc] at h
    exact (Except.error.inj h).symm
  · rw [if_neg hc] at h
    cases h

/-- An encoded frame is the frame that was asked for. -/
theorem encodeFrame_eq (h : encodeFrame f = .ok g) :
    g = f ∧ f.payload.length ≤ http2MaxAllowedFrameSize ∧ f.streamId < 2 ^ 31 := by
  unfold encodeFrame at h
  by_cases hc : f.payload.length > http2MaxAllowedFrameSize ∨ f.streamId ≥ 2 ^ 31
  · rw [if_pos hc] at h
    cases h
  · rw [if_neg hc] at h
    exact ⟨(Except.ok.inj h).symm, by omega, by omega⟩

theorem encodeWindowUpdate_eq {streamId increment : ℕ}
    (h : encodeWindowUpdate streamId increment = .ok g) :
    0 < increment ∧ increment ≤ http2MaxWindowSize ∧
      g = { type := .windowUpdate, streamId, payload := writeUint32BE increment } := by
  unfold encodeWindowUpdate at h
  split at h
  · cases h
  · exact ⟨by omega, by omega, (encodeFrame_eq h).1⟩

theorem encodeData_error {streamId : ℕ}
    (h : encodeData streamId data last = .error status) : status = statusInvalidParameter := by
  unfold encodeData at h
  by_cases hs : streamId = 0
  · rw [if_pos hs] at h
    exact (Except.error.inj h).symm
  · rw [if_neg hs] at h
    exact encodeFrame_error h

theorem encodeData_eq {streamId : ℕ} (h : encodeData streamId data last = .ok g) :
    streamId ≠ 0 ∧ streamId < 2 ^ 31 ∧
      g = { type := .data, streamId, payload := data, flags := if last then 0x01 else 0 } := by
  unfold encodeData at h
  by_cases hs : streamId = 0
  · rw [if_pos hs] at h
    cases h
  · rw [if_neg hs] at h
    exact ⟨hs, (encodeFrame_eq h).2.2, (encodeFrame_eq h).1⟩

end KernelHttp.Http2
