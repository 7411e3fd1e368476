/-
  The codings of a body (`HttpCoding.cpp`).

  A chain of codings is undone from the last to the first, each from one buffer into another.
-/
import KernelHttp.Http1.Text

namespace KernelHttp.Http1

/-! ## Buffers -/

/-- An output array of the caller: whether its pointer is not null, and its
    capacity. -/
structure OutBuffer where
  present : Bool := false
  capacity : ℕ := 0
deriving DecidableEq

/-- A destination takes `n` entries: it is not null, or nothing goes there. -/
structure OutBuffer.Takes (buffer : OutBuffer) (n : ℕ) : Prop where
  null : buffer.present = false → buffer.capacity = 0
  fits : n ≤ buffer.capacity

/-- The buffer a body pointer points into; the three buffers do not overlap. -/
inductive BodyLocation where
  | null
  | wire
  | decodedBody
  | scratchBody
deriving DecidableEq

/-- A body pointer together with the octets behind it. -/
structure Body where
  location : BodyLocation
  octets : Bytes
deriving DecidableEq

/-- `length == 0 ? nullptr : pointer`. -/
def Body.orNull (b : Body) : Body := if b.octets = [] then ⟨.null, []⟩ else b

structure HttpCodingDecodeBuffers where
  decodedBody : OutBuffer := {}
  scratchBody : OutBuffer := {}
deriving DecidableEq

/-- The buffer that the source is not in. -/
def selectDestination (current : BodyLocation) (buffers : HttpCodingDecodeBuffers) :
    BodyLocation × OutBuffer :=
  if buffers.decodedBody.present ∧ current ≠ .decodedBody then
    (.decodedBody, buffers.decodedBody)
  else if buffers.scratchBody.present ∧ current ≠ .scratchBody then
    (.scratchBody, buffers.scratchBody)
  else (.null, {})

/-! ## Checksums -/

/-- The little-endian number in four octets. -/
def readLittleEndian32 (d : Bytes) : UInt32 :=
  (d.take 4).foldr (fun b n => n <<< 8 ||| UInt32.ofNat b.toNat) 0

/-- The big-endian number in four octets. -/
def readBigEndian32 (d : Bytes) : UInt32 :=
  (d.take 4).foldl (fun n b => n <<< 8 ||| UInt32.ofNat b.toNat) 0

/-- One turn of the bit loop of `ComputeCrc32`. -/
def crcBit (crc : UInt32) : UInt32 := (crc >>> 1) ^^^ (0xEDB88320 &&& (0 - (crc &&& 1)))

def computeCrc32 (d : Bytes) : UInt32 :=
  ~~~ d.foldl (fun crc b => crcBit^[8] (crc ^^^ UInt32.ofNat b.toNat)) 0xFFFFFFFF

def computeAdler32 (d : Bytes) : UInt32 :=
  let (low, high) := d.foldl (fun (acc : ℕ × ℕ) b =>
    let low := acc.1 + b.toNat
    let low := if low ≥ 65521 then low - 65521 else low
    (low, (acc.2 + low) % 65521)) (1, 0)
  UInt32.ofNat high <<< 16 ||| UInt32.ofNat low

/-! ## Deflate and gzip -/

/-- The codecs the repository does not hold: `DeflateRuntimeAvailable` (whether
    the probe of the operating system's raw inflate succeeded),
    `RtlDecompressBufferEx` with its workspace, and `DecodeBrotli`. -/
structure ExternalCodecs where
  deflateRuntimeAvailable : Bool
  rtlDecompressBufferEx : Bytes → ℕ → Except NTSTATUS Bytes
  decodeBrotli : Bytes → ℕ → Except NTSTATUS Bytes

def sizeFitsUlong (n : ℕ) : Bool := n ≤ 0xFFFFFFFF

def decodeRawDeflate (codecs : ExternalCodecs) (compressed : Bytes) (capacity : ℕ) :
    Except NTSTATUS Bytes :=
  if ¬ codecs.deflateRuntimeAvailable then .error statusNotSupported
  else if ¬ sizeFitsUlong compressed.length ∨ ¬ sizeFitsUlong capacity then
    .error statusInvalidParameter
  else
    match codecs.rtlDecompressBufferEx compressed capacity with
    | .ok decoded => .ok decoded
    | .error status =>
      if status = statusBufferTooSmall then .error status
      else .error statusInvalidNetworkResponse

def looksLikeZlibHeader : Bytes → Bool
  | cmf :: flg :: _ =>
    cmf.toNat % 16 == 8 && cmf.toNat / 16 ≤ 7 && flg.toNat / 32 % 2 == 0 &&
      (cmf.toNat * 256 + flg.toNat) % 31 == 0
  | _ => false

/-- The zlib format, or raw deflate. -/
def decodeDeflate (codecs : ExternalCodecs) (compressed : Bytes) (capacity : ℕ) :
    Except NTSTATUS Bytes :=
  if looksLikeZlibHeader compressed then
    if compressed.length < 6 then .error statusInvalidNetworkResponse
    else do
      let decoded ← decodeRawDeflate codecs ((compressed.drop 2).take (compressed.length - 6))
        capacity
      if readBigEndian32 (compressed.drop (compressed.length - 4)) = computeAdler32 decoded then
        .ok decoded
      else .error statusInvalidNetworkResponse
  else decodeRawDeflate codecs compressed capacity

/-- `SkipZeroTerminatedField`: the octets behind the first zero. -/
def skipZeroTerminatedField : Bytes → Option Bytes
  | [] => none
  | b :: rest => if b = 0 then some rest else skipZeroTerminatedField rest

/-- The bit `n` of the flags is set. -/
def hasFlag (flags : UInt8) (n : ℕ) : Bool := flags.toNat.testBit n

/-- The octets behind the extra field of a gzip header. -/
def skipExtraField : Bytes → Option Bytes
  | lo :: hi :: rest =>
    if lo.toNat + hi.toNat * 256 > rest.length then none
    else some (rest.drop (lo.toNat + hi.toNat * 256))
  | _ => none

/-- The octets behind the header checksum, which covers everything before it. -/
def skipHeaderCrc (compressed rest : Bytes) : Option Bytes :=
  match rest with
  | lo :: hi :: rest' =>
    if lo.toNat + hi.toNat * 256 =
        (computeCrc32 (compressed.take (compressed.length - rest.length))).toNat % 2 ^ 16 then
      some rest'
    else none
  | _ => none

def skipGzipHeader (compressed : Bytes) : Option Bytes :=
  match compressed with
  | id1 :: id2 :: cm :: flags :: _ =>
    if compressed.length < 18 ∨ id1.toNat ≠ 0x1F ∨ id2.toNat ≠ 0x8B ∨ cm.toNat ≠ 8 ∨
        flags.toNat / 32 ≠ 0 then none
    else do
      let rest := compressed.drop 10
      let rest ← if hasFlag flags 2 then skipExtraField rest else some rest
      let rest ← if hasFlag flags 3 then skipZeroTerminatedField rest else some rest
      let rest ← if hasFlag flags 4 then skipZeroTerminatedField rest else some rest
      if hasFlag flags 1 then skipHeaderCrc compressed rest else some rest
  | _ => none

/-- The gzip format around raw deflate. -/
def decodeGzip (codecs : ExternalCodecs) (compressed : Bytes) (capacity : ℕ) :
    Except NTSTATUS Bytes :=
  match skipGzipHeader compressed with
  | none => .error statusInvalidNetworkResponse
  | some rest =>
    if rest.length < 8 then .error statusInvalidNetworkResponse
    else do
      let decoded ← decodeRawDeflate codecs (rest.take (rest.length - 8)) capacity
      let trailer := rest.drop (rest.length - 8)
      if decoded.length > 0xFFFFFFFF ∨ readLittleEndian32 trailer ≠ computeCrc32 decoded ∨
          (readLittleEndian32 (trailer.drop 4)).toNat ≠ decoded.length then
        .error statusInvalidNetworkResponse
      else .ok decoded

/-! ## Compress -/

def hasCompleteCompressCode (dataBits bitOffset codeBits : ℕ) : Bool :=
  if codeBits = 0 ∨ dataBits < codeBits - 1 then false
  else bitOffset < dataBits - (codeBits - 1)

/-- The bit at a position, least significant bit of an octet first. -/
def compressBit (d : Bytes) (position : ℕ) : Bool :=
  (d.getD (position / 8) 0).toNat.testBit (position % 8)

def readCompressCode (d : Bytes) (bitOffset codeBits : ℕ) : Option ℕ :=
  if codeBits = 0 ∨ codeBits > 16 ∨ bitOffset > d.length * 8 ∨
      codeBits > d.length * 8 - bitOffset then none
  else some <| (List.range codeBits).foldr
    (fun bit n => 2 * n + (compressBit d (bitOffset + bit)).toNat) 0

def alignCompressBitOffset (bitOffset codeBits : ℕ) : ℕ :=
  if codeBits = 0 then bitOffset
  else (bitOffset + 8 * codeBits - 1) - (bitOffset + 8 * codeBits - 1) % (8 * codeBits)

/-- The local variables of `DecodeCompressWithTables`; `oldCode` is `none` for
    `static_cast<SIZE_T>(-1)`. -/
structure CompressState where
  bitOffset : ℕ := 0
  codeBits : ℕ := 9
  nextCode : ℕ
  oldCode : Option ℕ := none
  prefixes : ℕ → ℕ := fun _ => 0
  suffixes : ℕ → UInt8 := fun n => if n < 256 then UInt8.ofNat n else 0
  output : Bytes := []

/-- `ExpandCompressCode`: the stack, top first, within `stackCapacity` octets. -/
def expandCompressCode (st : CompressState) : ℕ → ℕ → Bytes → Option Bytes
  | 0, _, _ => none
  | stackCapacity + 1, current, stack =>
    if current < 256 then some (UInt8.ofNat current :: stack)
    else if current ≥ st.nextCode then none
    else expandCompressCode st stackCapacity (st.prefixes current) (st.suffixes current :: stack)

/-- `EmitReverseStack`, `AppendOutputByte`: the stack is written from its top on. -/
def emitReverseStack (destination : OutBuffer) (stack output : Bytes) : Except NTSTATUS Bytes :=
  if stack = [] ∨ (destination.present ∧ output.length + stack.length ≤ destination.capacity) then
    .ok (output ++ stack)
  else .error statusBufferTooSmall

/-- The octets of a code, and those behind them for a code that is not in the table yet. -/
def compressStack (maxCodes : ℕ) (st : CompressState) (code : ℕ) :
    Except NTSTATUS (Bytes × Bytes) :=
  if code < st.nextCode then
    match expandCompressCode st maxCodes code [] with
    | none => .error statusInvalidNetworkResponse
    | some stack => .ok (stack, [])
  else
    match st.oldCode with
    | none => .error statusInvalidNetworkResponse
    | some oldCode =>
      if code ≠ st.nextCode then .error statusInvalidNetworkResponse
      else
        match expandCompressCode st maxCodes oldCode [] with
        | none => .error statusInvalidNetworkResponse
        | some stack => .ok (stack, stack.take 1)

/-- The state behind a code: what is put out, the new entry of the table and the last code. -/
def compressTable (maxCodes : ℕ) (st : CompressState) (code : ℕ) (stack output : Bytes) :
    CompressState :=
  let st := { st with output }
  let st := match st.oldCode with
    | none => st
    | some oldCode =>
      if st.nextCode < maxCodes then
        { st with
          prefixes := Function.update st.prefixes st.nextCode (oldCode % 2 ^ 16)
          suffixes := Function.update st.suffixes st.nextCode (stack.headD 0)
          nextCode := st.nextCode + 1 }
      else st
  { st with oldCode := some code }

/-- The part of a turn behind the reading of a code other than the clear code. -/
def compressCode (destination : OutBuffer) (maxCodes : ℕ) (st : CompressState) (code : ℕ) :
    Except NTSTATUS CompressState := do
  let (stack, extra) ← compressStack maxCodes st code
  let output ← emitReverseStack destination stack st.output
  let output ← emitReverseStack destination extra output
  return compressTable maxCodes st code stack output

variable {st : CompressState} {code maxCodes : ℕ}

theorem compressTable_output {stack output : Bytes} :
    (compressTable maxCodes st code stack output).output = output := by
  unfold compressTable
  dsimp only
  split
  · rfl
  · split_ifs <;> rfl

theorem compressCode_eq {destination : OutBuffer} :
    compressCode destination maxCodes st code = compressStack maxCodes st code >>= fun r =>
      emitReverseStack destination r.1 st.output >>= fun output =>
      emitReverseStack destination r.2 output >>= fun output =>
      .ok (compressTable maxCodes st code r.1 output) := rfl

/-- The loop of `DecodeCompressWithTables`. Every turn reads a code of at least
    one bit, so one turn for each bit is enough. -/
def compressLoop (d : Bytes) (destination : OutBuffer) (blockMode : Bool) (maxBits : ℕ) :
    ℕ → CompressState → Except NTSTATUS Bytes
  | 0, st => .ok st.output
  | turns + 1, st =>
    if ¬ hasCompleteCompressCode (d.length * 8) st.bitOffset st.codeBits then .ok st.output
    else
      let st :=
        if st.nextCode > 2 ^ st.codeBits - 1 ∧ st.codeBits < maxBits then
          { st with
            bitOffset := alignCompressBitOffset st.bitOffset st.codeBits
            codeBits := st.codeBits + 1 }
        else st
      if ¬ hasCompleteCompressCode (d.length * 8) st.bitOffset st.codeBits then .ok st.output
      else
        match readCompressCode d st.bitOffset st.codeBits with
        | none => .error statusInvalidNetworkResponse
        | some code =>
          let st := { st with bitOffset := st.bitOffset + st.codeBits }
          if blockMode ∧ code = 256 then
            compressLoop d destination blockMode maxBits turns
              { st with codeBits := 9, nextCode := 257, oldCode := none }
          else
            match compressCode destination (2 ^ maxBits) st code with
            | .error status => .error status
            | .ok st => compressLoop d destination blockMode maxBits turns st

/-- LZW as `compress` writes it. -/
def decodeCompress (compressed : Bytes) (destination : OutBuffer) : Except NTSTATUS Bytes :=
  match compressed with
  | magic0 :: magic1 :: flags :: d =>
    let maxBits := flags.toNat % 32
    if magic0.toNat ≠ 0x1F ∨ magic1.toNat ≠ 0x9D ∨ maxBits < 9 ∨ maxBits > 16 then
      .error statusInvalidNetworkResponse
    else
      let blockMode := hasFlag flags 7
      compressLoop d destination blockMode maxBits (d.length * 8)
        { nextCode := if blockMode then 257 else 256 }
  | _ => .error statusInvalidNetworkResponse

/-! ## Chains -/

inductive HttpCoding where
  | identity
  | gzip
  | deflate
  | brotli
  | compress
deriving DecidableEq

def maxDecodeExpansionRatio : ℕ := 64

/-- `IsDecodedSizeAllowed`; `KH_HARD_MAX_DECODED_BYTES` is 0, which sets no bound. -/
def isDecodedSizeAllowed (encodedLength decodedLength : ℕ) : Bool :=
  if encodedLength = 0 then decodedLength == 0
  else if encodedLength > maxSizeT / maxDecodeExpansionRatio then true
  else decodedLength ≤ encodedLength * maxDecodeExpansionRatio

/-- The check behind each decoder of a chain.  It is `IsDecodedSizeAllowed` in the code; without it,
a chain says what a body is encoded from. -/
class DecodedSizeCheck where
  allowed : ℕ → ℕ → Bool

instance : DecodedSizeCheck := ⟨isDecodedSizeAllowed⟩

/-- No check at all. -/
@[reducible] def anyDecodedSize : DecodedSizeCheck := ⟨fun _ _ => true⟩

theorem DecodedSizeCheck.allowed_eq (encodedLength decodedLength : ℕ) :
    DecodedSizeCheck.allowed encodedLength decodedLength =
      isDecodedSizeAllowed encodedLength decodedLength := rfl

/-- One content or transfer coding, into the next buffer. -/
def decodeOne (codecs : ExternalCodecs) (coding : HttpCoding) (source : Body)
    (destination : OutBuffer) : Except NTSTATUS Bytes :=
  if source.location = .null ∧ (source.octets ≠ [] ∨ coding ≠ .identity) then
    .error statusInvalidParameter
  else
    match coding with
    | .gzip => decodeGzip codecs source.octets destination.capacity
    | .deflate => decodeDeflate codecs source.octets destination.capacity
    | .brotli => codecs.decodeBrotli source.octets destination.capacity
    | .compress => decodeCompress source.octets destination
    | .identity => .ok source.octets

/-- One turn of the loop of `DecodeChainReverse`. -/
def chainStep [DecodedSizeCheck] (codecs : ExternalCodecs) (buffers : HttpCodingDecodeBuffers)
    (coding : HttpCoding) (acc : Body × Bool) : Except NTSTATUS (Body × Bool) :=
  if coding = .identity then .ok acc
  else
    let (location, destination) := selectDestination acc.1.location buffers
    match decodeOne codecs coding acc.1 destination with
    | .error status => .error status
    | .ok decoded =>
      if ¬ DecodedSizeCheck.allowed acc.1.octets.length decoded.length then
        .error statusInvalidNetworkResponse
      else .ok (Body.orNull ⟨location, decoded⟩, true)

/-- The copy of a transformed body into `DecodedBody` at the end of a chain. -/
def moveToDecodedBody (buffers : HttpCodingDecodeBuffers) (current : Body) (transformed : Bool) :
    Except NTSTATUS Body :=
  if transformed ∧ current.octets ≠ [] ∧ buffers.decodedBody.present ∧
      current.location ≠ .decodedBody then
    if current.octets.length > buffers.decodedBody.capacity then .error statusBufferTooSmall
    else .ok ⟨.decodedBody, current.octets⟩
  else .ok current

/-- `HttpCodingCodec::DecodeChainReverse`: the body and `AppliedCoding`. -/
def decodeChainReverse [DecodedSizeCheck] (codecs : ExternalCodecs) (codings : List HttpCoding)
    (body : Body) (buffers : HttpCodingDecodeBuffers) : Except NTSTATUS (Body × Bool) :=
  if body.location = .null ∧ body.octets ≠ [] then .error statusInvalidParameter
  else if codings = [] ∨ body.octets = [] then .ok (body.orNull, false)
  else do
    let (current, transformed) ← codings.reverse.foldlM
      (fun acc coding => chainStep codecs buffers coding acc) (body, false)
    let current ← moveToDecodedBody buffers current transformed
    return (current.orNull, transformed)

end KernelHttp.Http1
