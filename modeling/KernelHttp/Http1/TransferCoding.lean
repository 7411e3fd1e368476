/-
  Transfer and content codings of a response
  (`HttpTransferCoding.cpp`, `HttpContentEncoding.cpp`).
-/
import KernelHttp.Http1.Chunked

namespace KernelHttp.Http1

open Incremental

/-! ## Lists of codings -/

def httpMaxTransferCodings : ℕ := 4

inductive HttpTransferCodingKind where
  | chunked
  | gzip
  | deflate
  | compress
deriving DecidableEq

structure HttpTransferCodingInfo where
  codings : List HttpTransferCodingKind := []
  hasTransferEncoding : Bool := false
  finalCodingIsChunked : Bool := false
deriving DecidableEq

def splitAtCommas (value : Bytes) : List Bytes := value.splitOnP (·.toNat == 44)

def parseTransferCodingToken (member : Bytes) : Except NTSTATUS HttpTransferCodingKind :=
  let member := trimOptionalWhitespace member
  let beforeParameters := member.takeWhile (·.toNat != 59)
  let token := trimOptionalWhitespace beforeParameters
  let finish (parsed : HttpTransferCodingKind) : Except NTSTATUS HttpTransferCodingKind :=
    if beforeParameters.length ≠ member.length then .error statusInvalidNetworkResponse
    else .ok parsed
  if member = [] ∨ ¬ isValidToken token then .error statusInvalidNetworkResponse
  else if textEqualsIgnoreCase token (text "identity") then .error statusInvalidNetworkResponse
  else if textEqualsIgnoreCase token (text "br") then .error statusNotSupported
  else if textEqualsIgnoreCase token (text "chunked") then finish .chunked
  else if textEqualsIgnoreCase token (text "gzip") ∨
      textEqualsIgnoreCase token (text "x-gzip") then finish .gzip
  else if textEqualsIgnoreCase token (text "deflate") then finish .deflate
  else if textEqualsIgnoreCase token (text "compress") ∨
      textEqualsIgnoreCase token (text "x-compress") then finish .compress
  else .error statusNotSupported

def appendTransferCoding (codings : List HttpTransferCodingKind)
    (coding : HttpTransferCodingKind) : Except NTSTATUS (List HttpTransferCodingKind) :=
  if codings.length ≥ httpMaxTransferCodings then .error statusNotSupported
  else if coding = .chunked ∧ .chunked ∈ codings then .error statusInvalidNetworkResponse
  else .ok (codings ++ [coding])

def appendTransferCodings (codings : List HttpTransferCodingKind) (value : Bytes) :
    Except NTSTATUS (List HttpTransferCodingKind) :=
  (splitAtCommas value).foldlM (fun codings member => do
    appendTransferCoding codings (← parseTransferCodingToken member)) codings

def fieldValues (headers : List HttpHeader) (name : Bytes) : List Bytes :=
  (headers.filter fun h => textEqualsIgnoreCase h.name name).map HttpHeader.value

/-- The codings of the Transfer-Encoding fields, in order. -/
def HttpTransferCodingInfo.parse (headers : List HttpHeader) :
    Except NTSTATUS HttpTransferCodingInfo := do
  let values := fieldValues headers (text "Transfer-Encoding")
  let codings ← values.foldlM appendTransferCodings []
  if values = [] then .ok {}
  else if codings = [] then .error statusInvalidNetworkResponse
  else .ok ⟨codings, true, codings.getLast? == some .chunked⟩

/-! ## Content codings -/

def maxContentCodings : ℕ := 2

def parseCoding (token : Bytes) : Except NTSTATUS HttpCoding :=
  let token := trimOptionalWhitespace token
  if token = [] then .error statusInvalidNetworkResponse
  else if textEqualsIgnoreCase token (text "identity") then .ok .identity
  else if textEqualsIgnoreCase token (text "gzip") then .ok .gzip
  else if textEqualsIgnoreCase token (text "deflate") then .ok .deflate
  else if textEqualsIgnoreCase token (text "br") then .ok .brotli
  else if textEqualsIgnoreCase token (text "compress") ∨
      textEqualsIgnoreCase token (text "x-compress") then .ok .compress
  else .error statusNotSupported

/-- `AppendCodings` over the members of a value; a comma at its end is refused
    before the number of codings is looked at. -/
def appendCodingsLoop : List Bytes → List HttpCoding → Except NTSTATUS (List HttpCoding)
  | [], codings => .ok codings
  | member :: members, codings =>
    if codings.length ≥ maxContentCodings then .error statusNotSupported
    else
      match parseCoding member with
      | .error status => .error status
      | .ok coding =>
        if members = [[]] then .error statusInvalidNetworkResponse
        else appendCodingsLoop members (codings ++ [coding])

def appendCodings (codings : List HttpCoding) (value : Bytes) :
    Except NTSTATUS (List HttpCoding) :=
  appendCodingsLoop (splitAtCommas value) codings

/-- `HttpContentEncoding::Decode`. -/
def contentEncodingDecode [DecodedSizeCheck] (codecs : ExternalCodecs) (headers : List HttpHeader)
    (body : Body) (buffers : HttpCodingDecodeBuffers) : Except NTSTATUS Body :=
  if body.location = .null ∧ body.octets ≠ [] then .error statusInvalidParameter
  else do
    let codings ← (fieldValues headers (text "Content-Encoding")).foldlM appendCodings []
    if codings = [] ∨ body.octets = [] then return body.orNull
    else return (← decodeChainReverse codecs codings body buffers).1

/-! ## Transfer decoding -/

inductive HttpBodyKind where
  | none
  | contentLength
  | chunked
  | closeDelimited
deriving DecidableEq

/-- `HttpTransferDecodeResult`, with the trailer count and the trailers stored. -/
structure HttpTransferDecodeResult where
  body : Body
  bytesConsumed : ℕ
  bodyKind : HttpBodyKind
  trailerCount : ℕ := 0
  trailers : List HttpHeader := []
deriving DecidableEq

/-- The local variables of `DecodeResponseBody`. -/
structure TransferState where
  current : Body
  outerBytesConsumed : ℕ
  transformed : Bool := false
  trailerCount : ℕ := 0
  trailers : List HttpHeader := []

def transferCodingToHttpCoding : HttpTransferCodingKind → Option HttpCoding
  | .gzip => some .gzip
  | .deflate => some .deflate
  | .compress => some .compress
  | .chunked => none

/-- A turn of `DecodeResponseBody` on a chunked coding; `outermost` if it is the
    last coding of the list. -/
def chunkedStep (buffers : HttpCodingDecodeBuffers) (trailerTarget : OutBuffer) (outermost : Bool)
    (st : TransferState) : Except NTSTATUS TransferState :=
  let (location, destination) := selectDestination st.current.location buffers
  if st.current.location = .null then .error statusInvalidParameter
  else
    match decodeChunkedBodyWithTrailers st.current.octets destination
        (if outermost then trailerTarget else {}) with
    | .error status => .error status
    | .ok r =>
      let st' := { st with current := Body.orNull ⟨location, r.body⟩, transformed := true }
      if outermost then
        .ok { st' with
          outerBytesConsumed := r.bytesConsumed
          trailerCount := r.trailerCount
          trailers := r.trailers }
      else if r.bytesConsumed ≠ st.current.octets.length then
        .error statusInvalidNetworkResponse
      else .ok st'

/-- A turn of `DecodeResponseBody` on another coding (`DecodeOneTransferCoding`). -/
def codingStep [DecodedSizeCheck] (codecs : ExternalCodecs) (buffers : HttpCodingDecodeBuffers)
    (coding : HttpCoding) (st : TransferState) : Except NTSTATUS TransferState := do
  let (decoded, codingTransformed) ← decodeChainReverse codecs [coding] st.current buffers
  return { st with current := decoded.orNull, transformed := st.transformed || codingTransformed }

/-- A turn of the loop of `DecodeResponseBody`. -/
def transferStep [DecodedSizeCheck] (codecs : ExternalCodecs) (buffers : HttpCodingDecodeBuffers)
    (trailerTarget : OutBuffer) (outermost : Bool) (coding : HttpTransferCodingKind)
    (st : TransferState) : Except NTSTATUS TransferState :=
  match transferCodingToHttpCoding coding with
  | none => chunkedStep buffers trailerTarget outermost st
  | some coding => codingStep codecs buffers coding st

/-- The loop of `DecodeResponseBody` over the codings, last first. -/
def transferLoop [DecodedSizeCheck] (codecs : ExternalCodecs) (buffers : HttpCodingDecodeBuffers)
    (trailerTarget : OutBuffer) :
    List HttpTransferCodingKind → TransferState → Except NTSTATUS TransferState
  | [], st => .ok st
  | outer :: inner, st => do
    let st ← transferStep codecs buffers trailerTarget true outer st
    inner.foldlM (fun st coding => transferStep codecs buffers trailerTarget false coding st) st

/-- The end of `DecodeResponseBody`. -/
def transferResult (buffers : HttpCodingDecodeBuffers) (bodyKind : HttpBodyKind)
    (st : TransferState) : Except NTSTATUS HttpTransferDecodeResult := do
  let current ← moveToDecodedBody buffers st.current st.transformed
  return ⟨current.orNull, st.outerBytesConsumed, bodyKind, st.trailerCount, st.trailers⟩

/-- `HttpTransferCoding::DecodeResponseBody`; the wire pointer is not null. -/
def decodeResponseBody [DecodedSizeCheck] (codecs : ExternalCodecs) (info : HttpTransferCodingInfo)
    (messageCompleteOnConnectionClose : Bool) (buffers : HttpCodingDecodeBuffers)
    (trailerTarget : OutBuffer) (wireBody : Bytes) : Except NTSTATUS HttpTransferDecodeResult :=
  let closeKind := if wireBody = [] then HttpBodyKind.none else HttpBodyKind.closeDelimited
  if ¬ info.hasTransferEncoding ∨ info.codings = [] then
    .ok ⟨Body.orNull ⟨.wire, wireBody⟩, wireBody.length, closeKind, 0, []⟩
  else if ¬ info.finalCodingIsChunked ∧ ¬ messageCompleteOnConnectionClose then
    .error statusMoreProcessingRequired
  else do
    let st ← transferLoop codecs buffers trailerTarget info.codings.reverse
      ⟨⟨.wire, wireBody⟩, if info.finalCodingIsChunked then 0 else wireBody.length, false, 0, []⟩
    transferResult buffers (if info.finalCodingIsChunked then .chunked else closeKind) st

/-! ## Growing input -/

section Growing

variable {codecs : ExternalCodecs} {buffers : HttpCodingDecodeBuffers} {trailerTarget : OutBuffer}

def TransferState.ofChunked (buffers : HttpCodingDecodeBuffers) (r : ChunkedResult) :
    TransferState :=
  ⟨Body.orNull ⟨(selectDestination .wire buffers).1, r.body⟩, r.bytesConsumed, true,
    r.trailerCount, r.trailers⟩

theorem transferStep_chunked (wireBody : Bytes) (consumed : ℕ) :
    transferStep codecs buffers trailerTarget true .chunked
        ⟨⟨.wire, wireBody⟩, consumed, false, 0, []⟩ =
      (decodeChunkedBodyWithTrailers wireBody (selectDestination .wire buffers).2 trailerTarget >>=
        fun r => .ok (TransferState.ofChunked buffers r)) := by
  simp only [transferStep, transferCodingToHttpCoding, chunkedStep, if_true, reduceCtorEq, if_false]
  cases decodeChunkedBodyWithTrailers wireBody (selectDestination .wire buffers).2 trailerTarget
  all_goals rfl

variable {r : HttpTransferDecodeResult} {st st' : TransferState}

theorem codingStep_consumed {coding : HttpCoding}
    (h : codingStep codecs buffers coding st = .ok st') :
    st'.outerBytesConsumed = st.outerBytesConsumed := by
  obtain ⟨r, -, h⟩ := bind_eq_ok h
  obtain rfl := Except.ok.inj h
  rfl

theorem transferStep_consumed {coding : HttpTransferCodingKind}
    (h : transferStep codecs buffers trailerTarget false coding st = .ok st') :
    st'.outerBytesConsumed = st.outerBytesConsumed := by
  unfold transferStep at h
  cases hc : transferCodingToHttpCoding coding with
  | some coding => rw [hc] at h; exact codingStep_consumed h
  | none =>
    rw [hc] at h
    simp only [chunkedStep] at h
    split at h
    · cases h
    · split at h
      · cases h
      · simp only [Bool.false_eq_true, if_false] at h
        split at h
        · cases h
        · obtain rfl := Except.ok.inj h
          rfl

theorem foldlM_transferStep_consumed : ∀ {codings : List HttpTransferCodingKind}
    {st st' : TransferState},
    codings.foldlM (fun st coding => transferStep codecs buffers trailerTarget false coding st) st =
      .ok st' → st'.outerBytesConsumed = st.outerBytesConsumed
  | [], _, _, h => by obtain rfl := Except.ok.inj h; rfl
  | coding :: codings, st, st', h => by
    rw [List.foldlM_cons] at h
    obtain ⟨st₁, hs, h⟩ := bind_eq_ok h
    exact (foldlM_transferStep_consumed h).trans (transferStep_consumed hs)

theorem transferResult_consumed {kind : HttpBodyKind} (h : transferResult buffers kind st = .ok r) :
    r.bytesConsumed = st.outerBytesConsumed := by
  obtain ⟨current, -, h⟩ := bind_eq_ok h
  obtain rfl := Except.ok.inj h
  rfl

/-- The codings inside the outermost chunked coding, and the end. -/
def decodeInner (codecs : ExternalCodecs) (buffers : HttpCodingDecodeBuffers)
    (trailerTarget : OutBuffer) (inner : List HttpTransferCodingKind) (r : ChunkedResult) :
    Except NTSTATUS HttpTransferDecodeResult :=
  inner.foldlM (fun st coding => transferStep codecs buffers trailerTarget false coding st)
    (TransferState.ofChunked buffers r) >>= transferResult buffers .chunked

/-- What `HttpTransferCodingInfo.parse` says about a message with codings. -/
structure HttpTransferCodingInfo.Valid (info : HttpTransferCodingInfo) : Prop where
  nonempty : info.codings ≠ []
  final : info.finalCodingIsChunked = (info.codings.getLast? == some .chunked)

theorem HttpTransferCodingInfo.parse_valid {headers : List HttpHeader}
    {info : HttpTransferCodingInfo} (h : HttpTransferCodingInfo.parse headers = .ok info)
    (he : info.hasTransferEncoding = true) : info.Valid := by
  obtain ⟨codings, -, h⟩ := bind_eq_ok h
  split_ifs at h with h1 h2
  · obtain rfl := Except.ok.inj h
    cases he
  · obtain rfl := Except.ok.inj h
    exact ⟨h2, rfl⟩

variable {info : HttpTransferCodingInfo}

/-- With a chunked coding outermost, the wire octets are read by it alone. -/
theorem decodeResponseBody_chunked (he : info.hasTransferEncoding = true) (hv : info.Valid)
    (hf : info.finalCodingIsChunked = true) (close : Bool) :
    ∃ inner, ∀ wireBody, decodeResponseBody codecs info close buffers trailerTarget wireBody =
      (decodeChunkedBodyWithTrailers wireBody (selectDestination .wire buffers).2 trailerTarget >>=
        decodeInner codecs buffers trailerTarget inner) := by
  have hlast : info.codings.getLast? = some .chunked := by simpa [hf] using hv.final.symm
  have hrev : info.codings.reverse = .chunked :: info.codings.reverse.tail := by
    rw [List.getLast?_eq_head?_reverse] at hlast
    cases hr : info.codings.reverse with
    | nil => simp [hr] at hlast
    | cons c cs => simpa [hr] using hlast
  refine ⟨info.codings.reverse.tail, fun wireBody => ?_⟩
  unfold decodeResponseBody
  rw [hrev]
  simp only [he, hf, hv.nonempty, not_true_eq_false, or_self, false_and, if_false, if_true,
    transferLoop, transferStep_chunked, List.tail_cons]
  cases decodeChunkedBodyWithTrailers wireBody (selectDestination .wire buffers).2 trailerTarget
  all_goals rfl

theorem decodeResponseBody_stable (he : info.hasTransferEncoding = true) (hv : info.Valid) :
    Stable statusMoreProcessingRequired fun wireBody =>
      decodeResponseBody codecs info false buffers trailerTarget wireBody := by
  by_cases hf : info.finalCodingIsChunked = true
  · obtain ⟨inner, hinner⟩ := @decodeResponseBody_chunked codecs buffers trailerTarget info
      he hv hf false
    simp only [hinner]
    exact (decodeChunked_stable _ _).bind fun r => Stable.const _
  · intro p s h
    simp [decodeResponseBody, he, hv.nonempty, hf] at h

theorem decodeResponseBody_consumed_le (he : info.hasTransferEncoding = true) (hv : info.Valid)
    {wireBody : Bytes}
    (h : decodeResponseBody codecs info false buffers trailerTarget wireBody = .ok r) :
    r.bytesConsumed ≤ wireBody.length := by
  by_cases hf : info.finalCodingIsChunked = true
  · obtain ⟨inner, hinner⟩ := @decodeResponseBody_chunked codecs buffers trailerTarget info
      he hv hf false
    rw [hinner] at h
    obtain ⟨c, hd, h⟩ := bind_eq_ok h
    obtain ⟨st, hl, h⟩ := bind_eq_ok h
    rw [transferResult_consumed h, foldlM_transferStep_consumed hl]
    exact decodeChunked_consumed_le hd
  · simp [decodeResponseBody, he, hv.nonempty, hf] at h

end Growing

end KernelHttp.Http1
