/-
  The frames of a response (`Http2Connection::ProcessResponseFrame`, RFC 9113 Section 8.1).

  A stream is passed with its slot and returned changed, in the place of a reference.
-/
import KernelHttp.Http2.Connection

namespace KernelHttp.Http2

/-! ## Fields -/

def isValidHttp2FieldName (name : Bytes) : Bool :=
  let rest := match name with
    | c :: rest => if c.toNat = 58 then rest else name
    | [] => []
  rest != [] && rest.all fun c =>
    !(c.toNat ≤ 0x20 || c.toNat ≥ 0x7f || c.toNat == 58 || isUpperAscii c)

def isValidHttp2FieldValue (value : Bytes) : Bool :=
  value.all fun c => !(c.toNat == 0 || c.toNat == 13 || c.toNat == 10)

/-- The name starts with a colon. -/
def isPseudoHeader (h : HttpHeader) : Bool :=
  match h.name with
  | c :: _ => c.toNat == 58
  | [] => false

def isConnectionSpecificHeaderName (name : Bytes) : Bool :=
  [text "connection", text "keep-alive", text "proxy-connection", text "transfer-encoding",
    text "upgrade"].contains name

/-- The decimal digits of a text, as the number they write. -/
def decimalDigits (value : Bytes) : Option ℕ :=
  if value.all fun c => 48 ≤ c.toNat && c.toNat ≤ 57 then
    some (value.foldl (fun n c => n * 10 + (c.toNat - 48)) 0)
  else none

/-- `ParseStatusCode`; 0 is no status code. -/
def parseStatusCode (value : Bytes) : ℕ :=
  if value.length ≠ 3 then 0 else (decimalDigits value).getD 0

/-- `ParseUnsignedDecimal`: a number of 64 bits. -/
def parseUnsignedDecimal (value : Bytes) : Option ℕ :=
  if value = [] then none
  else (decimalDigits value).bind fun n => if n < 2 ^ 64 then some n else none

/-- The locals of `ValidateResponseHeaderBlock`; `status` is 0 before `:status`. -/
structure HeaderBlockScan where
  regularHeaderSeen : Bool := false
  status : ℕ := 0
  contentLength : Option ℕ := none
deriving DecidableEq

/-- One turn of the loop of `ValidateResponseHeaderBlock`. -/
def scanResponseHeader (trailers : Bool) (s : HeaderBlockScan) (h : HttpHeader) :
    Except NTSTATUS HeaderBlockScan :=
  if ¬ isValidHttp2FieldName h.name ∨ ¬ isValidHttp2FieldValue h.value then
    .error statusInvalidNetworkResponse
  else if isPseudoHeader h then
    if trailers ∨ s.regularHeaderSeen ∨ h.name ≠ text ":status" ∨ s.status ≠ 0 ∨
        parseStatusCode h.value = 0 then .error statusInvalidNetworkResponse
    else .ok { s with status := parseStatusCode h.value }
  else if isConnectionSpecificHeaderName h.name then .error statusInvalidNetworkResponse
  else if h.name = text "te" ∧ ¬ textEqualsIgnoreCase h.value (text "trailers") then
    .error statusInvalidNetworkResponse
  else if ¬ trailers ∧ h.name = text "content-length" then
    match parseUnsignedDecimal h.value with
    | none => .error statusInvalidNetworkResponse
    | some n =>
      if s.contentLength.isSome ∧ s.contentLength ≠ some n then
        .error statusInvalidNetworkResponse
      else .ok { s with regularHeaderSeen := true, contentLength := some n }
  else .ok { s with regularHeaderSeen := true }

/-- `ValidateResponseHeaderBlock`: the status code and the content length. -/
def validateResponseHeaderBlock (headers : List HttpHeader) (trailers : Bool) :
    Except NTSTATUS (ℕ × Option ℕ) := do
  let s ← headers.foldlM (scanResponseHeader trailers) {}
  if ¬ trailers ∧ s.status = 0 then .error statusInvalidNetworkResponse
  else return (s.status, s.contentLength)

def copyRegularResponseHeaders (headers : List HttpHeader) (capacity : ℕ) :
    Except NTSTATUS (List HttpHeader) :=
  let regular := headers.filter fun h => !isPseudoHeader h
  if regular.length > capacity then .error statusBufferTooSmall else .ok regular

def statusForbidsResponseBody (statusCode : ℕ) : Bool :=
  (100 ≤ statusCode && statusCode < 200) || statusCode == 204 || statusCode == 304

/-- `RequestForbidsResponseBody`: a HEAD request. -/
def requestForbidsResponseBody (headers : List HttpHeader) : Bool :=
  headers.any fun h => h.name == text ":method" && h.value == text "HEAD"

/-! ## Refusals -/

/-- What `ProcessResponseFrame` leaves: its status, the surroundings, the slot. -/
abbrev Processed := NTSTATUS × Http2World × Http2ActiveStream

def refuseConnection (w : Http2World) (a : Http2ActiveStream) (errorCode : Http2ErrorCode)
    (status : NTSTATUS) : Processed :=
  (status, (sendGoAway w errorCode).2, a)

def refuseStream (w : Http2World) (a : Http2ActiveStream) (f : Http2Frame)
    (errorCode : Http2ErrorCode) (status : NTSTATUS) : Processed :=
  (status, (sendRstStream w f.streamId errorCode).2, a)

/-! ## Header blocks -/

def http2MaxContinuationFrames : ℕ := 64
def http2MaxEmptyContinuationFrames : ℕ := 4

/-- The checks on CONTINUATION in front of the switch: whether the frame may
    stand here, and the counters. -/
def continuationGate (st : Http2ResponseFrameState) (f : Http2Frame) :
    Bool × Http2ResponseFrameState :=
  if f.type = .continuation then
    if ¬ st.expectingContinuation ∨ f.streamId ≠ st.continuationStreamId then (false, st)
    else
      let st := { st with continuationFrames := st.continuationFrames + 1 }
      if st.continuationFrames > http2MaxContinuationFrames then (false, st)
      else if f.payload = [] then
        let st := { st with emptyContinuationFrames := st.emptyContinuationFrames + 1 }
        (st.emptyContinuationFrames ≤ http2MaxEmptyContinuationFrames, st)
      else (true, { st with emptyContinuationFrames := 0 })
  else (!st.expectingContinuation, st)

/-- `MemCopy(block + offset, content)`. -/
def writeAt (block : Bytes) (offset : ℕ) (content : Bytes) : Bytes :=
  block.take offset ++ content ++ block.drop (offset + content.length)

/-- The limits of `Decode` for a block of a stream. -/
def decodeLimits (c : Http2Connection) (st : Http2ResponseFrameState) : DecodeLimits :=
  if st.responseHeadersReceived then ⟨16, c.headerBlockCapacity, c.localSettings.maxHeaderListSize⟩
  else ⟨c.decodedHeaderScratchCapacity, st.nameValueCapacity, c.localSettings.maxHeaderListSize⟩

/-- The end of a header block that ends the stream or not. -/
def closeAfterHeaders (w : Http2World) (a : Http2ActiveStream) (f : Http2Frame) : Processed :=
  let st := { a.responseState with responseHeaderBlockLen := 0 }
  if st.pendingHeaderEndStream then
    if st.responseContentLength.isSome ∧ st.responseContentLength ≠ some st.bodyLength then
      refuseStream w { a with responseState := st } f .protocolError statusInvalidNetworkResponse
    else
      (statusSuccess, w, { a with
        responseState := { st with streamClosed := true, pendingHeaderEndStream := false } })
  else (statusSuccess, w, { a with responseState := { st with pendingHeaderEndStream := false } })

def acceptFinalHeaders (w : Http2World) (a : Http2ActiveStream) (f : Http2Frame)
    (headers : List HttpHeader) (statusCode : ℕ) (contentLength : Option ℕ) : Processed :=
  let st := a.responseState
  match copyRegularResponseHeaders headers st.responseHeaderCapacity with
  | .error status => (status, w, a)
  | .ok responseHeaders =>
    let forbidden := st.requestForbidsResponseBody || statusForbidsResponseBody statusCode
    let st := { st with
      responseHeaders, statusCode
      responseContentLength := contentLength
      responseBodyForbidden := forbidden }
    if forbidden ∧ contentLength.isSome ∧ contentLength ≠ some 0 then
      refuseStream w { a with responseState := st } f .protocolError statusInvalidNetworkResponse
    else
      closeAfterHeaders w
        { a with responseState := { st with
            responseHeadersReceived := true
            terminalResponseReceived := true } } f

/-- Interim fields are dropped, final ones are stored. -/
def acceptHeaderBlock (w : Http2World) (a : Http2ActiveStream) (f : Http2Frame)
    (headers : List HttpHeader) : Processed :=
  let st := a.responseState
  match validateResponseHeaderBlock headers st.responseHeadersReceived with
  | .error status => refuseStream w a f .protocolError status
  | .ok (statusCode, contentLength) =>
    if st.responseHeadersReceived then closeAfterHeaders w a f
    else if 100 ≤ statusCode ∧ statusCode < 200 then
      if statusCode = 101 ∨ st.pendingHeaderEndStream then
        refuseStream w a f .protocolError statusInvalidNetworkResponse
      else
        (statusSuccess, w, { a with
          responseState := { st with responseHeaderBlockLen := 0, pendingHeaderEndStream := false } })
    else acceptFinalHeaders w a f headers statusCode contentLength

def isHpackCompressionFailure (status : NTSTATUS) : Bool :=
  status == statusInvalidNetworkResponse || status == statusIntegerOverflow ||
    status == statusMoreProcessingRequired

def refuseHeaderBlock (w : Http2World) (a : Http2ActiveStream) (status : NTSTATUS) : Processed :=
  if status = statusBufferTooSmall then refuseConnection w a .enhanceYourCalm status
  else if isHpackCompressionFailure status then refuseConnection w a .compressionError status
  else (status, w, a)

/-- Trailers that stand in front of the body or do not end the stream. -/
def misplacedTrailers (st : Http2ResponseFrameState) : Bool :=
  st.responseHeadersReceived && (!st.responseDataReceived || !st.pendingHeaderEndStream)

/-- The block is whole and decoded. -/
def finishHeaderBlock (w : Http2World) (a : Http2ActiveStream) (f : Http2Frame) : Processed :=
  let a := { a with responseState := { a.responseState with
    expectingContinuation := false, continuationStreamId := 0
    continuationFrames := 0, emptyContinuationFrames := 0 } }
  match a.stream.receiveHeaders a.responseState.pendingHeaderEndStream with
  | (status, stream) =>
    let a := { a with stream }
    if ¬ ntSuccess status then refuseStream w a f .protocolError status
    else if misplacedTrailers a.responseState then
      refuseStream w a f .protocolError statusInvalidNetworkResponse
    else
      match w.conn.decoder.decode (decodeLimits w.conn a.responseState)
          (w.conn.responseHeaderBlock.take a.responseState.responseHeaderBlockLen) with
      | (decoded, decoder) =>
        let w := { w with conn := { w.conn with decoder } }
        match decoded with
        | .error status => refuseHeaderBlock w a status
        | .ok headers => acceptHeaderBlock w a f headers

/-- The fragment of a header block goes behind those before it. -/
def storeFragment (w : Http2World) (a : Http2ActiveStream) (f : Http2Frame) (content : Bytes) :
    Processed :=
  let st := a.responseState
  if content.length > st.responseHeaderBlockCapacity ∨
      st.responseHeaderBlockLen > st.responseHeaderBlockCapacity - content.length then
    refuseConnection w a .enhanceYourCalm statusBufferTooSmall
  else
    let w := { w with conn := { w.conn with
      responseHeaderBlock := writeAt w.conn.responseHeaderBlock st.responseHeaderBlockLen content } }
    let st := { st with responseHeaderBlockLen := st.responseHeaderBlockLen + content.length }
    if f.endHeaders then finishHeaderBlock w { a with responseState := st } f
    else if f.type = .headers then
      (statusSuccess, w, { a with responseState := { st with
        expectingContinuation := true, continuationStreamId := f.streamId
        continuationFrames := 0, emptyContinuationFrames := 0 } })
    else (statusSuccess, w, { a with responseState := st })

def headersFragment (f : Http2Frame) : Except NTSTATUS Bytes := do
  stripPriority f.flags (← stripPadding f)

/-- A fragment of a header block, which is decoded when it is whole. -/
def processHeaders (w : Http2World) (a : Http2ActiveStream) (f : Http2Frame) : Processed :=
  if f.type = .headers then
    let a := { a with responseState := { a.responseState with
      pendingHeaderEndStream := f.endStream } }
    match headersFragment f with
    | .error status => (status, w, a)
    | .ok content => storeFragment w a f content
  else storeFragment w a f f.payload

/-! ## Data -/

def windowUpdateThreshold : ℕ := http2InitialWindowSize / 2

/-- The connection part of `SendWindowUpdateIfNeeded`. -/
def updateConnectionWindow (w : Http2World) : NTSTATUS × Http2World :=
  let c := w.conn
  if c.connectionRecvConsumed ≥ windowUpdateThreshold then
    match encodeWindowUpdate 0 c.connectionRecvConsumed with
    | .error status => (status, w)
    | .ok frame =>
      match sendRaw w [frame] with
      | (status, w) =>
        if ¬ ntSuccess status then (status, w)
        else (statusSuccess, { w with conn := { w.conn with
          connectionRecvWindow := c.connectionRecvWindow + c.connectionRecvConsumed
          connectionRecvConsumed := 0 } })
  else (statusSuccess, w)

/-- `SendWindowUpdateIfNeeded`; `stream` is `none` for a null pointer. -/
def sendWindowUpdateIfNeeded (w : Http2World) (stream : Option Http2Stream) (consumed : ℕ) :
    NTSTATUS × Http2World × Option Http2Stream :=
  match updateConnectionWindow w with
  | (status, w) =>
    if ¬ ntSuccess status then (status, w, stream)
    else
      match stream with
      | none => (statusSuccess, w, none)
      | some s =>
        if consumed = 0 then (statusSuccess, w, some s)
        else
          match encodeWindowUpdate s.streamId consumed with
          | .error status => (status, w, some s)
          | .ok frame =>
            match sendRaw w [frame] with
            | (status, w) =>
              if ¬ ntSuccess status then (status, w, some s)
              else
                let (status, s) := s.increaseLocalWindow consumed
                (status, w, some s)

/-- The end of a DATA frame that was passed to the sink. -/
def creditData (w : Http2World) (a : Http2ActiveStream) (f : Http2Frame) : Processed :=
  let w := { w with conn := { w.conn with
    connectionRecvConsumed := w.conn.connectionRecvConsumed + f.payload.length } }
  match sendWindowUpdateIfNeeded w (if f.endStream then none else some a.stream)
      f.payload.length with
  | (status, w, stream) =>
    let a := { a with stream := stream.getD a.stream }
    if ¬ ntSuccess status then (status, w, a)
    else if f.endStream then
      if a.responseState.responseContentLength.isSome ∧
          a.responseState.responseContentLength ≠ some a.responseState.bodyLength then
        refuseStream w a f .protocolError statusInvalidNetworkResponse
      else
        (statusSuccess, w, { a with responseState := { a.responseState with streamClosed := true } })
    else (statusSuccess, w, a)

/-- Hands the data to the sink, within the announced length. -/
def appendData (w : Http2World) (a : Http2ActiveStream) (f : Http2Frame) (content : Bytes) :
    Processed :=
  let st := a.responseState
  if st.bodyLength > maxSizeT - content.length then (statusBufferTooSmall, w, a)
  else if st.responseContentLength.any fun n => st.bodyLength + content.length > n then
    refuseStream w a f .protocolError statusInvalidNetworkResponse
  else
    let status := nextAnswer st.sinkAnswers
    let st := { st with sinkAnswers := st.sinkAnswers.tail, sinkCalls := st.sinkCalls ++ [content] }
    if ¬ ntSuccess status then (status, w, { a with responseState := st })
    else creditData w { a with responseState := { st with
      bodyLength := st.bodyLength + content.length, responseDataReceived := true } } f

def exceedsConnectionWindow (c : Http2Connection) (length : ℕ) : Bool :=
  c.connectionRecvWindow < 0 || length > castSizeT c.connectionRecvWindow

/-- The windows, the padding, and the data. -/
def processData (w : Http2World) (a : Http2ActiveStream) (f : Http2Frame) : Processed :=
  if ¬ a.responseState.responseHeadersReceived then
    refuseStream w a f .protocolError statusInvalidNetworkResponse
  else
    match stripPadding f with
    | .error status => (status, w, a)
    | .ok content =>
      if a.responseState.responseBodyForbidden then
        refuseStream w a f .protocolError statusInvalidNetworkResponse
      else
        match a.stream.receiveData f.payload.length f.endStream with
        | (status, stream) =>
          let a := { a with stream }
          if ¬ ntSuccess status then refuseStream w a f .flowControlError status
          else if exceedsConnectionWindow w.conn f.payload.length then
            refuseConnection w a .flowControlError statusInvalidNetworkResponse
          else
            appendData { w with conn := { w.conn with
              connectionRecvWindow := w.conn.connectionRecvWindow - f.payload.length } } a f content

/-! ## Other frames -/

def processRstStream (w : Http2World) (a : Http2ActiveStream) (f : Http2Frame) : Processed :=
  match decodeRstStreamPayload f.payload with
  | .error status => (status, w, a)
  | .ok errorCode =>
    (if errorCode = Http2ErrorCode.noError.code ∧ a.responseState.terminalResponseReceived then
        statusSuccess else statusConnectionDisconnected,
      w, { a with
        stream := a.stream.reset
        responseState := { a.responseState with streamClosed := true } })

def processWindowUpdate (w : Http2World) (a : Http2ActiveStream) (f : Http2Frame) : Processed :=
  match decodeWindowUpdatePayload f.payload with
  | .error status =>
    refuseStream w a f (if f.payload.length = 4 then .protocolError else .frameSizeError) status
  | .ok increment =>
    match a.stream.increaseRemoteWindow increment with
    | (status, stream) =>
      let a := { a with stream }
      if ¬ ntSuccess status then refuseStream w a f .flowControlError status
      else (statusSuccess, w, a)

def processResponseFrame (w : Http2World) (a : Http2ActiveStream) (f : Http2Frame) : Processed :=
  match continuationGate a.responseState f with
  | (ok, responseState) =>
    let a := { a with responseState }
    if ¬ ok then refuseConnection w a .protocolError statusInvalidNetworkResponse
    else
      match f.type with
      | .headers | .continuation => processHeaders w a f
      | .data => processData w a f
      | .rstStream => processRstStream w a f
      | .windowUpdate => processWindowUpdate w a f
      | _ => (statusSuccess, w, a)

end KernelHttp.Http2
