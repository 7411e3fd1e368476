/-
  The HTTP/2 connection object (`Http2Connection.h`, `Http2Connection.cpp`): its state, the table of
  active streams and the transport.

  `Http2World` is the object with what the peer and the transport will do, and with a record of what
  happened.
-/
import KernelHttp.Hpack.Encoder
import KernelHttp.Http2.Stream

namespace KernelHttp.Http2

/-! ## State -/

/-- `Http2ResponseFrameState`.  The fields the source points to in the caller's
    memory are here: `responseHeaders`, `statusCode`, `responseBodyLength`.
    `sinkAnswers` are the answers of the coming calls of the body sink (success
    when used up), `sinkCalls` the octets of the calls made. -/
structure Http2ResponseFrameState where
  streamClosed : Bool := false
  terminalResponseReceived : Bool := false
  responseHeadersReceived : Bool := false
  responseDataReceived : Bool := false
  responseContentLength : Option ℕ := none
  requestForbidsResponseBody : Bool := false
  responseBodyForbidden : Bool := false
  tunnelMode : Bool := false
  expectingContinuation : Bool := false
  pendingHeaderEndStream : Bool := false
  continuationStreamId : ℕ := 0
  continuationFrames : ℕ := 0
  emptyContinuationFrames : ℕ := 0
  responseHeaderBlockCapacity : ℕ := 0
  responseHeaderBlockLen : ℕ := 0
  responseHeaderCapacity : ℕ := 0
  responseHeaders : List HttpHeader := []
  statusCode : ℕ := 0
  nameValueCapacity : ℕ := 0
  bodyLength : ℕ := 0
  responseBodyLength : ℕ := 0
  sinkAnswers : List NTSTATUS := []
  sinkCalls : List Bytes := []
deriving DecidableEq

structure Http2ActiveStream where
  inUse : Bool := false
  stream : Http2Stream := {}
  responseState : Http2ResponseFrameState := {}
deriving DecidableEq

/-- `KH_HARD_MAX_H2_CONCURRENT_STREAMS_LOCAL`, the number of slots. -/
def maxConcurrentStreamsLocal : ℕ := 100

/-- `Http2Connection` after `Initialize`.  `sendBuffer` are the frames in front of
    `sendOffset` in `sendBuffer_` (none when no function sends), `responseHeaderBlock`
    the octets of the buffer all streams collect their header blocks in. -/
structure Http2Connection where
  localSettings : Http2Settings := {}
  peerSettings : Http2Settings := {}
  nextStreamId : ℕ := 1
  connectionSendWindow : ℤ := http2InitialWindowSize
  connectionRecvWindow : ℤ := http2InitialWindowSize
  connectionRecvConsumed : ℕ := 0
  connectionBytesRead : ℕ := 0
  connectionFramesRead : ℕ := 0
  connectionControlSignals : ℕ := 0
  goAwaySent : Bool := false
  goAwayReceived : Bool := false
  goAwayLastStreamId : ℕ := 0
  settingsAckReceived : Bool := false
  readFrameErrorCode : Http2ErrorCode := .noError
  framePayloadCapacity : ℕ := 32768
  headerBlockCapacity : ℕ := 32 * 1024
  encoder : HpackEncoder := {}
  decoder : HpackDecoder := {}
  sendBuffer : List Http2Frame := []
  responseHeaderBlock : Bytes := []
  decodedHeaderScratchCapacity : ℕ := 0
  activeStreams : List Http2ActiveStream := List.replicate maxConcurrentStreamsLocal {}
deriving DecidableEq

/-- Who reads a frame: `DispatchFrame`, the reader of a single stream that is no
    slot, or `ReceiveStreamData` with the slot of its tunnel. -/
inductive Http2Reader where
  | dispatch
  | single (a : Http2ActiveStream)
  | tunnel (streamId slot bufferCapacity : ℕ)
deriving DecidableEq

/-- What happened on a connection. -/
inductive Http2Event where
  | sent (frames : List Http2Frame) (status : NTSTATUS)
  | received (frame : Http2Frame) (reader : Http2Reader) (conn : Http2Connection)
deriving DecidableEq

/-- A connection and its surroundings. -/
structure Http2World where
  conn : Http2Connection
  incoming : List (Except NTSTATUS UInt8) := []
  sendAnswers : List NTSTATUS := []
  events : List Http2Event := []

/-- The answer of a scripted call; success when the script is used up. -/
def nextAnswer (answers : List NTSTATUS) : NTSTATUS := answers.headD statusSuccess

/-! ## Sending -/

def sendRaw (w : Http2World) (frames : List Http2Frame) : NTSTATUS × Http2World :=
  let status := nextAnswer w.sendAnswers
  (status, { w with
    sendAnswers := w.sendAnswers.tail
    events := w.events ++ [.sent frames status] })

/-- `SendRaw(sendBuf, sendOffset); sendOffset = 0`.  A failure ends the function
    that sends, and its local `sendOffset` with it. -/
def flushSendBuffer (w : Http2World) : NTSTATUS × Http2World :=
  let (status, w') := sendRaw w w.conn.sendBuffer
  (status, { w' with conn := { w'.conn with sendBuffer := [] } })

def sendGoAway (w : Http2World) (errorCode : Http2ErrorCode) : NTSTATUS × Http2World :=
  if w.conn.goAwaySent then (statusSuccess, w)
  else
    let lastStreamId := if w.conn.nextStreamId > 2 then w.conn.nextStreamId - 2 else 0
    let (status, w) := sendRaw w [goAwayFrame lastStreamId errorCode.code]
    (status, if ntSuccess status then { w with conn := { w.conn with goAwaySent := true } } else w)

def sendRstStream (w : Http2World) (streamId : ℕ) (errorCode : Http2ErrorCode) :
    NTSTATUS × Http2World :=
  match encodeRstStream streamId errorCode.code with
  | .error status => (status, w)
  | .ok frame => sendRaw w [frame]

/-! ## Reading -/

/-- The status of a call of `Receive` without octets: a failure, or success with
    nothing received, which means the peer has closed. -/
def receiveFailure (status : NTSTATUS) : NTSTATUS :=
  if ntSuccess status then statusConnectionDisconnected else status

/-- `ReadExact`.  A transport without octets left has been closed by the peer. -/
def readExact : ℕ → List (Except NTSTATUS UInt8) →
    Except NTSTATUS Bytes × List (Except NTSTATUS UInt8)
  | 0, incoming => (.ok [], incoming)
  | _ + 1, [] => (.error statusConnectionDisconnected, [])
  | _ + 1, .error status :: incoming => (.error (receiveFailure status), incoming)
  | n + 1, .ok octet :: incoming =>
    match readExact n incoming with
    | (.ok octets, incoming) => (.ok (octet :: octets), incoming)
    | (.error status, incoming) => (.error status, incoming)

/-- A GOAWAY for a malformed frame, or when SETTINGS are not acknowledged in time. -/
def handleReadFrameFailure (w : Http2World) (status : NTSTATUS) : NTSTATUS × Http2World :=
  if status = statusInvalidNetworkResponse ∧ w.conn.readFrameErrorCode ≠ .noError then
    (status, (sendGoAway w w.conn.readFrameErrorCode).2)
  else if status = statusIoTimeout ∧ ¬ w.conn.settingsAckReceived then
    (status, (sendGoAway w .settingsTimeout).2)
  else (status, w)

/-- `KH_HARD_MAX_CONNECTION_FRAMES`. -/
def maxConnectionFrames : ℕ := 2 ^ 20

/-- `RecordReceivedFrame`; `KH_HARD_MAX_CONNECTION_BYTES` is 0, which sets no bound. -/
def recordReceivedFrame (c : Http2Connection) (length : ℕ) : NTSTATUS × Http2Connection :=
  if c.connectionFramesRead ≥ maxConnectionFrames then
    (statusInvalidNetworkResponse, { c with readFrameErrorCode := .enhanceYourCalm })
  else
    (statusSuccess, { c with
      connectionFramesRead := c.connectionFramesRead + 1
      connectionBytesRead := c.connectionBytesRead + (http2FrameHeaderLength + length) })

/-- The header part of `ReadFrame` and of the loop of `ReceiveResponse`. -/
def readFrameHeader (w : Http2World) : Except NTSTATUS Http2FrameHeader × Http2World :=
  let w := { w with conn := { w.conn with readFrameErrorCode := .noError } }
  match readExact http2FrameHeaderLength w.incoming with
  | (.error status, incoming) => (.error status, { w with incoming })
  | (.ok octets, incoming) =>
    let w := { w with incoming }
    let header := decodeFrameHeader octets
    if header.length > w.conn.localSettings.maxFrameSize then
      (.error statusInvalidNetworkResponse,
        { w with conn := { w.conn with readFrameErrorCode := .frameSizeError } })
    else if header.length > w.conn.framePayloadCapacity then (.error statusBufferTooSmall, w)
    else (.ok header, w)

/-- A frame was read: it is recorded with its reader and the object as it is now. -/
def receiveFrame (w : Http2World) (reader : Http2Reader) (frame : Http2Frame) : Http2World :=
  { w with events := w.events ++ [.received frame reader w.conn] }

/-- `ReadFrame`, which counts the frame before it reads the payload. -/
def readFrame (w : Http2World) (reader : Http2Reader) : Except NTSTATUS Http2Frame × Http2World :=
  match readFrameHeader w with
  | (.error status, w) => (.error status, w)
  | (.ok header, w) =>
    match recordReceivedFrame w.conn header.length with
    | (status, conn) =>
      let w := { w with conn }
      if ¬ ntSuccess status then (.error status, w)
      else
        match readExact header.length w.incoming with
        | (.error status, incoming) => (.error status, { w with incoming })
        | (.ok payload, incoming) =>
          (.ok (header.toFrame payload),
            receiveFrame { w with incoming } reader (header.toFrame payload))

/-! ## Active streams -/

namespace Http2Connection

def slot (c : Http2Connection) (i : ℕ) : Http2ActiveStream := c.activeStreams.getD i {}

def setSlot (c : Http2Connection) (i : ℕ) (a : Http2ActiveStream) : Http2Connection :=
  { c with activeStreams := c.activeStreams.set i a }

/-- `FindActiveStream`: the index of the slot. -/
def findActiveStream (c : Http2Connection) (streamId : ℕ) : Option ℕ :=
  if streamId = 0 then none
  else c.activeStreams.findIdx? fun a => a.inUse && a.stream.streamId == streamId

/-- `FindContinuationStream`: the slot. -/
def findContinuationStream (c : Http2Connection) : Option Http2ActiveStream :=
  c.activeStreams.find? fun a => a.inUse && a.responseState.expectingContinuation

def maxConcurrentStreams (c : Http2Connection) : ℕ :=
  min (min c.peerSettings.maxConcurrentStreams maxConcurrentStreamsLocal)
    (if c.activeStreams = [] then maxConcurrentStreamsLocal else c.activeStreams.length)

/-- The number of slots in use. -/
def activeCount (c : Http2Connection) : ℕ := c.activeStreams.countP (·.inUse)

/-- `ReserveActiveStream`: the index of the slot taken. -/
def reserveActiveStream (c : Http2Connection) : Option ℕ :=
  if c.activeCount ≥ c.maxConcurrentStreams then none
  else c.activeStreams.findIdx? fun a => !a.inUse

def releaseActiveStream (c : Http2Connection) (streamId : ℕ) : Http2Connection :=
  match c.findActiveStream streamId with
  | none => c
  | some i => c.setSlot i {}

/-- The loop of `AdjustActiveStreamRemoteWindows`; it stops at the first stream
    that refuses, the streams before it stay adjusted. -/
def adjustLoop (delta : ℤ) : List Http2ActiveStream → NTSTATUS × List Http2ActiveStream
  | [] => (statusSuccess, [])
  | a :: rest =>
    if ¬ a.inUse then
      let (status, rest) := adjustLoop delta rest
      (status, a :: rest)
    else
      let (status, stream) := a.stream.adjustRemoteWindow delta
      if ¬ ntSuccess status then (status, a :: rest)
      else
        let (status, rest) := adjustLoop delta rest
        (status, { a with stream } :: rest)

/-- A new INITIAL_WINDOW_SIZE moves every stream's window. -/
def adjustActiveStreamRemoteWindows (c : Http2Connection) (delta : ℤ) :
    NTSTATUS × Http2Connection :=
  if delta = 0 then (statusSuccess, c)
  else
    let (status, activeStreams) := adjustLoop delta c.activeStreams
    (status, { c with activeStreams })

end Http2Connection

end KernelHttp.Http2
