/-
  Requests, tunnels and whole runs of a connection
  (`Http2Connection::Initialize`, `BeginRequest`, `SendRequestFrames`,
  `SendStreamData`, `ReceiveStreamData`, ...).
-/
import KernelHttp.Http2.Receive

namespace KernelHttp.Http2

open Loop

/-! ## The send buffer -/

def sendBufferCapacity : ℕ := 32768

def outboundPayloadLimit (peerMaxFrameSize : ℕ) : ℕ :=
  min peerMaxFrameSize (sendBufferCapacity - http2FrameHeaderLength)

def sendOffset (frames : List Http2Frame) : ℕ :=
  (frames.map fun f => http2FrameHeaderLength + f.payload.length).sum

/-- Room for a frame in the send buffer; a full buffer is sent. -/
def makeRoom (w : Http2World) (chunkLen : ℕ) : NTSTATUS × Http2World :=
  if http2FrameHeaderLength + chunkLen > sendBufferCapacity then (statusBufferTooSmall, w)
  else if sendOffset w.conn.sendBuffer + http2FrameHeaderLength + chunkLen > sendBufferCapacity then
    flushSendBuffer w
  else (statusSuccess, w)

/-- A frame is written behind those in the send buffer. -/
def queueFrame (w : Http2World) (f : Http2Frame) : Http2World :=
  { w with conn := { w.conn with sendBuffer := w.conn.sendBuffer ++ [f] } }

/-- `sendOffset = 0` at the start of a function that sends, and at its end, where
    the local goes out of scope. -/
def clearSendBuffer (w : Http2World) : Http2World :=
  { w with conn := { w.conn with sendBuffer := [] } }

def endSendBuffer (r : NTSTATUS × Http2World) : NTSTATUS × Http2World :=
  (r.1, clearSendBuffer r.2)

/-- The stream of a slot changes. -/
def setStream (w : Http2World) (i : ℕ) (stream : Http2Stream) : Http2World :=
  { w with conn := w.conn.setSlot i { w.conn.slot i with stream } }

/-! ## SendRequestFrames -/

/-- What stays the same while the frames of a request are sent. -/
structure SendContext where
  slot : ℕ
  streamId : ℕ
  endStream : Bool
  maxPayload : ℕ

/-- One turn of the loop over the header block: `first` before HEADERS, `rest`
    what is not sent yet. -/
def headerBlockTurn (k : SendContext) (s : Http2World × Bool × Bytes) :
    Turn (Http2World × Bool × Bytes) (NTSTATUS × Http2World) :=
  let (w, first, rest) := s
  if rest = [] then .done (statusSuccess, w)
  else
    let chunk := rest.take k.maxPayload
    let lastChunk := decide (rest.length ≤ k.maxPayload)
    match makeRoom w chunk.length with
    | (status, w) =>
      if ¬ ntSuccess status then .done (status, w)
      else
        match if first then encodeHeaders k.streamId chunk k.endStream lastChunk
            else encodeContinuation k.streamId chunk lastChunk with
        | .error status => .done (status, w)
        | .ok frame =>
          let (status, stream) := if first then (w.conn.slot k.slot).stream.sendHeaders k.endStream
            else (statusSuccess, (w.conn.slot k.slot).stream)
          let w := setStream w k.slot stream
          if ¬ ntSuccess status then .done (status, w)
          else .again (queueFrame w frame, false, rest.drop k.maxPayload)

/-- HEADERS and CONTINUATION, cut at the frame size. -/
def sendHeaderBlock (w : Http2World) (k : SendContext) (block : Bytes) : NTSTATUS × Http2World :=
  run (headerBlockTurn k) (fun s => (statusSuccess, s.1)) (block.length + 1) (w, true, block)

def availableWindow (c : Http2Connection) (s : Http2Stream) : ℤ :=
  if c.connectionSendWindow < s.remoteWindow then c.connectionSendWindow else s.remoteWindow

/-- The response came before the body was sent. -/
def responseEnded (a : Http2ActiveStream) : Bool :=
  a.responseState.terminalResponseReceived || a.responseState.streamClosed

/-- A chunk of a body is debited from the windows and queued. -/
def debitData (w : Http2World) (i streamId : ℕ) (chunk : Bytes) (last : Bool) :
    NTSTATUS × Http2World :=
  match encodeData streamId chunk last with
  | .error status => (status, w)
  | .ok frame =>
    match (w.conn.slot i).stream.sendData chunk.length last with
    | (status, stream) =>
      if ¬ ntSuccess status then (status, w)
      else
        let w := queueFrame (setStream w i stream) frame
        (statusSuccess, { w with conn := { w.conn with
          connectionSendWindow := w.conn.connectionSendWindow - chunk.length } })

/-- A chunk of a body goes into the send buffer. -/
def queueData (w : Http2World) (i streamId : ℕ) (chunk : Bytes) (last : Bool) :
    NTSTATUS × Http2World :=
  match makeRoom w chunk.length with
  | (status, w) => if ¬ ntSuccess status then (status, w) else debitData w i streamId chunk last

/-- The windows are used up: what is queued is sent, and a frame is read. -/
def waitForWindow (w : Http2World) : NTSTATUS × Http2World :=
  if w.conn.sendBuffer ≠ [] then
    match flushSendBuffer w with
    | (status, w) => if ¬ ntSuccess status then (status, w) else dispatchNextFrame w
  else dispatchNextFrame w

/-- One DATA frame, or the wait for credit. -/
def bodyTurn (k : SendContext) (s : Http2World × Bytes) :
    Turn (Http2World × Bytes) (NTSTATUS × Http2World) :=
  let (w, rest) := s
  if rest = [] then .done (statusSuccess, w)
  else
    let available := availableWindow w.conn (w.conn.slot k.slot).stream
    if available ≤ 0 then
      match waitForWindow w with
      | (status, w) =>
        if ¬ ntSuccess status then .done (status, w)
        else if responseEnded (w.conn.slot k.slot) then .done (statusSuccess, w)
        else .again (w, rest)
    else if responseEnded (w.conn.slot k.slot) then .done (statusSuccess, w)
    else
      let chunkLen := min (min rest.length k.maxPayload) available.toNat
      match queueData w k.slot k.streamId (rest.take chunkLen) (decide (rest.length ≤ chunkLen)) with
      | (status, w) =>
        if ¬ ntSuccess status then .done (status, w) else .again (w, rest.drop chunkLen)

/-- The loop over the body. -/
def sendBody (w : Http2World) (k : SendContext) (body : Bytes) : NTSTATUS × Http2World :=
  run (bodyTurn k) (fun s => (statusSuccess, s.1)) (w.incoming.length + body.length + 1) (w, body)

/-- The end of `SendRequestFrames`. -/
def finishRequest (w : Http2World) (i : ℕ) : NTSTATUS × Http2World :=
  if responseEnded (w.conn.slot i) then (statusSuccess, w) else flushSendBuffer w

/-- `SendRequestFrames` behind the header block. -/
def sendRequestBody (w : Http2World) (k : SendContext) (body : Bytes) : NTSTATUS × Http2World :=
  if k.endStream then finishRequest w k.slot
  else
    match flushSendBuffer w with
    | (status, w) =>
      if ¬ ntSuccess status then (status, w)
      else
        match sendBody w k body with
        | (status, w) => if ¬ ntSuccess status then (status, w) else finishRequest w k.slot

/-- The header block, then the body within the windows. -/
def sendRequestFrames (w : Http2World) (i : ℕ) (headers : List HttpHeader) (body : Bytes) :
    NTSTATUS × Http2World :=
  match w.conn.encoder.encode headers w.conn.headerBlockCapacity with
  | (encoded, encoder) =>
    let w := { w with conn := { w.conn with encoder } }
    match encoded with
    | .error status => (status, w)
    | .ok block =>
      let a := w.conn.slot i
      let k : SendContext :=
        { slot := i
          streamId := a.stream.streamId
          endStream := !a.responseState.tunnelMode && body.isEmpty
          maxPayload := outboundPayloadLimit w.conn.peerSettings.maxFrameSize }
      endSendBuffer
        (match sendHeaderBlock (clearSendBuffer w) k block with
        | (status, w) => if ¬ ntSuccess status then (status, w) else sendRequestBody w k body)

/-! ## BeginRequest -/

def ensureDecodedHeaderScratch (c : Http2Connection) (capacity : ℕ) : NTSTATUS × Http2Connection :=
  if capacity = maxSizeT then (statusIntegerOverflow, c)
  else (statusSuccess, { c with
    decodedHeaderScratchCapacity := max c.decodedHeaderScratchCapacity (capacity + 1) })

/-- The loop of `ValidateExtendedConnectRequest`: the last `:method` decides. -/
def validateExtendedConnectLoop :
    List HttpHeader → Bool → Bool → Except NTSTATUS (Bool × Bool)
  | [], methodIsConnect, usesExtendedConnect => .ok (methodIsConnect, usesExtendedConnect)
  | h :: headers, methodIsConnect, usesExtendedConnect =>
    if h.name = text ":method" then
      validateExtendedConnectLoop headers (h.value == text "CONNECT") usesExtendedConnect
    else if h.name = text ":protocol" then
      if h.value = [] then .error statusInvalidParameter
      else validateExtendedConnectLoop headers methodIsConnect true
    else validateExtendedConnectLoop headers methodIsConnect usesExtendedConnect

def validateExtendedConnectRequest (headers : List HttpHeader) : Except NTSTATUS Bool := do
  let (methodIsConnect, usesExtendedConnect) ← validateExtendedConnectLoop headers false false
  if usesExtendedConnect ∧ ¬ methodIsConnect then .error statusInvalidParameter
  else return usesExtendedConnect

/-- What the caller of `BeginRequest` provides. -/
structure Http2Request where
  headers : List HttpHeader
  body : Bytes := []
  responseHeaderCapacity : ℕ := 0
  nameValueCapacity : ℕ := 0
  sinkAnswers : List NTSTATUS := []

def initialResponseState (c : Http2Connection) (r : Http2Request) (tunnelMode : Bool) :
    Http2ResponseFrameState :=
  { requestForbidsResponseBody := requestForbidsResponseBody r.headers
    responseBodyForbidden := requestForbidsResponseBody r.headers
    tunnelMode
    responseHeaderBlockCapacity := c.headerBlockCapacity
    responseHeaderCapacity := r.responseHeaderCapacity
    nameValueCapacity := r.nameValueCapacity
    sinkAnswers := r.sinkAnswers }

/-- A slot is taken for the next stream id (`AllocateStreamId`). -/
def openStream (c : Http2Connection) (i : ℕ) (r : Http2Request) (tunnelMode : Bool) :
    Http2Connection :=
  { c with nextStreamId := (c.nextStreamId + 2) % 2 ^ 32 }.setSlot i
    { inUse := true
      stream := .initializeStream c.nextStreamId c.localSettings.initialWindowSize
        c.peerSettings.initialWindowSize
      responseState := initialResponseState c r tunnelMode }

/-- `BeginRequest`: the status, the surroundings and the stream id, 0 if it failed. -/
def beginRequest (w : Http2World) (r : Http2Request) : NTSTATUS × Http2World × ℕ :=
  match ensureDecodedHeaderScratch w.conn r.responseHeaderCapacity with
  | (status, conn) =>
    let w := { w with conn }
    if ¬ ntSuccess status then (status, w, 0)
    else
      match validateExtendedConnectRequest r.headers with
      | .error status => (status, w, 0)
      | .ok usesExtendedConnect =>
        if usesExtendedConnect ∧ w.conn.peerSettings.enableConnectProtocol ≠ 1 then
          (statusNotSupported, w, 0)
        else
          match w.conn.reserveActiveStream with
          | none => (statusInsufficientResources, w, 0)
          | some i =>
            let streamId := w.conn.nextStreamId
            let w := { w with conn := openStream w.conn i r usesExtendedConnect }
            match sendRequestFrames w i r.headers r.body with
            | (status, w) =>
              if ¬ ntSuccess status then
                (status, { w with conn := w.conn.releaseActiveStream streamId }, 0)
              else (statusSuccess, w, streamId)

/-! ## Tunnels -/

/-- One turn of `ReceiveResponseHeaders`, up to the headers or the end of the
    stream; the state holds the slot. -/
def receiveHeadersTurn (streamId : ℕ) (s : Http2World × ℕ) :
    Turn (Http2World × ℕ) (Except NTSTATUS ℕ × Http2World) :=
  let (w, i) := s
  if responseEnded (w.conn.slot i) then .done (.ok i, w)
  else
    match dispatchNextFrame w with
    | (status, w) =>
      if ¬ ntSuccess status then .done (.error status, w)
      else
        match w.conn.findActiveStream streamId with
        | none => .done (.error statusConnectionDisconnected, w)
        | some i => .again (w, i)

/-- The loop of `ReceiveResponseHeaders`: the slot whose headers have come. -/
def awaitResponseHeaders (w : Http2World) (streamId : ℕ) : Except NTSTATUS ℕ × Http2World :=
  match w.conn.findActiveStream streamId with
  | none => (.error statusInvalidParameter, w)
  | some i =>
    if ¬ (w.conn.slot i).responseState.tunnelMode then (.error statusInvalidParameter, w)
    else run (receiveHeadersTurn streamId) (fun s => (.error statusConnectionDisconnected, s.1))
      (w.incoming.length + 1) (w, i)

def receiveResponseHeaders (w : Http2World) (streamId : ℕ) : NTSTATUS × Http2World :=
  match awaitResponseHeaders w streamId with
  | (.error status, w) => (status, w)
  | (.ok i, w) =>
    if (w.conn.slot i).responseState.streamClosed then
      (statusConnectionDisconnected, { w with conn := w.conn.releaseActiveStream streamId })
    else (statusSuccess, { w with conn := w.conn.setSlot i { w.conn.slot i with
      responseState := (w.conn.slot i).responseState.publish } })

def tunnelSlot (c : Http2Connection) (streamId : ℕ) : Option ℕ :=
  (c.findActiveStream streamId).filter fun i =>
    (c.slot i).responseState.tunnelMode && (c.slot i).responseState.terminalResponseReceived

/-- One turn of `SendStreamData`; `started` behind the first frame. -/
def streamDataTurn (k : SendContext) (s : Http2World × Bytes × Bool) :
    Turn (Http2World × Bytes × Bool) (NTSTATUS × Http2World) :=
  let (w, rest, started) := s
  if rest = [] ∧ started then .done (statusSuccess, w)
  else
    let available := availableWindow w.conn (w.conn.slot k.slot).stream
    if available ≤ 0 then .done (statusBufferTooSmall, w)
    else
      let chunkLen := min (min rest.length k.maxPayload) available.toNat
      match queueData w k.slot k.streamId (rest.take chunkLen)
          (k.endStream && decide (rest.length ≤ chunkLen)) with
      | (status, w) =>
        if ¬ ntSuccess status then .done (status, w) else .again (w, rest.drop chunkLen, true)

/-- `SendStreamData` up to the last `Send`. -/
def awaitSendStreamData (w : Http2World) (streamId : ℕ) (data : Bytes) (endStream : Bool) :
    NTSTATUS × Http2World :=
  match tunnelSlot w.conn streamId with
  | none => (statusInvalidParameter, w)
  | some i =>
    let k : SendContext :=
      { slot := i, streamId, endStream
        maxPayload := outboundPayloadLimit w.conn.peerSettings.maxFrameSize }
    endSendBuffer
      (match run (streamDataTurn k) (fun s => (statusSuccess, s.1)) (data.length + 2)
          (clearSendBuffer w, data, false) with
      | (status, w) => if ¬ ntSuccess status then (status, w) else flushSendBuffer w)

/-- `SendStreamData`; a stream that ends is released. -/
def sendStreamData (w : Http2World) (streamId : ℕ) (data : Bytes) (endStream : Bool) :
    NTSTATUS × Http2World :=
  match awaitSendStreamData w streamId data endStream with
  | (status, w) =>
    (status, if ntSuccess status ∧ endStream then
        { w with conn := w.conn.releaseActiveStream streamId } else w)

/-- What a frame means to `ReceiveStreamData`: it goes on reading, it fails, it has
    octets for its caller, or the peer closed the stream. -/
inductive TunnelOutcome where
  | again
  | failed (status : NTSTATUS) (content : Bytes) (endStream : Bool)
  | data (content : Bytes) (endStream : Bool)
  | closed

/-- DATA of a tunnel, for the caller's buffer. -/
def tunnelData (w : Http2World) (i bufferCapacity : ℕ) (f : Http2Frame) :
    Http2World × TunnelOutcome :=
  match stripPadding f with
  | .error status => (w, .failed status [] false)
  | .ok content =>
    if content.length > bufferCapacity then (w, .failed statusBufferTooSmall [] false)
    else
      match (w.conn.slot i).stream.receiveData f.payload.length f.endStream with
      | (status, stream) =>
        let w := setStream w i stream
        if ¬ ntSuccess status then
          ((sendRstStream w f.streamId .flowControlError).2, .failed status [] false)
        else if exceedsConnectionWindow w.conn f.payload.length then
          ((sendGoAway w .flowControlError).2, .failed statusInvalidNetworkResponse [] false)
        else
          let w := { w with conn := { w.conn with
            connectionRecvWindow := w.conn.connectionRecvWindow - f.payload.length
            connectionRecvConsumed := w.conn.connectionRecvConsumed + f.payload.length } }
          match sendWindowUpdateIfNeeded w (if f.endStream then none else some stream)
              f.payload.length with
          | (status, w, stream') =>
            (setStream w i (stream'.getD stream),
              if ¬ ntSuccess status then .failed status content f.endStream
              else .data content f.endStream)

def tunnelFrame (w : Http2World) (streamId i bufferCapacity : ℕ) (f : Http2Frame) :
    Http2World × TunnelOutcome :=
  match f.type with
  | .data => tunnelData w i bufferCapacity f
  | .windowUpdate | .rstStream =>
    match processSlot w i f with
    | (status, w) =>
      (w, if ¬ ntSuccess status then .failed status [] false
        else if (w.conn.slot i).responseState.streamClosed then .closed else .again)
  | .headers | .continuation =>
    ((sendRstStream w streamId .protocolError).2, .failed statusInvalidNetworkResponse [] false)
  | _ => (w, .again)

/-- The end of a turn on another stream or on the connection. -/
def outcomeOf (r : NTSTATUS × Http2World) : Http2World × TunnelOutcome :=
  (r.2, if ¬ ntSuccess r.1 then .failed r.1 [] false else .again)

/-- The frame of a turn of `ReceiveStreamData`. -/
def receiveStreamFrame (w : Http2World) (streamId i bufferCapacity : ℕ) (f : Http2Frame) :
    Http2World × TunnelOutcome :=
  if ¬ isValidFrameTarget f then
    ((sendGoAway w .protocolError).2, .failed statusInvalidNetworkResponse [] false)
  else if f.streamId = 0 then
    outcomeOf (handleConnectionFrame w f (some (w.conn.slot i).stream.streamId))
  else if f.streamId ≠ streamId then
    match w.conn.findActiveStream f.streamId with
    | none => (w, .again)
    | some j => outcomeOf (processSlot w j f)
  else tunnelFrame w streamId i bufferCapacity f

/-- One turn of `ReceiveStreamData`. -/
def receiveStreamTurn (streamId i bufferCapacity : ℕ) (w : Http2World) :
    Turn Http2World (Http2World × TunnelOutcome) :=
  match readFrame w (.tunnel streamId i bufferCapacity) with
  | (.error status, w) =>
    match handleReadFrameFailure w status with
    | (status, w) => .done (w, .failed status [] false)
  | (.ok f, w) =>
    match receiveStreamFrame w streamId i bufferCapacity f with
    | (w, .again) => .again w
    | (w, outcome) => .done (w, outcome)

/-- The loop of `ReceiveStreamData`. -/
def awaitStreamData (w : Http2World) (streamId bufferCapacity : ℕ) : Http2World × TunnelOutcome :=
  match tunnelSlot w.conn streamId with
  | none => (w, .failed statusInvalidParameter [] false)
  | some i =>
    run (receiveStreamTurn streamId i bufferCapacity)
      (fun w => (w, .failed statusConnectionDisconnected [] false)) (w.incoming.length + 1) w

/-- What `ReceiveStreamData` leaves: status, surroundings, octets, end of stream. -/
abbrev ReceivedData := NTSTATUS × Http2World × Bytes × Bool

/-- `ReceiveStreamData`; a stream that ends is released. -/
def receiveStreamData (w : Http2World) (streamId bufferCapacity : ℕ) : ReceivedData :=
  match awaitStreamData w streamId bufferCapacity with
  | (w, .again) => (statusConnectionDisconnected, w, [], false)
  | (w, .failed status content endStream) => (status, w, content, endStream)
  | (w, .data content endStream) =>
    (statusSuccess,
      if endStream then { w with conn := w.conn.releaseActiveStream streamId } else w,
      content, endStream)
  | (w, .closed) =>
    (statusConnectionDisconnected, { w with conn := w.conn.releaseActiveStream streamId }, [], false)

/-! ## Other calls -/

def releaseStream (w : Http2World) (streamId : ℕ) : Http2World :=
  { w with conn := w.conn.releaseActiveStream streamId }

def sendPing (w : Http2World) (opaqueData : Bytes) : NTSTATUS × Http2World :=
  if w.conn.goAwaySent ∨ w.conn.goAwayReceived then (statusConnectionDisconnected, w)
  else sendRaw w [pingFrame opaqueData false]

def shutdown (w : Http2World) : NTSTATUS × Http2World :=
  if w.conn.goAwaySent then (statusSuccess, w)
  else
    sendRaw { w with conn := { w.conn with goAwaySent := true } }
      [goAwayFrame 0 Http2ErrorCode.noError.code]

/-- `ReceiveResponse` of the stream of an upgraded request, which is no slot of
    the connection. -/
def receiveUpgradedResponse (w : Http2World) (streamId : ℕ) (r : Http2Request) : Received :=
  if streamId = 0 ∨ streamId % 2 = 0 then (statusInvalidParameter, w, none)
  else
    let stream := Http2Stream.initializeStream streamId w.conn.localSettings.initialWindowSize
      w.conn.peerSettings.initialWindowSize
    match ensureDecodedHeaderScratch w.conn r.responseHeaderCapacity with
    | (status, conn) =>
      let w := { w with conn }
      if ¬ ntSuccess status then (status, w, none)
      else
        match receiveResponseFramesWithState w
            { inUse := true, stream := (stream.sendHeaders true).2
              responseState := { initialResponseState w.conn r false with
                requestForbidsResponseBody := false, responseBodyForbidden := false } } with
        | (status, w, a) =>
          (status, w, if ntSuccess status then some a.responseState.publish else none)

/-! ## Initialize -/

def settingOctets (id value : ℕ) : Bytes :=
  [UInt8.ofNat (id / 256), UInt8.ofNat id] ++ writeUint32BE value

/-- `EncodeSettings`. -/
def settingsFrame (s : Http2Settings) : Http2Frame :=
  { type := .settings, streamId := 0
    payload := settingOctets 0x1 s.headerTableSize ++ settingOctets 0x2 s.enablePush ++
      settingOctets 0x3 s.maxConcurrentStreams ++ settingOctets 0x4 s.initialWindowSize ++
      settingOctets 0x5 s.maxFrameSize ++ settingOctets 0x6 s.maxHeaderListSize ++
      settingOctets 0x8 s.enableConnectProtocol }

def localMaxFramePayloadSize : ℕ := 32768

/-- The object in front of the first `Send` of `Initialize`. -/
def freshConnection (maxHeaderBlockBytes : ℕ) : Http2Connection :=
  { localSettings :=
      { maxHeaderListSize := maxHeaderBlockBytes, maxFrameSize := localMaxFramePayloadSize }
    headerBlockCapacity := maxHeaderBlockBytes
    encoder := .initializeEncoder 4096
    decoder := .initializeDecoder 4096
    responseHeaderBlock := List.replicate maxHeaderBlockBytes 0 }

def acceptFirstSettings (w : Http2World) (f : Http2Frame) : NTSTATUS × Http2World :=
  if f.type ≠ .settings ∨ f.ack ∨ f.streamId ≠ 0 then
    refuse w (if f.type = .settings ∧ f.ack ∧ f.payload ≠ [] then .frameSizeError
      else .protocolError) statusInvalidNetworkResponse
  else
    match decodeSettingsPayload f.payload w.conn.peerSettings with
    | (status, peerSettings) =>
      let w := { w with conn := { w.conn with peerSettings } }
      if ¬ ntSuccess status ∨ peerSettings.enablePush ≠ 0 then
        refuse w (settingsErrorCodeForPayload f.payload)
          (if ntSuccess status then statusInvalidNetworkResponse else status)
      else
        sendRaw { w with conn := { w.conn with
          encoder := w.conn.encoder.updateMaxTableSize peerSettings.headerTableSize } } [settingsAck]

/-- `Initialize` on a transport; the connection preface in front of SETTINGS is no
    frame. -/
def initializeConnection (maxHeaderBlockBytes : ℕ) (incoming : List (Except NTSTATUS UInt8))
    (sendAnswers : List NTSTATUS) : NTSTATUS × Http2World :=
  let w : Http2World := { conn := freshConnection maxHeaderBlockBytes, incoming, sendAnswers }
  if maxHeaderBlockBytes = 0 ∨ maxHeaderBlockBytes > 64 * 1024 then (statusInvalidParameter, w)
  else
    match sendRaw w [settingsFrame w.conn.localSettings] with
    | (status, w) =>
      if ¬ ntSuccess status then (status, w)
      else
        match readFrame w .dispatch with
        | (.error status, w) => handleReadFrameFailure w status
        | (.ok f, w) => acceptFirstSettings w f

/-! ## Runs -/

/-- The calls of the public interface. -/
inductive Http2Call where
  | beginRequest (r : Http2Request)
  | receiveResponse (streamId : ℕ)
  | releaseStream (streamId : ℕ)
  | receiveResponseHeaders (streamId : ℕ)
  | sendStreamData (streamId : ℕ) (data : Bytes) (endStream : Bool)
  | receiveStreamData (streamId bufferCapacity : ℕ)
  | sendPing (opaqueData : Bytes)
  | shutdown
  | receiveUpgradedResponse (streamId : ℕ) (r : Http2Request)

def Http2World.call (w : Http2World) : Http2Call → Http2World
  | .beginRequest r => (Http2.beginRequest w r).2.1
  | .receiveResponse streamId => (Http2.receiveResponse w streamId).2.1
  | .releaseStream streamId => Http2.releaseStream w streamId
  | .receiveResponseHeaders streamId => (Http2.receiveResponseHeaders w streamId).2
  | .sendStreamData streamId data endStream => (Http2.sendStreamData w streamId data endStream).2
  | .receiveStreamData streamId capacity => (Http2.receiveStreamData w streamId capacity).2.1
  | .sendPing opaqueData => (Http2.sendPing w opaqueData).2
  | .shutdown => (Http2.shutdown w).2
  | .receiveUpgradedResponse streamId r => (Http2.receiveUpgradedResponse w streamId r).2.1

/-- The state behind a sequence of calls. -/
def Http2World.runCalls (w : Http2World) (calls : List Http2Call) : Http2World :=
  calls.foldl Http2World.call w

end KernelHttp.Http2
