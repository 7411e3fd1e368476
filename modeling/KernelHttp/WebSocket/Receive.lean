/-
  What the WebSocket client receives (`WebSocketClient::ReceiveMessage` of
  `client/WebSocketClient.cpp`).

  A call handles frame after frame; what was read beyond stays for the next call.
-/
import KernelHttp.Lib.Loop
import KernelHttp.WebSocket.Client

namespace KernelHttp.WebSocket

def webSocketCloseProtocolError : ℕ := 1002
def webSocketCloseInvalidPayload : ℕ := 1007
def webSocketClosePolicyViolation : ℕ := 1008
def webSocketCloseMessageTooBig : ℕ := 1009

def khWsMaxControlFramesPerReceive : ℕ := 100

def isValidCloseStatus (statusCode : ℕ) : Bool :=
  if 3000 ≤ statusCode ∧ statusCode ≤ 4999 then true
  else if statusCode < 1000 ∨ statusCode > 1014 then false
  else statusCode ≠ 1004 ∧ statusCode ≠ 1005 ∧ statusCode ≠ 1006

/-- What a call returns: the status, `opcode`, `bytesReceived` and the octets of `output` that
they describe. -/
structure Received where
  status : NTSTATUS
  opcode : WebSocketOpcode := .continuation
  bytesReceived : ℕ := 0
  output : Bytes := []
deriving DecidableEq

/-- A call's result, and the client and its transport after it. -/
abbrev Outcome := Received × WebSocketClient × Transport

def sendCloseFrame (payload : Bytes) (frameBufferLength : ℕ) (c : WebSocketClient)
    (t : Transport) : NTSTATUS × WebSocketClient × Transport :=
  if ¬ c.connected ∨ frameBufferLength = 0 then (statusInvalidParameter, c, t)
  else if c.closeSent then (statusSuccess, c, t)
  else
    let (status, c, t) := encodeAndSendFrame .close payload frameBufferLength true c t
    (status, if ntSuccess status then { c with closeSent := true } else c, t)

/-- The payload of `SendCloseStatus`. -/
def closePayload (statusCode : ℕ) : Bytes :=
  [UInt8.ofNat (statusCode / 256 % 256), UInt8.ofNat (statusCode % 256)]

/-- A Close with the status, if none was sent, then the end. -/
def failConnectionWithClose (statusCode frameBufferLength : ℕ) (r : Received)
    (c : WebSocketClient) (t : Transport) : Outcome :=
  let c := resetReceiveFragment (resetSendFragment c)
  let (c, t) :=
    if c.connected ∧ ¬ c.closeSent then
      (sendCloseFrame (closePayload statusCode) frameBufferLength c t).2
    else (c, t)
  (r, closeTransport { c with closeReceived := true, connected := false }, t)

/-- What `ReceiveStreamData` returns for a DATA frame with `behind` of them to come. -/
def dataFrameStatus (capacity : ℕ) (t : Transport) (chunk : Bytes) (behind : ℕ) : NTSTATUS :=
  if capacity < chunk.length then statusBufferTooSmall else t.dataStatus behind

/-- `WebSocketClient::ReceiveRaw`: a read takes what the buffer has room for.  Over HTTP/2 it takes
a whole DATA frame, and one that `ReceiveStreamData` fails for is lost. -/
def receiveRaw (capacity : ℕ) (c : WebSocketClient) (t : Transport) :
    NTSTATUS × Bytes × WebSocketClient × Transport :=
  match t.incoming with
  | [] => (t.ending, [], c, t)
  | chunk :: rest =>
    let status := dataFrameStatus capacity t chunk rest.length
    if c.http2 ∧ ¬ ntSuccess status then (status, [], c, { t with incoming := rest })
    else
      let t := { t with
        incoming := if chunk.length ≤ capacity then rest else chunk.drop capacity :: rest }
      let c :=
        if c.http2 ∧ t.endStream ∧ t.incoming = [] then
          { c with connected := false, closeReceived := true }
        else c
      (statusSuccess, chunk.take capacity, c, t)

/-- `TryDecodeCompleteFrame`: the header if it is there, and whether the payload is. -/
def tryDecodeCompleteFrame (data : Bytes) :
    Except NTSTATUS (Option WebSocketFrameHeader × Bool) :=
  match decodeFrameHeader data with
  | .error status =>
    if status = statusMoreProcessingRequired then .ok (none, false) else .error status
  | .ok header =>
    if header.payloadLength > maxSizeT ∨ header.headerLength > data.length then
      .error statusInvalidNetworkResponse
    else .ok (some header, decide (header.payloadLength ≤ data.length - header.headerLength))

/-- `WebSocketCodec::DecodeFramePayload` of a frame without a mask, with the needed capacity
where the given one is too small. -/
def decodeFramePayload (header : WebSocketFrameHeader) (data : Bytes)
    (destinationCapacity : ℕ) : Except (NTSTATUS × ℕ) Bytes :=
  if header.payloadLength > maxSizeT then .error (statusBufferTooSmall, 0)
  else if header.headerLength > data.length ∨
      header.payloadLength > data.length - header.headerLength then
    .error (statusMoreProcessingRequired, 0)
  else if destinationCapacity < header.payloadLength then
    .error (statusBufferTooSmall, header.payloadLength)
  else .ok ((data.drop header.headerLength).take header.payloadLength)

/-- `header.Opcode` is that of a Text or a Binary frame. -/
def isDataFrame (opcode : WebSocketOpcode) : Bool := opcode == .text || opcode == .binary

/-- The order of the frames of a message. -/
def badFragmentOrder (opcode : WebSocketOpcode) (c : WebSocketClient) : Bool :=
  (isDataFrame opcode && c.receiveFragmentOpen) ||
    (opcode == .continuation && !c.receiveFragmentOpen)

/-- `payloadLength` more octets are more than the output holds. -/
def messageTooBig (payloadLength outputCapacity : ℕ) (c : WebSocketClient) : Bool :=
  decide (c.receiveFragment.length > outputCapacity) ||
    decide (payloadLength > outputCapacity - c.receiveFragment.length)

def tooBig (payloadLength : ℕ) (c : WebSocketClient) : Received :=
  { status := statusBufferTooSmall
    bytesReceived := if payloadLength ≤ maxSizeT - c.receiveFragment.length then
      c.receiveFragment.length + payloadLength else maxSizeT }

/-- What the loop that fills the buffer ends with: a result of the call, or a frame. -/
abbrev Filled := Outcome ⊕ (WebSocketFrameHeader × Bytes × WebSocketClient × Transport)

/-- The end of a turn without a whole frame: a read behind `data`. -/
def readMore (receiveFrameCapacity : ℕ) (data : Bytes) (c : WebSocketClient) (t : Transport) :
    Loop.Turn (Bytes × WebSocketClient × Transport) Filled :=
  if data.length ≥ receiveFrameCapacity then .done (.inl ({ status := statusBufferTooSmall }, c, t))
  else
    let (status, received, c, t) := receiveRaw (receiveFrameCapacity - data.length) c t
    if ¬ ntSuccess status then
      if isConnectionTerminalStatus status then
        .done (.inl ({ status := status },
          closeTransport { c with connected := false, closeReceived := true }, t))
      else .done (.inl ({ status := status }, c, t))
    else if received = [] then
      .done (.inl ({ status := statusConnectionDisconnected },
        closeTransport { c with connected := false, closeReceived := true }, t))
    else .again (data ++ received, c, t)

/-- One turn of the loop that reads until the buffer holds a whole frame. -/
def fillTurn (receiveFrameCapacity outputCapacity frameBufferLength : ℕ) :
    Bytes × WebSocketClient × Transport → Loop.Turn (Bytes × WebSocketClient × Transport) Filled
  | (data, c, t) =>
    match tryDecodeCompleteFrame data with
    | .error status =>
      if status = statusInvalidNetworkResponse then
        .done (.inl (failConnectionWithClose webSocketCloseProtocolError frameBufferLength
          { status := statusInvalidNetworkResponse } c t))
      else .done (.inl ({ status := status }, c, t))
    | .ok (none, _) => readMore receiveFrameCapacity data c t
    | .ok (some header, complete) =>
      if badFragmentOrder header.opcode c then
        .done (.inl (failConnectionWithClose webSocketCloseProtocolError frameBufferLength
          { status := statusInvalidNetworkResponse } c t))
      else if (isDataFrame header.opcode || header.opcode == .continuation) &&
          messageTooBig header.payloadLength outputCapacity c then
        .done (.inl (failConnectionWithClose webSocketCloseMessageTooBig frameBufferLength
          (tooBig header.payloadLength c) c t))
      else if complete then .done (.inr (header, data, c, t))
      else readMore receiveFrameCapacity data c t

/-- The octets that are still to come. -/
def Transport.pending (t : Transport) : ℕ := t.incoming.flatten.length

/-- The loop that reads until the buffer holds a whole frame. -/
def fillFrame (receiveFrameCapacity outputCapacity frameBufferLength : ℕ) (c : WebSocketClient)
    (t : Transport) : Filled :=
  Loop.run (fillTurn receiveFrameCapacity outputCapacity frameBufferLength)
    (fun s => .inl ({ status := statusInvalidDeviceState }, s.2)) (t.pending + 1)
    (c.bufferedFrame, c, t)

/-- The state of the loop over frames: the number of control frames, the client and its
transport. -/
abbrev ReceiveState := ℕ × WebSocketClient × Transport

/-- The payload of the frame at the head of `data`. -/
def framePayload (header : WebSocketFrameHeader) (data : Bytes) : Bytes :=
  (data.drop header.headerLength).take header.payloadLength

/-- What follows the frame at the head of `data`. -/
def frameRemaining (header : WebSocketFrameHeader) (data : Bytes) : Bytes :=
  data.drop (header.headerLength + header.payloadLength)

/-- A failure for what the server sent. -/
def failFrame (statusCode frameBufferLength : ℕ) (c : WebSocketClient) (t : Transport) :
    Loop.Turn ReceiveState Outcome :=
  .done (failConnectionWithClose statusCode frameBufferLength
    { status := statusInvalidNetworkResponse } c t)

/-- A Ping or a Pong that the caller gets. -/
def passControlFrame (outputCapacity : ℕ) (header : WebSocketFrameHeader) (data : Bytes)
    (c : WebSocketClient) (t : Transport) : Loop.Turn ReceiveState Outcome :=
  if c.receiveFragmentOpen then
    .done ({ status := statusSuccess, opcode := header.opcode },
      { c with bufferedFrame := frameRemaining header data }, t)
  else
    match decodeFramePayload header data outputCapacity with
    | .error (status, needed) =>
      .done ({ status := status, bytesReceived := needed },
        if header.opcode = .ping then resetReceiveFragment c else c, t)
    | .ok payload =>
      .done ({ status := statusSuccess, opcode := header.opcode,
               bytesReceived := payload.length, output := payload },
        { c with bufferedFrame := frameRemaining header data }, t)

/-- The answer goes out once, and the connection is closed. -/
def handleClose (outputCapacity frameBufferLength : ℕ) (payload remaining : Bytes)
    (c : WebSocketClient) (t : Transport) : Loop.Turn ReceiveState Outcome :=
  if payload.length = 1 then failFrame webSocketCloseProtocolError frameBufferLength c t
  else if 2 ≤ payload.length ∧
      (¬ isValidCloseStatus (BigEndian.ofBigEndian (payload.take 2)) ∨
        ¬ isValidUtf8 (payload.drop 2)) then
    failFrame webSocketCloseProtocolError frameBufferLength c t
  else
    let c := { resetReceiveFragment c with closeReceived := true }
    let (status, c, t) :=
      if ¬ c.closeSent then sendCloseFrame payload frameBufferLength c t
      else (statusSuccess, c, t)
    if ¬ ntSuccess status then .done ({ status := status }, c, t)
    else
      let c := { closeTransport { c with connected := false } with bufferedFrame := remaining }
      if payload.length > outputCapacity then
        .done ({ status := statusBufferTooSmall, opcode := .close,
                 bytesReceived := payload.length }, c, t)
      else
        .done ({ status := statusSuccess, opcode := .close, bytesReceived := payload.length,
                 output := payload }, c, t)

/-- A frame of a message: its order, its room, and at its end the text. -/
def handleData (outputCapacity frameBufferLength : ℕ) (header : WebSocketFrameHeader)
    (data : Bytes) (controlFrameCount : ℕ) (c : WebSocketClient) (t : Transport) :
    Loop.Turn ReceiveState Outcome :=
  if badFragmentOrder header.opcode c then
    failFrame webSocketCloseProtocolError frameBufferLength c t
  else if messageTooBig header.payloadLength outputCapacity c then
    .done (failConnectionWithClose webSocketCloseMessageTooBig frameBufferLength
      (tooBig header.payloadLength c) c t)
  else
    match decodeFramePayload header data (outputCapacity - c.receiveFragment.length) with
    | .error (status, _) => .done ({ status := status }, resetReceiveFragment c, t)
    | .ok payload =>
      let c := { c with
        receiveFragmentOpcode := if c.receiveFragmentOpen then c.receiveFragmentOpcode
          else header.opcode
        receiveFragment := c.receiveFragment ++ payload
        bufferedFrame := frameRemaining header data }
      if ¬ header.fin then .again (controlFrameCount, { c with receiveFragmentOpen := true }, t)
      else if c.receiveFragmentOpcode = .text ∧ ¬ isValidUtf8 c.receiveFragment then
        failFrame webSocketCloseInvalidPayload frameBufferLength c t
      else
        .done ({ status := statusSuccess, opcode := c.receiveFragmentOpcode,
                 bytesReceived := c.receiveFragment.length, output := c.receiveFragment },
          resetReceiveFragment c, t)

/-- A whole frame, at the head of `data`. -/
def handleFrame (outputCapacity frameBufferLength : ℕ) (autoReplyPing : Bool)
    (header : WebSocketFrameHeader) (data : Bytes) (controlFrameCount : ℕ)
    (c : WebSocketClient) (t : Transport) : Loop.Turn ReceiveState Outcome :=
  if header.masked then failFrame webSocketCloseProtocolError frameBufferLength c t
  else
    match header.opcode with
    | .ping =>
      if controlFrameCount + 1 > khWsMaxControlFramesPerReceive then
        failFrame webSocketClosePolicyViolation frameBufferLength c t
      else if ¬ autoReplyPing then passControlFrame outputCapacity header data c t
      else
        let (status, c, t) :=
          encodeAndSendFrame .pong (framePayload header data) frameBufferLength true c t
        if ¬ ntSuccess status then .done ({ status := status }, c, t)
        else
          .again (controlFrameCount + 1, { c with bufferedFrame := frameRemaining header data }, t)
    | .pong =>
      if controlFrameCount + 1 > khWsMaxControlFramesPerReceive then
        failFrame webSocketClosePolicyViolation frameBufferLength c t
      else if ¬ autoReplyPing then passControlFrame outputCapacity header data c t
      else
        .again (controlFrameCount + 1, { c with bufferedFrame := frameRemaining header data }, t)
    | .close =>
      handleClose outputCapacity frameBufferLength (framePayload header data)
        (frameRemaining header data) c t
    | _ => handleData outputCapacity frameBufferLength header data controlFrameCount c t

/-- Reads until a frame is whole, and handles it. -/
def receiveTurn (receiveFrameCapacity outputCapacity frameBufferLength : ℕ)
    (autoReplyPing : Bool) : ReceiveState → Loop.Turn ReceiveState Outcome
  | (controlFrameCount, c, t) =>
    match fillFrame receiveFrameCapacity outputCapacity frameBufferLength c t with
    | .inl outcome => .done outcome
    | .inr (header, data, c, t) =>
      handleFrame outputCapacity frameBufferLength autoReplyPing header data controlFrameCount c t

/-- `ReceiveMessage`: the checks, then turns until one ends it. -/
def receiveMessage (outputCapacity frameBufferLength : ℕ) (autoReplyPing : Bool)
    (c : WebSocketClient) (t : Transport) : Outcome :=
  if ¬ c.connected then ({ status := notConnected c }, c, t)
  else if frameBufferLength = 0 then ({ status := statusInvalidParameter }, c, t)
  else if c.closeReceived then ({ status := statusConnectionDisconnected }, c, t)
  else if outputCapacity > maxSizeT - webSocketFrameHeaderMaxLength then
    ({ status := statusBufferTooSmall }, c, t)
  else
    let minimumPayloadCapacity := max outputCapacity webSocketMaxControlPayloadLength
    let receiveFrameCapacity :=
      max (minimumPayloadCapacity + webSocketFrameHeaderMaxLength) c.bufferedFrame.length
    Loop.run (receiveTurn receiveFrameCapacity outputCapacity frameBufferLength autoReplyPing)
      (fun s => ({ status := statusInvalidDeviceState }, s.2))
      (c.bufferedFrame.length + t.pending + 1) (0, c, t)

end KernelHttp.WebSocket
