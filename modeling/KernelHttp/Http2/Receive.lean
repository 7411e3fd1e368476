/-
  Connection frames, dispatch and the readers of a response
  (`Http2Connection::HandleConnectionFrame`, `DispatchFrame`, `ReceiveResponse`,
  `ReceiveResponseFramesWithState`).

  Every turn that goes on has read a frame header, so the octets to come bound the turns.
-/
import KernelHttp.Http2.Process
import KernelHttp.Lib.Loop

namespace KernelHttp.Http2

open Loop

/-! ## Connection frames -/

/-- `KH_HARD_MAX_CONNECTION_CONTROL_SIGNALS`. -/
def maxConnectionControlSignals : ℕ := 4096

def isConnectionControlSignal (type : Http2FrameType) : Bool :=
  type == .settings || type == .ping || type == .goAway || type == .windowUpdate

/-- A connection error answered to a frame without a stream. -/
def refuse (w : Http2World) (errorCode : Http2ErrorCode) (status : NTSTATUS) :
    NTSTATUS × Http2World :=
  (status, (sendGoAway w errorCode).2)

/-- SETTINGS of the peer, without the ACK flag. -/
def applySettings (w : Http2World) (f : Http2Frame) : NTSTATUS × Http2World :=
  let previous := w.conn.peerSettings
  if f.payload.length % 6 ≠ 0 then refuse w .frameSizeError statusInvalidNetworkResponse
  else
    match decodeSettingsPayload f.payload w.conn.peerSettings with
    | (status, peerSettings) =>
      let w := { w with conn := { w.conn with peerSettings } }
      if ¬ ntSuccess status ∨ peerSettings.enablePush ≠ 0 then
        refuse w (settingsErrorCodeForPayload f.payload)
          (if ntSuccess status then statusInvalidNetworkResponse else status)
      else
        let w := { w with conn := { w.conn with
          encoder := w.conn.encoder.updateMaxTableSize peerSettings.headerTableSize } }
        let delta : ℤ := (peerSettings.initialWindowSize : ℤ) - previous.initialWindowSize
        match w.conn.adjustActiveStreamRemoteWindows delta with
        | (status, conn) =>
          let w := { w with conn }
          if ¬ ntSuccess status then refuse w .flowControlError status
          else sendRaw w [settingsAck]

def handleSettings (w : Http2World) (f : Http2Frame) : NTSTATUS × Http2World :=
  if f.ack then
    if f.payload ≠ [] then refuse w .frameSizeError statusInvalidNetworkResponse
    else (statusSuccess, { w with conn := { w.conn with settingsAckReceived := true } })
  else applySettings w f

def handlePing (w : Http2World) (f : Http2Frame) : NTSTATUS × Http2World :=
  if f.payload.length ≠ 8 then refuse w .frameSizeError statusInvalidNetworkResponse
  else if f.ack then (statusSuccess, w)
  else sendRaw w [pingFrame f.payload true]

/-- GOAWAY; `activeStream` is the id of the stream the reader waits for. -/
def handleGoAway (w : Http2World) (f : Http2Frame) (activeStream : Option ℕ) :
    NTSTATUS × Http2World :=
  match decodeGoAwayPayload f.payload with
  | .error status => (status, w)
  | .ok (lastStreamId, errorCode) =>
    let w := { w with conn := { w.conn with
      goAwayReceived := true, goAwayLastStreamId := lastStreamId } }
    if errorCode ≠ Http2ErrorCode.noError.code then (statusConnectionDisconnected, w)
    else if activeStream.any (· > lastStreamId) then (statusRetry, w)
    else (statusSuccess, w)

def handleWindowUpdate (w : Http2World) (f : Http2Frame) : NTSTATUS × Http2World :=
  match decodeWindowUpdatePayload f.payload with
  | .error status =>
    refuse w (if f.payload.length = 4 then .protocolError else .frameSizeError) status
  | .ok increment =>
    if w.conn.connectionSendWindow > (http2MaxWindowSize : ℤ) - increment then
      refuse w .flowControlError statusInvalidNetworkResponse
    else
      (statusSuccess, { w with conn := { w.conn with
        connectionSendWindow := w.conn.connectionSendWindow + increment } })

/-- SETTINGS, PING, GOAWAY and WINDOW_UPDATE of stream 0. -/
def handleConnectionFrame (w : Http2World) (f : Http2Frame) (activeStream : Option ℕ) :
    NTSTATUS × Http2World :=
  if ¬ isValidFrameTarget f then refuse w .protocolError statusInvalidNetworkResponse
  else if isConnectionControlSignal f.type ∧
      w.conn.connectionControlSignals ≥ maxConnectionControlSignals then
    refuse w .enhanceYourCalm statusInvalidNetworkResponse
  else
    let w := if isConnectionControlSignal f.type then
        { w with conn := { w.conn with
          connectionControlSignals := w.conn.connectionControlSignals + 1 } }
      else w
    match f.type with
    | .settings => handleSettings w f
    | .ping => handlePing w f
    | .goAway => handleGoAway w f activeStream
    | .windowUpdate => handleWindowUpdate w f
    | .pushPromise | .data | .headers | .rstStream =>
      refuse w .protocolError statusInvalidNetworkResponse
    | _ => (statusSuccess, w)

/-! ## Dispatch -/

/-- A frame of a stream without a slot. -/
def ignoreFrame (w : Http2World) (f : Http2Frame) : NTSTATUS × Http2World :=
  if f.type = .windowUpdate then
    match decodeWindowUpdatePayload f.payload with
    | .error status =>
      (status, (sendRstStream w f.streamId
        (if f.payload.length = 4 then .protocolError else .frameSizeError)).2)
    | .ok _ => (statusSuccess, w)
  else (statusSuccess, w)

def processSlot (w : Http2World) (i : ℕ) (f : Http2Frame) : NTSTATUS × Http2World :=
  match processResponseFrame w (w.conn.slot i) f with
  | (status, w, a) => (status, { w with conn := w.conn.setSlot i a })

/-- Something else comes inside a header block. -/
def breaksContinuation (c : Http2Connection) (f : Http2Frame) : Bool :=
  match c.findContinuationStream with
  | some a => f.type != .continuation || f.streamId != a.stream.streamId
  | none => f.type == .continuation

/-- A frame goes to its stream, or to the connection. -/
def dispatchFrame (w : Http2World) (f : Http2Frame) : NTSTATUS × Http2World :=
  if ¬ isValidFrameTarget f ∨ breaksContinuation w.conn f then
    refuse w .protocolError statusInvalidNetworkResponse
  else if f.streamId = 0 then handleConnectionFrame w f none
  else if f.type = .settings ∨ f.type = .ping ∨ f.type = .goAway ∨ f.type = .pushPromise then
    refuse w .protocolError statusInvalidNetworkResponse
  else
    match w.conn.findActiveStream f.streamId with
    | none => ignoreFrame w f
    | some i => processSlot w i f

def dispatchNextFrame (w : Http2World) : NTSTATUS × Http2World :=
  match readFrame w .dispatch with
  | (.error status, w) => handleReadFrameFailure w status
  | (.ok f, w) => dispatchFrame w f

/-! ## ReceiveResponse -/

/-- The frame in the loop of `ReceiveResponse`, which is counted behind its
    payload. -/
def readCountedFrame (w : Http2World) : Except NTSTATUS Http2Frame × Http2World :=
  match readFrameHeader w with
  | (.error status, w) => (.error status, w)
  | (.ok header, w) =>
    match readExact header.length w.incoming with
    | (.error status, incoming) => (.error status, { w with incoming })
    | (.ok payload, incoming) =>
      match recordReceivedFrame w.conn header.length with
      | (status, conn) =>
        let w := { w with incoming, conn }
        if ¬ ntSuccess status then (.error status, w)
        else (.ok (header.toFrame payload), receiveFrame w .dispatch (header.toFrame payload))

/-- The state of the loop of `ReceiveResponse`: whether the stream was seen. -/
abbrev ReceiveState := Http2World × Bool

/-- What `ReceiveResponse` leaves: its status, the surroundings and, when the
    response is complete, what its caller has of it. -/
abbrev Received := NTSTATUS × Http2World × Option Http2ResponseFrameState

/-- `*ResponseBodyLength = BodyLength`. -/
def Http2ResponseFrameState.publish (st : Http2ResponseFrameState) : Http2ResponseFrameState :=
  { st with responseBodyLength := st.bodyLength }

/-- One turn of `ReceiveResponse`, up to the slot whose response is complete. -/
def receiveTurn (streamId : ℕ) (s : ReceiveState) :
    Turn ReceiveState (Except NTSTATUS ℕ × Http2World) :=
  let (w, streamObserved) := s
  match w.conn.findActiveStream streamId with
  | none =>
    .done (.error
      (if streamObserved then statusConnectionDisconnected else statusInvalidParameter), w)
  | some i =>
    if (w.conn.slot i).responseState.streamClosed then .done (.ok i, w)
    else
      match readCountedFrame w with
      | (.error status, w) =>
        match handleReadFrameFailure w status with
        | (status, w) => .done (.error status, w)
      | (.ok f, w) =>
        match dispatchFrame w f with
        | (status, w) => if ¬ ntSuccess status then .done (.error status, w) else .again (w, true)

/-- The loop of `ReceiveResponse`: the slot whose response is complete. -/
def awaitResponse (w : Http2World) (streamId : ℕ) : Except NTSTATUS ℕ × Http2World :=
  run (receiveTurn streamId) (fun s => (.error statusConnectionDisconnected, s.1))
    (w.incoming.length + 1) (w, false)

/-- `ReceiveResponse`; the slot is released when the response is complete. -/
def receiveResponse (w : Http2World) (streamId : ℕ) : Received :=
  match awaitResponse w streamId with
  | (.error status, w) => (status, w, none)
  | (.ok i, w) =>
    (statusSuccess, { w with conn := w.conn.releaseActiveStream streamId },
      some (w.conn.slot i).responseState.publish)

/-! ## The reader of a single stream -/

/-- The checks on CONTINUATION of `ReceiveResponseFramesWithState`. -/
def breaksSingleContinuation (st : Http2ResponseFrameState) (f : Http2Frame) : Bool :=
  (f.type == .continuation &&
      (!st.expectingContinuation || f.streamId != st.continuationStreamId)) ||
    (st.expectingContinuation && f.type != .continuation)

abbrev SingleState := Http2World × Http2ActiveStream

/-- The frame of a turn of `ReceiveResponseFramesWithState`. -/
def singleFrame (w : Http2World) (a : Http2ActiveStream) (f : Http2Frame) : Processed :=
  if ¬ isValidFrameTarget f ∨ breaksSingleContinuation a.responseState f then
    refuseConnection w a .protocolError statusInvalidNetworkResponse
  else if f.streamId = 0 then
    match handleConnectionFrame w f (some a.stream.streamId) with
    | (status, w) => (status, w, a)
  else if f.type = .settings ∨ f.type = .ping ∨ f.type = .goAway ∨ f.type = .pushPromise then
    refuseConnection w a .protocolError statusInvalidNetworkResponse
  else if f.streamId ≠ a.stream.streamId then (statusSuccess, w, a)
  else processResponseFrame w a f

/-- One turn of `ReceiveResponseFramesWithState`. -/
def singleTurn (s : SingleState) : Turn SingleState (NTSTATUS × SingleState) :=
  let (w, a) := s
  if a.responseState.streamClosed then .done (statusSuccess, w, a)
  else
    match readFrame w (.single a) with
    | (.error status, w) =>
      match handleReadFrameFailure w status with
      | (status, w) => .done (status, w, a)
    | (.ok f, w) =>
      match singleFrame w a f with
      | (status, w, a) => if ¬ ntSuccess status then .done (status, w, a) else .again (w, a)

/-- Reads frames until the response of a stream is whole. -/
def receiveResponseFramesWithState (w : Http2World) (a : Http2ActiveStream) :
    NTSTATUS × SingleState :=
  run singleTurn (fun s => (statusConnectionDisconnected, s)) (w.incoming.length + 1) (w, a)

end KernelHttp.Http2
