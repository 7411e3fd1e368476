/-
  The WebSocket client (`client/WebSocketClient.cpp`): its state, and what it sends.

  For each frame the transport answers with a masking key and with how the sending went.
-/
import KernelHttp.WebSocket.Frame
import KernelHttp.WebSocket.Utf8

namespace KernelHttp.WebSocket

def statusConnectionReset : NTSTATUS := 0xC000020D
def statusConnectionAborted : NTSTATUS := 0xC0000241
def statusDeviceNotConnected : NTSTATUS := 0xC000009D
def statusCancelled : NTSTATUS := 0xC0000120
def statusTimeout : NTSTATUS := 0x00000102

def isConnectionTerminalStatus (status : NTSTATUS) : Bool :=
  status == statusConnectionDisconnected || status == statusConnectionReset ||
    status == statusConnectionAborted || status == statusDeviceNotConnected ||
    status == statusIoTimeout || status == statusCancelled || status == statusTimeout

def maxPayloadForFrameBuffer (frameBufferLength : ℕ) : ℕ :=
  if frameBufferLength > webSocketFrameHeaderMaxLength then
    frameBufferLength - webSocketFrameHeaderMaxLength
  else 0

/-- The members of `WebSocketClient`.  `http2` is `h2Connection_`, `h2Transport_` and
`h2StreamId_` being there; `receiveFragment` is what stands at the head of the output
buffer, of length `receiveFragmentLength_`; `bufferedFrame` is `bufferedFrame_` up to
`bufferedFrameLength_`. -/
structure WebSocketClient where
  connected : Bool := true
  transportClosed : Bool := false
  closeSent : Bool := false
  closeReceived : Bool := false
  http2 : Bool := false
  sendFragmentOpen : Bool := false
  sendFragmentOpcode : WebSocketOpcode := .continuation
  sendTextUtf8 : Utf8State := {}
  receiveFragmentOpen : Bool := false
  receiveFragmentOpcode : WebSocketOpcode := .continuation
  receiveFragment : Bytes := []
  bufferedFrame : Bytes := []

/-- What the world answers for one frame: the status of the masking key's allocation and
generation, the key, and the status and the count of the sending. -/
structure SendAnswer where
  prepared : NTSTATUS := statusSuccess
  maskingKey : MaskingKey := fun _ => 0
  status : NTSTATUS := statusSuccess
  sent : ℕ

/-- The transport: its answers in their order, the number of those used, the frames handed to
it, the reads that are still to come, what a read answers after them, and whether the last of
them comes with the end of an HTTP/2 stream.  Over HTTP/2 a read is a DATA frame, and `dataStatus`
what `ReceiveStreamData` returns for one that has room, by the number of those behind it. -/
structure Transport where
  answers : ℕ → SendAnswer
  attempts : ℕ := 0
  handed : List Bytes := []
  incoming : List Bytes := []
  ending : NTSTATUS := statusSuccess
  endStream : Bool := false
  dataStatus : ℕ → NTSTATUS := fun _ => statusSuccess

/-- An answer is used, and a frame handed over if there is one. -/
def Transport.use (t : Transport) (frame : Option Bytes) : Transport :=
  { t with attempts := t.attempts + 1, handed := t.handed ++ frame.toList }

/-- `CloseTransport`, on the members. -/
def closeTransport (c : WebSocketClient) : WebSocketClient :=
  { c with http2 := false, transportClosed := true }

def resetSendFragment (c : WebSocketClient) : WebSocketClient :=
  { c with sendFragmentOpen := false, sendFragmentOpcode := .continuation, sendTextUtf8 := {} }

def resetReceiveFragment (c : WebSocketClient) : WebSocketClient :=
  { c with receiveFragmentOpen := false, receiveFragmentOpcode := .continuation,
           receiveFragment := [] }

/-- The frame of `EncodeAndSendFrame` and its sending, over HTTP/2 without a mask: the status,
and the frame if it was handed over. -/
def transmit (http2 : Bool) (answer : SendAnswer) (opcode : WebSocketOpcode) (payload : Bytes)
    (frameBufferLength : ℕ) (finalFragment : Bool) : NTSTATUS × Option Bytes :=
  if ¬ http2 ∧ ¬ ntSuccess answer.prepared then (answer.prepared, none)
  else
    match encodeFrame opcode finalFragment payload
        (if http2 then none else some answer.maskingKey) frameBufferLength with
    | .error status => (status, none)
    | .ok frame =>
      if ntSuccess answer.status ∧ answer.sent ≠ frame.length then
        (statusConnectionDisconnected, some frame)
      else (answer.status, some frame)

/-- How `EncodeAndSendFrame` leaves the client. -/
def afterSend (c : WebSocketClient) (status : NTSTATUS) : WebSocketClient :=
  if ¬ ntSuccess status ∧ isConnectionTerminalStatus status then
    if c.http2 then { c with connected := false }
    else closeTransport { c with connected := false, closeReceived := true }
  else c

/-- A frame goes out; a failure of the transport may end the connection. -/
def encodeAndSendFrame (opcode : WebSocketOpcode) (payload : Bytes) (frameBufferLength : ℕ)
    (finalFragment : Bool) (c : WebSocketClient) (t : Transport) :
    NTSTATUS × WebSocketClient × Transport :=
  let (status, frame) :=
    transmit c.http2 (t.answers t.attempts) opcode payload frameBufferLength finalFragment
  (status, afterSend c status, t.use frame)

def notConnected (c : WebSocketClient) : NTSTATUS :=
  if c.transportClosed || c.closeSent || c.closeReceived then statusConnectionDisconnected
  else statusInvalidParameter

def sendControlFrame (opcode : WebSocketOpcode) (payload : Bytes) (frameBufferLength : ℕ)
    (c : WebSocketClient) (t : Transport) : NTSTATUS × WebSocketClient × Transport :=
  if ¬ c.connected then (notConnected c, c, t)
  else if payload.length > webSocketMaxControlPayloadLength ∨ frameBufferLength = 0 then
    (statusInvalidParameter, c, t)
  else if opcode ≠ .ping ∧ opcode ≠ .pong then (statusInvalidParameter, c, t)
  else if c.closeSent ∨ c.closeReceived then (statusInvalidDeviceState, c, t)
  else encodeAndSendFrame opcode payload frameBufferLength true c t

/-- The loop of `SendFrame`, on what is left of the message. -/
def sendFrames (maxPayloadPerFrame frameBufferLength : ℕ) (finalFragment : Bool)
    (opcode : WebSocketOpcode) (message : Bytes) (hmax : message ≠ [] → 0 < maxPayloadPerFrame)
    (c : WebSocketClient) (t : Transport) : NTSTATUS × WebSocketClient × Transport :=
  let chunk := message.take maxPayloadPerFrame
  let lastChunk := decide (message.length ≤ maxPayloadPerFrame)
  let (status, c, t) :=
    encodeAndSendFrame opcode chunk frameBufferLength (finalFragment && lastChunk) c t
  if ¬ ntSuccess status then (status, c, t)
  else if message.length ≤ maxPayloadPerFrame then (statusSuccess, c, t)
  else
    sendFrames maxPayloadPerFrame frameBufferLength finalFragment .continuation
      (message.drop maxPayloadPerFrame) (fun _ => hmax (by rintro rfl; simp_all)) c t
termination_by message.length
decreasing_by
  have : message ≠ [] := by rintro rfl; simp_all
  have := hmax this
  rw [List.length_drop]
  omega

def textFragment (c : WebSocketClient) (opcode : WebSocketOpcode) : Bool :=
  opcode == .text || (opcode == .continuation && c.sendFragmentOpcode == .text)

def fragmentUtf8 (opcode : WebSocketOpcode) (message : Bytes) (finalFragment : Bool)
    (c : WebSocketClient) : Except NTSTATUS Utf8State :=
  if textFragment c opcode then
    advanceUtf8State message finalFragment (if opcode = .text then {} else c.sendTextUtf8)
  else .ok c.sendTextUtf8

/-- The checks of `SendFrame` before its loop, with the UTF-8 state after the fragment. -/
def checkSendFrame (opcode : WebSocketOpcode) (message : Bytes) (frameBufferLength : ℕ)
    (finalFragment : Bool) (c : WebSocketClient) : Except NTSTATUS Utf8State :=
  if ¬ c.connected then .error (notConnected c)
  else if frameBufferLength = 0 then .error statusInvalidParameter
  else if (opcode == .continuation) ≠ c.sendFragmentOpen then .error statusInvalidDeviceState
  else if opcode ≠ .continuation ∧ opcode ≠ .text ∧ opcode ≠ .binary then
    .error statusInvalidParameter
  else if c.closeSent ∨ c.closeReceived then .error statusInvalidDeviceState
  else
    match fragmentUtf8 opcode message finalFragment c with
    | .error status => .error status
    | .ok utf8 =>
      if message ≠ [] ∧ maxPayloadForFrameBuffer frameBufferLength = 0 then
        .error statusBufferTooSmall
      else .ok utf8

theorem checkSendFrame_ok {opcode : WebSocketOpcode} {message : Bytes} {frameBufferLength : ℕ}
    {finalFragment : Bool} {c : WebSocketClient} {utf8 : Utf8State}
    (h : checkSendFrame opcode message frameBufferLength finalFragment c = .ok utf8) :
    c.connected = true ∧ (opcode == .continuation) = c.sendFragmentOpen ∧
      (opcode = .continuation ∨ opcode = .text ∨ opcode = .binary) ∧
      fragmentUtf8 opcode message finalFragment c = .ok utf8 ∧
      (message ≠ [] → 0 < maxPayloadForFrameBuffer frameBufferLength) := by
  unfold checkSendFrame at h
  split_ifs at h with h1 h2 h3 h4 h5 h6
  · split at h <;> cases h
  · split at h
    · cases h
    · rename_i utf8' hu
      obtain rfl := Except.ok.inj h
      refine ⟨by simpa using h1, by simpa using h3, ?_, hu, fun hm => ?_⟩
      · by_contra hop
        simp only [not_or] at hop
        exact h4 ⟨hop.1, hop.2.1, hop.2.2⟩
      · exact Nat.pos_of_ne_zero fun h0 => h6 ⟨hm, h0⟩

/-- The members after the frames of a fragment have been sent. -/
def afterFragment (opcode : WebSocketOpcode) (finalFragment : Bool) (utf8 : Utf8State)
    (c : WebSocketClient) : WebSocketClient :=
  if finalFragment then resetSendFragment c
  else
    { c with
      sendFragmentOpen := true
      sendFragmentOpcode := if opcode = .continuation then c.sendFragmentOpcode else opcode
      sendTextUtf8 := if textFragment c opcode then utf8 else {} }

/-- A frame of a message, in the state that the ones before have left. -/
def sendFrame (opcode : WebSocketOpcode) (message : Bytes) (frameBufferLength : ℕ)
    (finalFragment : Bool) (c : WebSocketClient) (t : Transport) :
    NTSTATUS × WebSocketClient × Transport :=
  match hc : checkSendFrame opcode message frameBufferLength finalFragment c with
  | .error status => (status, c, t)
  | .ok utf8 =>
    let (status, c, t) := sendFrames (maxPayloadForFrameBuffer frameBufferLength)
      frameBufferLength finalFragment opcode message (checkSendFrame_ok hc).2.2.2.2 c t
    if ¬ ntSuccess status then (status, c, t)
    else (statusSuccess, afterFragment opcode finalFragment utf8 c, t)

def sendText := sendFrame .text

def sendBinary := sendFrame .binary

def sendContinuation := sendFrame .continuation

def sendPing := sendControlFrame .ping

def sendPong := sendControlFrame .pong

end KernelHttp.WebSocket
