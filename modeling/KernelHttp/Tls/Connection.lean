/-
  A TLS connection (`tls/TlsConnection.cpp`): records and handshake messages over a transport, and
  what an established connection sends and receives.

  What the object uses is given (`Environment`); `History` only records what has passed.
-/
import KernelHttp.Lib.Program
import KernelHttp.Tls.KeySchedule

namespace KernelHttp.Tls

open BigEndian

def tlsHandshakeBufferLength : ℕ := 8192
def tlsApplicationBufferLength : ℕ := tlsMaxPlaintextLength + 1
def tlsApplicationMaxEmptyRecords : ℕ := 16
def tlsApplicationMaxPostHandshakeRecords : ℕ := 16
def tlsHandshakeMaxRecords : ℕ := 64
def tlsMaxPostHandshakeMessagesPerRecord : ℕ := 8
def hardMaxConnectionFrames : ℕ := 2 ^ 20
def tls12MaxTicketLength : ℕ := 256

/-- `STATUS_ACCESS_VIOLATION`: a write through a null pointer ends the program. -/
def statusAccessViolation : NTSTATUS := 0xC0000005

@[simp] theorem ntSuccess_accessViolation : ntSuccess statusAccessViolation = false := rfl

/-! ## The environment -/

/-- What a read of the transport brings: octets, or a failure.  No octets at all are the end
of the stream. -/
inductive TransportRead where
  | octets (data : Bytes)
  | failed (status : FailureStatus)

/-- `TlsClientCredential`; `allows` is the policy together with what its key can sign. -/
structure TlsClientCredential where
  certificateList : Bytes
  supportedSignatureSchemes : List TlsSignatureScheme
  allows : TlsPolicy → TlsSignatureScheme → Bool
  sign : TlsSignatureScheme → Bytes → Except FailureStatus Bytes

/-- `TlsClientConnectionOptions`, as far as TLS 1.3 reads them. -/
structure TlsClientConnectionOptions where
  serverName : Bytes
  alpnProtocols : List Bytes := []
  policy : TlsPolicy := {}
  sessionCache : Option (List Tls13SessionTicket) := none
  enableSessionResumption : Bool := true
  enableEarlyData : Bool := false
  earlyDataReplaySafe : Bool := false
  earlyData : Option Bytes := none
  recordPaddingLength : ℕ := 0

structure KeyExchangeKeyPair where
  group : TlsNamedGroup
  publicKey : Bytes
  privateKey : Bytes
deriving DecidableEq

/-- What a connection is given.  The platform, the clock and the transport answer each call by
its number. -/
structure Environment where
  keys : KeyFunctions
  cng : Cng
  answers : ℕ → CngAnswers
  sends : ℕ → NTSTATUS
  currentMilliseconds : ℕ → UInt64
  generateRandom : Except FailureStatus { random : Bytes // random.length = tlsRandomLength }
  generateKeyPair : TlsNamedGroup → Except FailureStatus KeyExchangeKeyPair
  deriveSharedSecret : KeyExchangeKeyPair → (peerKey : Bytes) → Except FailureStatus Bytes
  serverPublicKey : Type
  validateTls13Certificate : TlsClientConnectionOptions → Tls13CertificateView →
    Except FailureStatus serverPublicKey
  verifySignature : serverPublicKey → TlsSignatureScheme → (input signature : Bytes) →
    Except FailureStatus Unit
  clientCredential : Option TlsClientCredential

/-! ## The history -/

/-- The two ends. -/
inductive Sender where
  | client
  | server
deriving DecidableEq, Repr

/-- A handshake message that was sent or processed.  An epoch is a number of changes of the
read key; each octet of a received message has the epoch that it arrived under, and the message
the one that it was processed under. -/
structure HandshakeEntry where
  sender : Sender
  octets : Bytes
  octetEpochs : List ℕ := []
  readEpoch : ℕ := 0
deriving DecidableEq, Repr

/-- A record that was sent, with the state that it was protected under. -/
structure SentRecord where
  contentType : TlsContentType
  fragment : Bytes
  protection : Option TlsAeadCipherState
deriving DecidableEq

/-- What has passed: the handshake messages, the records sent and received, how often the
transport has reported the end of the connection, and the epoch of reading.  The octets of the
handshake buffer have their epochs, and so have those behind the messages that were taken from
a post-handshake record; at each change of the read key they are counted. -/
structure History where
  messages : List HandshakeEntry := []
  sent : List SentRecord := []
  received : List TlsMutablePlaintextRecord := []
  disconnects : ℕ := 0
  readEpoch : ℕ := 0
  bufferEpochs : List ℕ := []
  recordEpochs : List ℕ := []
  leftovers : List ℕ := []
deriving DecidableEq

/-! ## The state -/

/-- `TlsConnection` with its transport.  `handshakeBuffer` is the buffer up to
`handshakeLength_`; it is a null pointer unless it is present. -/
structure TlsConnection where
  context : TlsContext := {}
  clientWriteState : TlsAeadCipherState := {}
  serverWriteState : TlsAeadCipherState := {}
  transcriptAlgorithm : HashAlgorithm := .sha256
  transcript : Bytes := []
  inputBuffer : Bytes := []
  plaintext : Bytes := []
  recordsRead : ℕ := 0
  handshakeBufferPresent : Bool := false
  handshakeBuffer : Bytes := []
  handshakeConsumed : ℕ := 0
  lastHandshake : Bytes := []
  encrypted : Bool := false
  tls13RecordProtection : Bool := false
  recordPaddingLength : ℕ := 0
  postHandshakeClientAuthAllowed : Bool := false
  peerRequestedKeyUpdate : Bool := false
  policy : TlsPolicy := {}
  policyIdentity : ℕ := 0
  ticketServerName : Option Bytes := none
  negotiatedAlpn : Bytes := []
  externalSessionCache : Option (List Tls13SessionTicket) := none
  tls12PendingTicket : Bytes := []
  tls12PendingTicketLifetimeHintSeconds : ℕ := 0
  incoming : List TransportRead := []
  calls : ℕ := 0
  history : History := {}

/-- A function of the source that changes the connection and may fail. -/
abbrev TlsProgram := EStateM NTSTATUS TlsConnection

/-- A call that may fail with a status. -/
def ofFailure {α : Type} : Except FailureStatus α → TlsProgram α
  | .ok a => pure a
  | .error failure => throw failure.val

namespace TlsConnection

open Program

variable (E : Environment)

/-! ## Transport -/

/-- The loop of `ReadExact` over what the transport brings.  A read never brings more than it
is asked for; what a failed call had already read is lost. -/
def receiveExactly : List TransportRead → ℕ → Except NTSTATUS Bytes × List TransportRead
  | incoming, 0 => (.ok [], incoming)
  | [], _ + 1 => (.error statusIoTimeout, [])
  | .failed status :: rest, _ + 1 => (.error status.val, rest)
  | .octets data :: rest, n + 1 =>
    if data = [] then (.error statusConnectionDisconnected, rest)
    else if n + 1 < data.length then
      (.ok (data.take (n + 1)), .octets (data.drop (n + 1)) :: rest)
    else
      match receiveExactly rest (n + 1 - data.length) with
      | (.ok more, rest) => (.ok (data ++ more), rest)
      | (.error status, rest) => (.error status, rest)

/-- A failure of the transport: the end of the connection is counted in the history. -/
def transportFailed {α : Type} (status : NTSTATUS) : TlsProgram α := do
  modify fun s =>
    { s with history :=
      { s.history with
        disconnects := s.history.disconnects +
          if status = statusConnectionDisconnected then 1 else 0 } }
  throw status

/-- Reads on until all octets are there; what has come is lost on a failure. -/
def readExact (length : ℕ) : TlsProgram Bytes := do
  let s ← get
  set { s with incoming := (receiveExactly s.incoming length).2 }
  match (receiveExactly s.incoming length).1 with
  | .ok data => return data
  | .error status => transportFailed status

/-- `SendAll`, up to what the transport answers. -/
def sendAll : TlsProgram Unit := do
  let s ← get
  set { s with calls := s.calls + 1 }
  if ntSuccess (E.sends s.calls) then pure () else transportFailed (E.sends s.calls)

def recordSent (record : SentRecord) : TlsProgram Unit :=
  modify fun s => { s with history := { s.history with sent := s.history.sent ++ [record] } }

/-! ## Sending records -/

/-- `SendPlainRecordWithVersion` with version 3.3; `EncodePlaintext` checks the record. -/
def sendPlainRecord (contentType : TlsContentType) (fragment : Bytes) : TlsProgram Unit := do
  require (validPlaintextRecord { contentType, fragment }) statusInvalidParameter
  require (tlsRecordHeaderLength + fragment.length ≤ tlsIoBufferLength) statusBufferTooSmall
  recordSent ⟨contentType, fragment, none⟩
  sendAll E

/-- What the three forms of a protected record share: the record is made, and sent. -/
def sendRecord (protection : Protection) (plaintext : TlsPlaintextRecord) : TlsProgram Unit := do
  let s ← get
  let result := protection.protect E.cng
    ⟨plaintext, tlsIoBufferLength, tlsMaxPlaintextLength + 1, E.answers s.calls⟩
    s.clientWriteState
  set { s with clientWriteState := result.state, calls := s.calls + 1 }
  require (ntSuccess result.status) result.status
  recordSent ⟨plaintext.contentType, plaintext.fragment, some s.clientWriteState⟩
  sendAll E

def sendProtectedRecord (contentType : TlsContentType) (fragment : Bytes) :
    TlsProgram Unit := do
  let s ← get
  sendRecord E (if s.clientWriteState.encryptThenMac then .aesCbcEncryptThenMac else .aesGcm)
    { contentType, fragment }

def sendProtectedRecord13 (contentType : TlsContentType) (fragment : Bytes) :
    TlsProgram Unit := do
  let s ← get
  sendRecord E .aesGcm13 { contentType, fragment, tls13PaddingLength := s.recordPaddingLength }

/-- `UpdateTls13ApplicationTrafficSecret` for the direction that the client writes. -/
def updateClientTrafficSecret : TlsProgram Unit := do
  let s ← get
  let (context, state) ← ofExcept (s.context.updateTls13ApplicationTrafficSecret E.keys true)
  set { s with context, clientWriteState := state }

/-- The answer to update_requested, under the old key; then the key changes. -/
def sendPendingTls13KeyUpdate : TlsProgram Unit := do
  let s ← get
  set { s with peerRequestedKeyUpdate := false }
  when s.peerRequestedKeyUpdate do
    sendProtectedRecord13 E .handshake (encodeKeyUpdate .updateNotRequested)
    updateClientTrafficSecret E

/-! ## Reading records -/

/-- The first turn of `ReadRecord`: the header. -/
def readRecordHeader : TlsProgram Unit := do
  let s ← get
  when (s.inputBuffer.length < tlsRecordHeaderLength) do
    let data ← readExact (tlsRecordHeaderLength - s.inputBuffer.length)
    modify fun s => { s with inputBuffer := s.inputBuffer ++ data }

def recordLength (inputBuffer : Bytes) : ℕ :=
  tlsRecordHeaderLength + ofBigEndian ((inputBuffer.drop 3).take 2)

/-- `RecordReceivedTlsRecord`; there is no limit on octets. -/
def recordReceivedTlsRecord : TlsProgram Unit := do
  let s ← get
  require (s.recordsRead < hardMaxConnectionFrames) statusInvalidNetworkResponse
  set { s with recordsRead := s.recordsRead + 1 }

/-- The rest of a record behind its header. -/
def readFragment : TlsProgram Unit := do
  let s ← get
  let data ← readExact (recordLength s.inputBuffer - s.inputBuffer.length)
  modify fun s => { s with inputBuffer := s.inputBuffer ++ data }

/-- The second turn of `ReadRecord`: the fragment, unless there is none to wait for. -/
def readRecordFragment : TlsProgram Unit := do
  let s ← get
  match parseRecord s.inputBuffer with
  | .ok _ => pure ()
  | .error status => do
    require (status = statusMoreProcessingRequired) status
    require (recordLength s.inputBuffer ≤ tlsRecordHeaderLength + (tlsMaxPlaintextLength + 2048))
      statusInvalidNetworkResponse
    require (recordLength s.inputBuffer ≤ tlsIoBufferLength) statusBufferTooSmall
    recordReceivedTlsRecord
    readFragment

def readProtection (s : TlsConnection) : Protection :=
  if s.tls13RecordProtection then .aesGcm13
  else if s.serverWriteState.encryptThenMac then .aesCbcEncryptThenMac
  else .aesGcm

/-- Opens a record with the read key of the connection. -/
def unprotectRecord (view : TlsRecordView) : TlsProgram TlsMutablePlaintextRecord := do
  let s ← get
  let result := s.readProtection.unprotect E.cng (E.answers s.calls) view s.serverWriteState
    tlsApplicationBufferLength
  set { s with serverWriteState := result.state, calls := s.calls + 1 }
  require (ntSuccess result.status) result.status
  modify fun s => { s with plaintext := [] }
  return result.output

def plainRecord (view : TlsRecordView) : TlsProgram TlsMutablePlaintextRecord := do
  require (view.fragment.length ≤ tlsMaxPlaintextLength) statusInvalidNetworkResponse
  require (view.fragment.length ≤ tlsApplicationBufferLength) statusBufferTooSmall
  modify fun s => { s with plaintext := [] }
  return ⟨view.contentType, view.version, view.fragment⟩

/-- The record, once it is all there. -/
def openRecord (view : TlsRecordView) : TlsProgram TlsMutablePlaintextRecord := do
  let s ← get
  if s.encrypted ∧ view.contentType ≠ .changeCipherSpec then unprotectRecord E view
  else plainRecord view

/-- The record leaves the input buffer. -/
def recordTaken (view : TlsRecordView) (record : TlsMutablePlaintextRecord)
    (s : TlsConnection) : TlsConnection :=
  { s with
    inputBuffer := s.inputBuffer.drop view.bytesConsumed
    history := { s.history with received := s.history.received ++ [record] } }

/-- The last turn of `ReadRecord`. -/
def takeRecord : TlsProgram TlsMutablePlaintextRecord := do
  let s ← get
  let view ← ofExcept (parseRecord s.inputBuffer)
  let record ← openRecord E view
  modify (recordTaken view record)
  return record

/-- `ReadRecord`.  Its loop makes at most three turns: a header, a fragment, and the record. -/
def readRecord : TlsProgram TlsMutablePlaintextRecord := do
  readRecordHeader
  readRecordFragment
  takeRecord E

/-! ## Transcript -/

def appendTranscript (data : Bytes) : TlsProgram Unit :=
  modify fun s => { s with transcript := s.transcript ++ data }

/-- `FinishTranscript`: the hash of the transcript so far. -/
def finishTranscript : TlsProgram Bytes := do
  let s ← get
  return E.keys.hash s.transcriptAlgorithm s.transcript

def recordMessage (entry : HandshakeEntry) : TlsProgram Unit :=
  modify fun s =>
    { s with history := { s.history with messages := s.history.messages ++ [entry] } }

/-- A handshake message of the client under TLS 1.3: into the transcript, then out. -/
def sendHandshake13 (message : Bytes) : TlsProgram Unit := do
  appendTranscript message
  recordMessage { sender := .client, octets := message }
  sendProtectedRecord13 E .handshake message

/-- The epochs of the handshake octets that were received and not yet processed. -/
def unreadEpochs (s : TlsConnection) : List ℕ :=
  s.history.bufferEpochs.drop s.handshakeConsumed ++ s.history.recordEpochs

/-- The state behind a change of the read key: the unread octets are counted. -/
def keyChanged (s : TlsConnection) : TlsConnection :=
  { s with history :=
    { s.history with
      readEpoch := s.history.readEpoch + 1
      leftovers := s.history.leftovers ++ [s.unreadEpochs.length] } }

def recordKeyChange : TlsProgram Unit := modify keyChanged

/-! ## Reading handshake messages -/

/-- The handshake octets that no message has taken. -/
def unread (s : TlsConnection) : Bytes := s.handshakeBuffer.drop s.handshakeConsumed

/-- `ParseMessage` on the handshake buffer; a null pointer is refused, unless it was moved. -/
def parseBuffered (s : TlsConnection) : Except NTSTATUS TlsHandshakeMessageView :=
  if s.handshakeBufferPresent then parseMessage s.unread
  else if s.handshakeConsumed = 0 then .error statusInvalidParameter
  else .error statusAccessViolation

/-- The unread octets move to the front of the handshake buffer. -/
def compact (s : TlsConnection) : TlsConnection :=
  { s with
    handshakeBuffer := s.unread
    handshakeConsumed := 0
    history := { s.history with bufferEpochs := s.history.bufferEpochs.drop s.handshakeConsumed } }

/-- What follows a message that does not parse: it may not all be there yet. -/
def keepIncomplete (status : NTSTATUS) : TlsProgram Unit := do
  require (status = statusMoreProcessingRequired) status
  modify compact

/-- Octets behind those in the handshake buffer. -/
def buffer (fragment : Bytes) (s : TlsConnection) : TlsConnection :=
  { s with
    handshakeBuffer := s.handshakeBuffer ++ fragment
    history :=
      { s.history with
        bufferEpochs :=
          s.history.bufferEpochs ++ List.replicate fragment.length s.history.readEpoch } }

/-- The record that `ReadHandshakeMessage` waits for. -/
def bufferHandshakeRecord : TlsProgram Unit := do
  let record ← readRecord E
  require (record.contentType ≠ .alert) statusInvalidNetworkResponse
  let s ← get
  require (record.contentType = .handshake ∧
    record.fragment.length ≤ tlsHandshakeBufferLength - s.handshakeBuffer.length)
    statusInvalidNetworkResponse
  set (s.buffer record.fragment)

/-- `n` octets of the handshake buffer are a message: the entry of the history. -/
def receivedEntry (s : TlsConnection) (n : ℕ) : HandshakeEntry where
  sender := .server
  octets := s.unread.take n
  octetEpochs := (s.history.bufferEpochs.drop s.handshakeConsumed).take n
  readEpoch := s.history.readEpoch

/-- `n` octets of the handshake buffer are taken; an empty buffer starts at the front again. -/
def consume (n : ℕ) (s : TlsConnection) : TlsConnection :=
  if s.handshakeConsumed + n = s.handshakeBuffer.length then
    { s with
      handshakeBuffer := []
      handshakeConsumed := 0
      history := { s.history with bufferEpochs := [] } }
  else { s with handshakeConsumed := s.handshakeConsumed + n }

/-- The end of `ReadHandshakeMessage`. -/
def takeHandshakeMessage (parsed : TlsHandshakeMessageView) (updateTranscript : Bool) :
    TlsProgram TlsHandshakeMessageView := do
  let s ← get
  let octets := s.unread.take parsed.bytesConsumed
  when updateTranscript (appendTranscript octets)
  recordMessage (s.receivedEntry parsed.bytesConsumed)
  modify fun s => { s.consume parsed.bytesConsumed with lastHandshake := octets }
  return parsed

/-- The loop of `ReadHandshakeMessage`, with the records that it may still read. -/
def readHandshakeMessageFrom (updateTranscript : Bool) :
    ℕ → TlsProgram TlsHandshakeMessageView
  | 0 => do
    let s ← get
    match parseBuffered s with
    | .ok parsed => takeHandshakeMessage parsed updateTranscript
    | .error status => do
      keepIncomplete status
      throw statusInvalidNetworkResponse
  | records + 1 => do
    let s ← get
    match parseBuffered s with
    | .ok parsed => takeHandshakeMessage parsed updateTranscript
    | .error status => do
      keepIncomplete status
      bufferHandshakeRecord E
      readHandshakeMessageFrom updateTranscript records

/-- `ReadHandshakeMessage`, `ReadHandshakeMessage13`. -/
def readHandshakeMessage (updateTranscript : Bool) : TlsProgram TlsHandshakeMessageView := do
  modify fun s => { s with lastHandshake := [] }
  readHandshakeMessageFrom E updateTranscript tlsHandshakeMaxRecords

end TlsConnection

end KernelHttp.Tls
