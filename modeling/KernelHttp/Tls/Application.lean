/-
  What an established TLS connection sends and receives
  (`TlsConnection::Send`, `TlsConnection::Receive`), with the tickets, the key updates and the
  client authentication that may come in between.
-/
import KernelHttp.Tls.Connection

namespace KernelHttp.Tls

open BigEndian Program

namespace TlsConnection

variable (E : Environment)

/-! ## Tickets -/

/-- The ticket that `StoreTls13Ticket` makes, without its secret. -/
def ticketOf (s : TlsConnection) (now : UInt64) (serverName : Bytes)
    (ticket : Tls13NewSessionTicketView) : Tls13SessionTicket where
  identity := ticket.ticket
  nonce := ticket.nonce
  lifetimeSeconds := ticket.lifetimeSeconds
  ageAdd := UInt32.ofNat ticket.ageAdd
  maxEarlyDataSize := ticket.maxEarlyDataSize
  issueTimeMilliseconds := now
  serverName := serverName
  alpn := s.negotiatedAlpn
  cipherSuite := s.context.cipherSuite
  resumptionSecret := []
  policyIdentity := s.policyIdentity

/-- A ticket that is not stored, and not an error either. -/
def uncacheable (s : TlsConnection) (ticket : Tls13NewSessionTicketView) : Bool :=
  ticket.lifetimeSeconds = 0 || ticket.lifetimeSeconds > tls13MaxTicketLifetimeSeconds ||
    s.ticketServerName.all (· = []) || s.negotiatedAlpn.length > tls13MaxTicketAlpnLength ||
    ticket.ticket.length > tls13MaxTicketIdentityLength ||
    ticket.nonce.length > tls13MaxTicketNonceLength

def storeTls13Ticket (ticket : Tls13NewSessionTicketView) : TlsProgram Unit := do
  require (ticket.ticket ≠ []) statusInvalidParameter
  let s ← get
  when (s.uncacheable ticket = false) do
    let secret ← ofExcept (s.context.deriveTls13ResumptionSecret E.keys ticket.nonce)
    let stored := { s.ticketOf (E.currentMilliseconds s.calls) (s.ticketServerName.getD []) ticket
      with resumptionSecret := secret }
    let context ← ofExcept (s.context.storeTls13Ticket stored)
    set { s with
      context
      externalSessionCache := s.externalSessionCache.map (TlsContext.storedIn · stored) }

/-! ## The client's certificate -/

def signatureListContains : Bytes → TlsSignatureScheme → Bool
  | hi :: lo :: rest, scheme =>
    ofBigEndian [hi, lo] = scheme.value || signatureListContains rest scheme
  | _, _ => false

/-- `FindTls13CertificateRequestSignatureAlgorithms`. -/
def findCertificateRequestSignatureAlgorithms (request : Tls13CertificateRequestView) :
    Except NTSTATUS Bytes := do
  match ← findExtension request.extensions extensionSignatureAlgorithms with
  | none => .ok []
  | some data => do
    let (vectorLength, schemes) ← readUint16 data
    ensure (vectorLength = schemes.length ∧ vectorLength % 2 = 0) statusInvalidNetworkResponse
    return schemes

/-- The credential with the scheme of `SelectClientCredentialSignatureScheme`; none where the
client answers with an empty certificate list. -/
def selectClientCredential (policy : TlsPolicy) (peerSchemes : Bytes) :
    Except NTSTATUS (Option (TlsClientCredential × TlsSignatureScheme)) :=
  match E.clientCredential with
  | none => .ok none
  | some credential =>
    if credential.certificateList = [] then .ok none
    else if credential.supportedSignatureSchemes = [] then .error statusInvalidParameter
    else
      .ok ((credential.supportedSignatureSchemes.find? fun candidate =>
        credential.allows policy candidate &&
          (peerSchemes = [] || signatureListContains peerSchemes candidate)).map (credential, ·))

def sendClientCertificateVerify (credential : TlsClientCredential) (scheme : TlsSignatureScheme)
    (capacity : ℕ) : TlsProgram Unit := do
  let transcriptHash ← finishTranscript E
  let signature ← ofFailure
    (credential.sign scheme (buildCertificateVerifyInput false transcriptHash))
  let message ← ofExcept (encodeCertificateVerify scheme signature capacity)
  sendHandshake13 E message

def sendClientCertificate (requestContext : Bytes)
    (selected : Option (TlsClientCredential × TlsSignatureScheme)) (capacity : ℕ) :
    TlsProgram Unit :=
  match selected with
  | none => do
    let message ← ofExcept (encodeCertificate requestContext [] capacity)
    sendHandshake13 E message
  | some (credential, scheme) => do
    let message ←
      ofExcept (encodeCertificate requestContext credential.certificateList capacity)
    sendHandshake13 E message
    sendClientCertificateVerify E credential scheme capacity

def sendClientFinished (capacity : ℕ) : TlsProgram Unit := do
  let transcriptHash ← finishTranscript E
  let s ← get
  let message ← ofExcept (s.context.encodeFinished E.keys true transcriptHash capacity)
  sendHandshake13 E message

/-! ## Post-handshake messages -/

def postHandshakeEntry (s : TlsConnection) (octets : Bytes) : HandshakeEntry where
  sender := .server
  octets := octets
  octetEpochs := s.history.recordEpochs.take octets.length
  readEpoch := s.history.readEpoch

/-- A message of a post-handshake record is processed. -/
def postHandshakeTaken (octets : Bytes) (s : TlsConnection) : TlsConnection :=
  { s with history :=
    { s.history with
      messages := s.history.messages ++ [s.postHandshakeEntry octets]
      recordEpochs := s.history.recordEpochs.drop octets.length } }

/-- The octets of a post-handshake record have arrived under the current key. -/
def postHandshakeArrived (fragment : Bytes) (s : TlsConnection) : TlsConnection :=
  { s with history :=
    { s.history with
      recordEpochs := List.replicate fragment.length s.history.readEpoch } }

/-- NewSessionTicket. -/
def processNewSessionTicket (message : TlsHandshakeMessageView) : TlsProgram Unit := do
  let ticket ← ofExcept (parseNewSessionTicket message)
  storeTls13Ticket E ticket

/-- `UpdateTls13ApplicationTrafficSecret` for the direction that the client reads. -/
def updateServerTrafficSecret : TlsProgram Unit := do
  let s ← get
  let (context, state) ← ofExcept (s.context.updateTls13ApplicationTrafficSecret E.keys false)
  set { s with context, serverWriteState := state }
  recordKeyChange

/-- KeyUpdate; only the first one of a record changes the key. -/
def processKeyUpdate (message : TlsHandshakeMessageView) (keyUpdated : Bool) :
    TlsProgram Tls13KeyUpdateRequest := do
  let request ← ofExcept (parseKeyUpdate message)
  when (keyUpdated = false) (updateServerTrafficSecret E)
  return request

/-- CertificateRequest; the client answers at once. -/
def processCertificateRequest (message : TlsHandshakeMessageView) (octets : Bytes) :
    TlsProgram Unit := do
  let s ← get
  require s.postHandshakeClientAuthAllowed statusNotSupported
  let request ← ofExcept (parseCertificateRequest message)
  require (request.context ≠ []) statusInvalidNetworkResponse
  let peerSchemes ← ofExcept (findCertificateRequestSignatureAlgorithms request)
  let selected ← ofExcept (selectClientCredential E s.policy peerSchemes)
  appendTranscript octets
  sendClientCertificate E request.context selected tlsHandshakeBufferLength
  sendClientFinished E tlsHandshakeBufferLength

/-- What the loop of `ConsumeTls13PostHandshakeRecord` keeps. -/
structure PostHandshakeFlags where
  keyUpdated : Bool := false
  updateRequested : Bool := false
deriving DecidableEq

/-- A ticket, a KeyUpdate (which counts once a record) or a CertificateRequest. -/
def processPostHandshakeMessage (message : TlsHandshakeMessageView) (octets : Bytes)
    (flags : PostHandshakeFlags) : TlsProgram PostHandshakeFlags :=
  if message.type = .newSessionTicket then do
    processNewSessionTicket E message
    return flags
  else if message.type = .keyUpdate then do
    let request ← processKeyUpdate E message flags.keyUpdated
    return ⟨true, flags.updateRequested || request = .updateRequested⟩
  else if message.type = .certificateRequest then do
    processCertificateRequest E message octets
    return flags
  else throw statusNotSupported

/-- The loop of `ConsumeTls13PostHandshakeRecord`, with the messages that it may still take. -/
def consumePostHandshakeMessages :
    ℕ → Bytes → PostHandshakeFlags → TlsProgram PostHandshakeFlags
  | _, [], flags => return flags
  | 0, _ :: _, _ => throw statusInvalidNetworkResponse
  | messages + 1, fragment, flags =>
    match parseMessage fragment with
    | .error _ => throw statusInvalidNetworkResponse
    | .ok message => do
      let octets := fragment.take message.bytesConsumed
      modify (postHandshakeTaken octets)
      let flags ← processPostHandshakeMessage E message octets flags
      consumePostHandshakeMessages messages (fragment.drop message.bytesConsumed) flags

/-- The messages of a record, each with the flags of the ones before. -/
def consumeTls13PostHandshakeRecord (fragment : Bytes) : TlsProgram Unit := do
  require (fragment ≠ []) statusInvalidNetworkResponse
  modify (postHandshakeArrived fragment)
  let flags ← consumePostHandshakeMessages E tlsMaxPostHandshakeMessagesPerRecord fragment {}
  when flags.updateRequested (modify fun s => { s with peerRequestedKeyUpdate := true })

/-! ## Handshake records of TLS 1.2 -/

/-- `TlsHandshake12::ParseNewSessionTicket`: the lifetime hint and the ticket. -/
def parseTls12NewSessionTicket (message : TlsHandshakeMessageView) :
    Except NTSTATUS (ℕ × Bytes) := do
  ensure (message.type = .newSessionTicket) statusInvalidNetworkResponse
  let (lifetimeHintSeconds, rest) ← readUint32 message.body
  let (ticketLength, rest) ← readUint16 rest
  ensure (ticketLength = rest.length) statusInvalidNetworkResponse
  return (lifetimeHintSeconds, rest)

/-- A message of `ConsumeOptionalPlainHandshakeRecord`. -/
def takePlainHandshakeMessage (parsed : TlsHandshakeMessageView) : TlsProgram Unit := do
  let (lifetimeHintSeconds, ticket) ← ofExcept (parseTls12NewSessionTicket parsed)
  when (ticket ≠ [] ∧ ticket.length ≤ tls12MaxTicketLength) (modify fun s =>
    { s with
      tls12PendingTicket := ticket
      tls12PendingTicketLifetimeHintSeconds := lifetimeHintSeconds })
  let s ← get
  appendTranscript (s.unread.take parsed.bytesConsumed)
  recordMessage (s.receivedEntry parsed.bytesConsumed)
  modify (consume parsed.bytesConsumed)

/-- The loop of `ConsumeOptionalPlainHandshakeRecord`, with the messages that it may still
take. -/
def consumePlainHandshakeMessages : ℕ → TlsProgram Unit
  | 0 => do
    let s ← get
    match parseBuffered s with
    | .error status => keepIncomplete status
    | .ok _ => throw statusInvalidNetworkResponse
  | messages + 1 => do
    let s ← get
    match parseBuffered s with
    | .error status => keepIncomplete status
    | .ok parsed => do
      takePlainHandshakeMessage parsed
      let s ← get
      when (s.handshakeBuffer ≠ []) (consumePlainHandshakeMessages messages)

/-- `ConsumeOptionalPlainHandshakeRecord`: the octets are copied behind those in the handshake
buffer, which is a null pointer once `Connect` has ended. -/
def consumeOptionalPlainHandshakeRecord (fragment : Bytes) : TlsProgram Unit := do
  let s ← get
  require (fragment ≠ [] ∧
    fragment.length ≤ tlsHandshakeBufferLength - s.handshakeBuffer.length)
    statusInvalidNetworkResponse
  require s.handshakeBufferPresent statusAccessViolation
  modify (buffer fragment)
  consumePlainHandshakeMessages tlsMaxPostHandshakeMessagesPerRecord

/-! ## Sending -/

/-- One record, under TLS 1.3 behind the KeyUpdate that is owed. -/
def sendFragment (chunk : Bytes) : TlsProgram Unit := do
  let s ← get
  if s.tls13RecordProtection then do
    sendPendingTls13KeyUpdate E
    sendProtectedRecord13 E .applicationData chunk
  else sendProtectedRecord E .applicationData chunk

/-- The octets of a fragment at most. -/
def fragmentLimit (s : TlsConnection) : ℕ :=
  if s.tls13RecordProtection then tlsMaxPlaintextLength - s.recordPaddingLength
  else tlsMaxPlaintextLength

/-- The loop of `Send`.  The padding is below the plaintext limit, so that each turn takes an
octet. -/
def sendFrom : ℕ → Bytes → TlsProgram Unit
  | _, [] => pure ()
  | 0, _ :: _ => throw statusInvalidParameter
  | fuel + 1, data => do
    let s ← get
    sendFragment E (data.take s.fragmentLimit)
    sendFrom fuel (data.drop s.fragmentLimit)

/-- The data goes out in fragments. -/
def send (data : Bytes) : TlsProgram Unit := do
  let s ← get
  require s.context.established statusInvalidParameter
  sendFrom E data.length data

/-! ## Receiving -/

/-- The alert of a record, decoded by `DecodeAlert`: the status that `Receive` returns. -/
def alertStatus (fragment : Bytes) : NTSTATUS :=
  match fragment with
  | [level, description] =>
    if level ≠ 1 ∧ level ≠ 2 then statusInvalidNetworkResponse
    else if description = 0 then statusConnectionDisconnected
    else statusInvalidNetworkResponse
  | _ => statusInvalidNetworkResponse

/-- The loop of `Receive`.  Each of its counters is at most sixteen, so that there are at most
thirty-three turns. -/
def receiveFrom (length : ℕ) : ℕ → (emptyRecords postHandshakeRecords : ℕ) → TlsProgram Bytes
  | 0, _, _ => throw statusInvalidNetworkResponse
  | turns + 1, emptyRecords, postHandshakeRecords => do
    let record ← readRecord E
    let s ← get
    if s.tls13RecordProtection ∧ record.contentType = .handshake then do
      require (postHandshakeRecords < tlsApplicationMaxPostHandshakeRecords)
        statusInvalidNetworkResponse
      consumeTls13PostHandshakeRecord E record.fragment
      receiveFrom length turns emptyRecords (postHandshakeRecords + 1)
    else if ¬ s.tls13RecordProtection ∧ s.context.protocol = .tls12 ∧
        record.contentType = .handshake then do
      require (postHandshakeRecords < tlsApplicationMaxPostHandshakeRecords)
        statusInvalidNetworkResponse
      consumeOptionalPlainHandshakeRecord record.fragment
      receiveFrom length turns emptyRecords (postHandshakeRecords + 1)
    else if record.contentType = .alert then throw (alertStatus record.fragment)
    else if ¬ s.tls13RecordProtection ∧ s.context.protocol = .tls12 ∧
        (s.handshakeBuffer ≠ [] ∨ s.handshakeConsumed ≠ 0) then
      throw statusInvalidNetworkResponse
    else if record.contentType ≠ .applicationData then throw statusInvalidNetworkResponse
    else if record.fragment = [] then do
      require (emptyRecords < tlsApplicationMaxEmptyRecords) statusInvalidNetworkResponse
      receiveFrom length turns (emptyRecords + 1) postHandshakeRecords
    else do
      modify fun s => { s with plaintext := record.fragment.drop length }
      return record.fragment.take length

/-- The turns of the loop of `Receive`. -/
def receiveTurns : ℕ := tlsApplicationMaxEmptyRecords + tlsApplicationMaxPostHandshakeRecords + 1

/-- `TlsConnection::Receive` into a buffer of `length` octets. -/
def receive (length : ℕ) : TlsProgram Bytes := do
  let s ← get
  require (s.context.established ∧ length ≠ 0) statusInvalidParameter
  if s.plaintext ≠ [] then do
    set { s with plaintext := s.plaintext.drop length }
    return s.plaintext.take length
  else receiveFrom E length receiveTurns 0 0

end TlsConnection

end KernelHttp.Tls
