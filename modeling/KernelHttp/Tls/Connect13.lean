/-
  The handshake of TLS 1.3 (`TlsConnection::ConnectTls13`).

  Each stage of the function is a program, and what it leaves to the next one is a structure.
-/
import KernelHttp.Tls.Application

namespace KernelHttp.Tls

open BigEndian Program

def tlsScratchClientHelloLength : ℕ := 4096
def tlsScratchHelloRetryLength : ℕ := 512
def maxUnsigned64 : ℕ := 2 ^ 64 - 1

/-! ## Tickets -/

/-- `IsOfferedAlpn`; no protocol is always offered. -/
def isOfferedAlpn (options : TlsClientConnectionOptions) (alpn : Bytes) : Bool :=
  alpn = [] || options.alpnProtocols.any (· = alpn)

def ticketServerNameMatches (ticket : Tls13SessionTicket)
    (options : TlsClientConnectionOptions) : Bool :=
  ticket.serverName ≠ [] && ticket.serverName.length ≤ tls13MaxTicketServerNameLength &&
    options.serverName.length ≤ tls13MaxTicketServerNameLength &&
    textEqualsIgnoreCase ticket.serverName options.serverName

def ticketAlpnMatches (ticket : Tls13SessionTicket) (options : TlsClientConnectionOptions) :
    Bool :=
  if ticket.alpn = [] then options.alpnProtocols = []
  else ticket.alpn.length ≤ tls13MaxTicketAlpnLength && isOfferedAlpn options ticket.alpn

/-- The checks of `SelectTls13Ticket` that do not look at the clock. -/
def ticketMatches (options : TlsClientConnectionOptions) (policyIdentity : ℕ)
    (ticket : Tls13SessionTicket) : Bool :=
  ticket.identity.length ≠ 0 && ticket.identity.length ≤ tls13MaxTicketIdentityLength &&
    ticket.resumptionSecret.length ≠ 0 &&
    ticket.resumptionSecret.length ≤ tls13MaxSecretLength &&
    ticket.lifetimeSeconds ≠ 0 && ticket.lifetimeSeconds ≤ tls13MaxTicketLifetimeSeconds &&
    ticket.issueTimeMilliseconds ≠ 0 && ticket.version = (3, 4) &&
    ticket.policyIdentity = policyIdentity && tls13CipherSuiteValue ticket.cipherSuite ≠ 0 &&
    ticketServerNameMatches ticket options && ticketAlpnMatches ticket options

def ticketInLifetime (now : UInt64) (ticket : Tls13SessionTicket) : Bool :=
  let expiresAt := ticket.issueTimeMilliseconds.toNat + ticket.lifetimeSeconds * 1000
  expiresAt ≤ maxUnsigned64 && ticket.issueTimeMilliseconds ≤ now && now.toNat < expiresAt

/-- `SelectTls13Ticket`: the newest ticket that can be used. -/
def selectTls13Ticket (options : TlsClientConnectionOptions) (policyIdentity : ℕ)
    (now : UInt64) : Except NTSTATUS (Option Tls13SessionTicket) :=
  let tickets := options.sessionCache.getD []
  if options.enableSessionResumption = false ∨ tickets = [] then .ok none
  else if tickets.length > tls13MaxTicketCount then .error statusInvalidParameter
  else
    .ok (tickets.reverse.find? fun ticket =>
      ticketMatches options policyIdentity ticket && ticketInLifetime now ticket)

def earlyDataAllowed (options : TlsClientConnectionOptions) (ticket : Tls13SessionTicket) :
    Bool :=
  options.enableEarlyData && options.earlyDataReplaySafe && ticket.maxEarlyDataSize ≠ 0 &&
    options.earlyData.any (·.length ≤ ticket.maxEarlyDataSize)

def pskIdentityOf (now : UInt64) (ticket : Tls13SessionTicket) : Tls13PskIdentity where
  identity := ticket.identity
  obfuscatedTicketAge := (now - ticket.issueTimeMilliseconds).toUInt32 + ticket.ageAdd
  binder := List.replicate (if ticket.cipherSuite = .tlsAes256GcmSha384 then 48 else 32) 0

/-! ## The offer -/

/-- What the client has offered, with its last ClientHello. -/
structure Tls13Offer where
  keyPair : KeyExchangeKeyPair
  hello : Tls13ClientHelloOptions
  selectedTicket : Option Tls13SessionTicket
  message : Bytes

def helloOptions (options : TlsClientConnectionOptions) (keyPair : KeyExchangeKeyPair)
    (now : UInt64) (ticket : Option Tls13SessionTicket) : Tls13ClientHelloOptions where
  serverName := options.serverName
  alpnProtocols := options.alpnProtocols
  keyShares := [⟨keyPair.group, keyPair.publicKey⟩]
  pskIdentities := (ticket.map (pskIdentityOf now)).toList
  offerEarlyData := options.enableEarlyData && ticket.any (earlyDataAllowed options)

def Tls13ClientHelloOptions.withBinder (hello : Tls13ClientHelloOptions) (binder : Bytes) :
    Tls13ClientHelloOptions :=
  { hello with pskIdentities := hello.pskIdentities.map fun psk => { psk with binder } }

def messageHash (K : KeyFunctions) (algorithm : HashAlgorithm) (clientHello : Bytes) : Bytes :=
  handshakeMessage .messageHash (K.hash algorithm clientHello)

/-- `ComputePskBinderForClientHello`; `earlier` are the messages in front of the
ClientHello. -/
def computePskBinderForClientHello (K : KeyFunctions) (context : TlsContext)
    (resumptionSecret earlier clientHello : Bytes) : Except NTSTATUS Bytes := do
  let n ← findPskBinderTranscriptLength clientHello
  context.computePskBinder K resumptionSecret
    (K.hash context.algorithm (earlier ++ clientHello.take n))

/-- A ClientHello; with a ticket it is encoded a second time, with its binder. -/
def encodeOffer (K : KeyFunctions) (context : TlsContext) (ticket : Option Tls13SessionTicket)
    (earlier : Bytes) (hello : Tls13ClientHelloOptions) :
    Except NTSTATUS (Tls13ClientHelloOptions × Bytes) := do
  let message ← encodeClientHello context.clientRandom hello tlsScratchClientHelloLength
  match ticket with
  | none => return (hello, message)
  | some ticket => do
    let binder ← computePskBinderForClientHello K context ticket.resumptionSecret earlier message
    let message ← encodeClientHello context.clientRandom (hello.withBinder binder)
      tlsScratchClientHelloLength
    return (hello.withBinder binder, message)

namespace TlsConnection

variable (E : Environment) (options : TlsClientConnectionOptions)

def withContext (f : TlsContext → Except NTSTATUS TlsContext) : TlsProgram Unit := do
  let s ← get
  let context ← ofExcept (f s.context)
  set { s with context }

/-- The start of `ConnectTls13`, with `InitializeClient13`. -/
def initializeTls13 : TlsProgram Unit := do
  modify fun s => { s with tls13RecordProtection := false, encrypted := false }
  let random ← ofFailure E.generateRandom
  modify fun s =>
    { s with
      context :=
        { protocol := .tls13, cipherSuite := .tlsAes128GcmSha256, clientRandom := random.val }
      transcriptAlgorithm := .sha256
      transcript := []
      ticketServerName :=
        if options.serverName.length ≤ tls13MaxTicketServerNameLength then
          some options.serverName
        else none }

/-- The ticket of the connection; its suite becomes the one of the context. -/
def selectTicket : TlsProgram (Option Tls13SessionTicket) := do
  let s ← get
  let ticket ← ofExcept
    (selectTls13Ticket options s.policyIdentity (E.currentMilliseconds s.calls))
  modify fun s =>
    { s with
      context :=
        ticket.elim s.context fun ticket => s.context.setCipherSuite ticket.cipherSuite }
  return ticket

/-- A ClientHello goes out. -/
def sendClientHello (message : Bytes) : TlsProgram Unit := do
  appendTranscript message
  recordMessage { sender := .client, octets := message }
  sendPlainRecord E .handshake message

/-- The first ClientHello. -/
def offerHello : TlsProgram Tls13Offer := do
  let keyPair ← ofFailure (E.generateKeyPair .x25519)
  let ticket ← selectTicket E options
  let s ← get
  let (hello, message) ← ofExcept (encodeOffer E.keys s.context ticket []
    (helloOptions options keyPair (E.currentMilliseconds s.calls) ticket))
  sendClientHello E message
  return { keyPair, hello, selectedTicket := ticket, message }

/-! ## Early data -/

def sendEarlyFrom : ℕ → Bytes → TlsProgram Unit
  | _, [] => pure ()
  | 0, _ :: _ => throw statusInvalidParameter
  | fuel + 1, data => do
    let s ← get
    let fragmentLimit := tlsMaxPlaintextLength - s.recordPaddingLength
    sendProtectedRecord13 E .applicationData (data.take fragmentLimit)
    sendEarlyFrom fuel (data.drop fragmentLimit)

/-- The keys of the early data.  The transcript is hashed with SHA-256. -/
def configureEarlyData (resumptionSecret : Bytes) : TlsProgram Unit := do
  let clientHelloHash ← finishTranscript E
  withContext (·.deriveTls13EarlySecret E.keys resumptionSecret)
  withContext (·.deriveTls13ClientEarlyTrafficSecret E.keys clientHelloHash)
  let s ← get
  let clientWriteState ← ofExcept (s.context.configureTls13EarlyAesGcmState E.keys)
  set { s with clientWriteState }

/-- The early data that is sent behind the first ClientHello. -/
def earlyDataToSend (offer : Tls13Offer) : Bytes :=
  if offer.hello.offerEarlyData ∧ options.earlyDataReplaySafe then options.earlyData.getD []
  else []

def sendEarlyData (offer : Tls13Offer) : TlsProgram Unit :=
  when (earlyDataToSend options offer ≠ []) do
    configureEarlyData E (offer.selectedTicket.elim [] (·.resumptionSecret))
    sendEarlyFrom E (earlyDataToSend options offer).length (earlyDataToSend options offer)

/-! ## The server's hello -/

def validateSelectedPskForConnection (context : TlsContext) (serverHello : Tls13ServerHelloView)
    (offer : Tls13Offer) : Except NTSTATUS Unit := do
  validateSelectedPskIdentity serverHello offer.hello.pskIdentities.length
  ensure (serverHello.selectedPskIdentity = noPskIdentity ∨ offer.selectedTicket.any fun ticket =>
    ticket.resumptionSecret ≠ [] && ticket.cipherSuite = context.cipherSuite)
    statusInvalidNetworkResponse

/-- A ServerHello, or a HelloRetryRequest where none has come yet. -/
def readServerHello (offer : Tls13Offer) (retried : Bool) : TlsProgram Tls13ServerHelloView := do
  let handshake ← readHandshakeMessage E true
  let serverHello ← ofExcept (parseServerHello handshake)
  modify fun s => { s with context := s.context.setCipherSuite serverHello.cipherSuite }
  ofExcept (validateServerHelloOffer serverHello offer.hello)
  require (¬ (retried ∧ serverHello.isHelloRetryRequest)) statusInvalidNetworkResponse
  let s ← get
  ofExcept (validateSelectedPskForConnection s.context serverHello offer)
  return serverHello

/-- The second ClientHello, behind the HelloRetryRequest that was read last. -/
def retryHello (offer : Tls13Offer) (retryGroup : TlsNamedGroup) : TlsProgram Tls13Offer := do
  let s ← get
  let helloRetryRequest := s.lastHandshake
  require (helloRetryRequest.length ≤ tlsScratchHelloRetryLength) statusBufferTooSmall
  require (retryGroup ∈ defaultNamedGroups) statusNotSupported
  let keyPair ← ofFailure (E.generateKeyPair retryGroup)
  require (offer.selectedTicket.all fun ticket => ticket.cipherSuite = s.context.cipherSuite)
    statusInvalidNetworkResponse
  let (hello, message) ← ofExcept (encodeOffer E.keys s.context offer.selectedTicket
    (messageHash E.keys s.context.algorithm offer.message ++ helloRetryRequest)
    { offer.hello with keyShares := [⟨retryGroup, keyPair.publicKey⟩] })
  sendClientHello E message
  return { keyPair, hello, selectedTicket := offer.selectedTicket, message }

/-- What the hellos have come to; `retry` are the first ClientHello and the
HelloRetryRequest. -/
structure Tls13Agreement where
  offer : Tls13Offer
  serverHello : Tls13ServerHelloView
  retry : Option (Bytes × Bytes)

/-- The ServerHello, with a HelloRetryRequest in front of it or without. -/
def exchangeHellos (offer : Tls13Offer) : TlsProgram Tls13Agreement := do
  let serverHello ← readServerHello E offer false
  if serverHello.isHelloRetryRequest then do
    let s ← get
    let retried ← retryHello E offer serverHello.retryGroup
    let serverHello ← readServerHello E retried true
    return { offer := retried, serverHello, retry := some (offer.message, s.lastHandshake) }
  else return { offer, serverHello, retry := none }

/-! ## The handshake keys -/

/-- The transcript in front of the ServerHello. -/
def Tls13Agreement.hellos (agreement : Tls13Agreement) (K : KeyFunctions)
    (algorithm : HashAlgorithm) : Bytes :=
  match agreement.retry with
  | none => agreement.offer.message
  | some (firstClientHello, helloRetryRequest) =>
    messageHash K algorithm firstClientHello ++ helloRetryRequest ++ agreement.offer.message

/-- Whether the server has taken the ticket. -/
def Tls13Agreement.resumed (agreement : Tls13Agreement) : Bool :=
  agreement.serverHello.selectedPskIdentity ≠ noPskIdentity

/-- The PSK of the key schedule; there is none in a full handshake. -/
def Tls13Agreement.psk (agreement : Tls13Agreement) : Bytes :=
  if agreement.resumed then agreement.offer.selectedTicket.elim [] (·.resumptionSecret) else []

/-- The transcript starts again, with the hash of the suite. -/
def rebuildTranscript (agreement : Tls13Agreement) : TlsProgram Unit :=
  modify fun s =>
    { s with
      transcriptAlgorithm := s.context.algorithm
      transcript := agreement.hellos E.keys s.context.algorithm ++ s.lastHandshake }

/-- `ConfigureTls13HandshakeAesGcmStates`: the records are protected from here on. -/
def configureHandshakeStates : TlsProgram Unit := do
  let s ← get
  let (clientWriteState, serverWriteState) ←
    ofExcept (s.context.configureTls13HandshakeAesGcmStates E.keys)
  set
    { s with
      clientWriteState
      serverWriteState
      encrypted := true
      tls13RecordProtection := true }
  recordKeyChange

def deriveHandshakeKeys (agreement : Tls13Agreement) : TlsProgram Unit := do
  let sharedSecret ← ofFailure
    (E.deriveSharedSecret agreement.offer.keyPair agreement.serverHello.keyShare.keyExchange)
  rebuildTranscript E agreement
  let transcriptHash ← finishTranscript E
  withContext (·.deriveTls13EarlySecret E.keys agreement.psk)
  withContext (·.deriveTls13HandshakeSecrets E.keys sharedSecret transcriptHash)
  configureHandshakeStates E

/-- The record that `ReadOptionalCompatibilityChangeCipherSpec` looks at is read, unless it is
there. -/
def readCompatibilityRecord : TlsProgram Unit := do
  let s ← get
  match parseRecord s.inputBuffer with
  | .ok _ => pure ()
  | .error status => do
    require (status = statusMoreProcessingRequired) status
    readRecordHeader
    let s ← get
    require (recordLength s.inputBuffer ≤ tlsIoBufferLength) statusBufferTooSmall
    readFragment

def readOptionalCompatibilityChangeCipherSpec : TlsProgram Unit := do
  readCompatibilityRecord
  let s ← get
  let view ← ofExcept (parseRecord s.inputBuffer)
  when (view.contentType = .changeCipherSpec) do
    require (view.fragment = [1]) statusInvalidNetworkResponse
    modify fun s => { s with inputBuffer := s.inputBuffer.drop view.bytesConsumed }

/-! ## The server's messages -/

def readEncryptedExtensions (agreement : Tls13Agreement) :
    TlsProgram Tls13EncryptedExtensionsView := do
  let handshake ← readHandshakeMessage E true
  let encryptedExtensions ← ofExcept (parseEncryptedExtensions handshake)
  when (encryptedExtensions.alpn ≠ []) do
    require (encryptedExtensions.alpn.length < 16) statusBufferTooSmall
    modify fun s => { s with negotiatedAlpn := encryptedExtensions.alpn }
    require (isOfferedAlpn options encryptedExtensions.alpn) statusNotSupported
  require (agreement.resumed → agreement.offer.selectedTicket.all fun ticket =>
    ticket.alpn = encryptedExtensions.alpn) statusInvalidNetworkResponse
  require (encryptedExtensions.earlyDataAccepted →
    agreement.offer.hello.offerEarlyData ∧ agreement.resumed) statusInvalidNetworkResponse
  return encryptedExtensions

abbrev CertificateAnswer := Option (TlsClientCredential × TlsSignatureScheme)

def readCertificateMessage : TlsProgram (Option CertificateAnswer × TlsHandshakeMessageView) := do
  let handshake ← readHandshakeMessage E true
  if handshake.type = .certificateRequest then do
    let request ← ofExcept (parseCertificateRequest handshake)
    require (request.context = []) statusInvalidNetworkResponse
    let peerSchemes ← ofExcept (findCertificateRequestSignatureAlgorithms request)
    let answer ← ofExcept (selectClientCredential E options.policy peerSchemes)
    let handshake ← readHandshakeMessage E true
    return (some answer, handshake)
  else return (none, handshake)

/-- The message that was read last enters the transcript. -/
def appendLastHandshake : TlsProgram Unit := do
  let s ← get
  appendTranscript s.lastHandshake

/-- The chain, then the signature of CertificateVerify. -/
def authenticateServer (certificateMessage : TlsHandshakeMessageView) : TlsProgram Unit := do
  let certificate ← ofExcept (parseTls13Certificate certificateMessage)
  let serverPublicKey ← ofFailure (E.validateTls13Certificate options certificate)
  let transcriptHash ← finishTranscript E
  let handshake ← readHandshakeMessage E false
  let certificateVerify ← ofExcept (parseCertificateVerify handshake)
  ofFailure (E.verifySignature serverPublicKey certificateVerify.signatureScheme
    (buildCertificateVerifyInput true transcriptHash) certificateVerify.signature)
  appendLastHandshake

/-- It is verified over the transcript in front of it. -/
def readServerFinished : TlsProgram Unit := do
  let transcriptHash ← finishTranscript E
  let handshake ← readHandshakeMessage E false
  let s ← get
  ofExcept (s.context.verifyFinished E.keys false transcriptHash handshake.body)
  appendLastHandshake

def deriveApplicationSecrets : TlsProgram Unit := do
  let transcriptHash ← finishTranscript E
  withContext (·.deriveTls13ApplicationSecrets E.keys transcriptHash)

/-! ## The client's messages -/

/-- EndOfEarlyData, the Certificate that was asked for, and Finished. -/
def sendClientFlight (earlyDataAccepted : Bool) (requested : Option CertificateAnswer) :
    TlsProgram Unit := do
  when earlyDataAccepted (sendHandshake13 E encodeEndOfEarlyData)
  match requested with
  | none => pure ()
  | some answer => sendClientCertificate E [] answer tlsScratchClientHelloLength
  sendClientFinished E tlsScratchClientHelloLength

/-- `ConfigureTls13ApplicationAesGcmStates`, and the connection is established. -/
def configureApplicationStates : TlsProgram Unit := do
  let s ← get
  let (clientWriteState, serverWriteState) ←
    ofExcept (s.context.configureTls13ApplicationAesGcmStates E.keys)
  set
    { s with
      clientWriteState
      serverWriteState
      context := { s.context with established := true } }
  recordKeyChange

/-! ## `ConnectTls13` -/

/-- The hellos, with the early data between them. -/
def negotiate : TlsProgram Tls13Agreement := do
  initializeTls13 E options
  let offer ← offerHello E options
  sendEarlyData E options offer
  exchangeHellos E offer

/-- The messages behind the hellos. -/
def finishHandshake (agreement : Tls13Agreement) : TlsProgram Unit := do
  readOptionalCompatibilityChangeCipherSpec
  let encryptedExtensions ← readEncryptedExtensions E options agreement
  let (requested, certificateMessage) ← readCertificateMessage E options
  authenticateServer E options certificateMessage
  readServerFinished E
  deriveApplicationSecrets E
  sendClientFlight E encryptedExtensions.earlyDataAccepted requested

/-- The hellos, the handshake keys, the rest of the handshake, the application keys. -/
def connectTls13 : TlsProgram Unit := do
  let agreement ← negotiate E options
  deriveHandshakeKeys E agreement
  finishHandshake E options agreement
  configureApplicationStates E

/-! ## `Connect` -/

/-- The policy of a connection, as its tickets remember it. -/
def policyIdentityOf (policy : TlsPolicy) : ℕ :=
  (if policy.profile = .modernDefault then 0 else 0x1000000) +
    (if policy.enableTls12RsaKeyExchange then 1 else 0) +
    (if policy.enableTls12Cbc then 2 else 0) +
    (if policy.enableTls12Renegotiation then 4 else 0) +
    (if policy.enablePostHandshakeClientAuth then 8 else 0) +
    (if policy.requireRevocationCheck then 16 else 0)

/-- The object behind `Reset` and the assignments of `Connect`; what has passed before is not
of this connection. -/
def prepared (s : TlsConnection) : TlsConnection where
  recordPaddingLength := options.recordPaddingLength
  postHandshakeClientAuthAllowed := options.policy.enablePostHandshakeClientAuth
  externalSessionCache := options.sessionCache
  policy := options.policy
  policyIdentity := policyIdentityOf options.policy
  handshakeBufferPresent := true
  incoming := s.incoming
  calls := s.calls

def releaseHandshakeScratch (s : TlsConnection) : TlsConnection :=
  { s with handshakeBufferPresent := false }

end TlsConnection

end KernelHttp.Tls
