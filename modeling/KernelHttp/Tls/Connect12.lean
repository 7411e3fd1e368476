/-
  The handshake of TLS 1.2 (`TlsConnection::ConnectTls12`).

  Each stage is a program over the memory of the handshake buffer, into which pointers are kept.
-/
import KernelHttp.Tls.HandshakeMemory

namespace KernelHttp.Tls

open Program TlsHandshake12

def tlsMaxPremasterRandomLength : ℕ := tlsMasterSecretLength - 2
def keyExchangeMaxPublicKeyLength : ℕ := 1024
def tlsScratchSignedDataLength : ℕ := tlsRandomLength * 2 + keyExchangeMaxPublicKeyLength * 2 + 16
def negotiatedAlpnCapacity : ℕ := 16

/-- What a connection is given for TLS 1.2 besides. -/
structure Tls12Environment extends Environment where
  certificateKey : Type
  provider : CngProvider certificateKey
  currentTime : Except NTSTATUS ℤ
  groups : FiniteFieldGroups
  importSubjectPublicKey : ParsedCertificate → Except FailureStatus serverPublicKey
  importEcdhPublicKey : TlsNamedGroup → (point : Bytes) → Except FailureStatus Unit
  generatePremaster :
    Except FailureStatus { random : Bytes // random.length = tlsMaxPremasterRandomLength }
  encryptRsaPkcs1 : serverPublicKey → (premasterSecret : Bytes) → Except FailureStatus Bytes

namespace ConnectionMemory

variable (E : Tls12Environment) (options : TlsConnectOptions)

/-! ## The hellos -/

/-- What the client has offered. -/
structure Tls12Offer where
  session : Option Tls12Session
  hello : TlsClientHelloOptions

/-- What the hellos have come to; the session id of the ServerHello is a place in the handshake
buffer. -/
structure Tls12Agreement where
  offer : Tls12Offer
  serverHello : TlsServerHelloView
  sessionIdPlace : ℕ
  capability : TlsCipherSuiteCapability
  mayIssueTicket : Bool

/-- `TlsContext::InitializeClient`, with the transcript. -/
def initializeClient : TlsProgram Unit := do
  modify fun s => { s with context := {}, tls13RecordProtection := false }
  let random ← ofFailure E.generateRandom
  modify fun s =>
    { s with
      context := { protocol := .tls12, clientRandom := random.val }
      transcriptAlgorithm := .sha256
      transcript := [] }

def sendHandshake12 (message : Bytes) : TlsProgram Unit := do
  TlsConnection.appendTranscript message
  TlsConnection.recordMessage { sender := .client, octets := message }
  TlsConnection.sendPlainRecord E.toEnvironment .handshake message

def helloOptions12 (offers : List TlsCipherSuite × List TlsNamedGroup × List TlsSignatureScheme)
    (session : Option Tls12Session) : TlsClientHelloOptions where
  serverName := options.serverName
  alpnProtocols := options.alpnProtocols
  cipherSuites := offers.1
  namedGroups := offers.2.1
  signatureSchemes := offers.2.2
  sessionId := session.elim [] (·.sessionId)
  sessionTicket := session.elim [] (·.ticket)
  offerEncryptThenMac := options.policy.enableTls12Cbc

/-- The ClientHello, and its octets. -/
def offerHello12 : TlsProgram (Tls12Offer × Bytes) := do
  require (options.enableEarlyData = false) statusNotSupported
  let offers ← ofExcept (buildTls12PolicyOffers options.policy)
  let s ← get
  let session := selectTls12Session options s.policyIdentity (E.currentMilliseconds s.calls)
  let hello := helloOptions12 options offers session
  let message ← ofExcept
    (TlsHandshake12.encodeClientHello s.context.clientRandom hello tlsScratchClientHelloLength)
  sendHandshake12 E message
  return ({ session, hello }, message)

def allowedCapability (policy : TlsPolicy) (cipherSuite : TlsCipherSuite) :
    Except NTSTATUS TlsCipherSuiteCapability :=
  match tlsFindCipherSuiteCapability cipherSuite with
  | some capability =>
    if tlsPolicyAllowsCipherSuite policy cipherSuite then .ok capability
    else .error statusNotSupported
  | none => .error statusNotSupported

/-- The checks of a ServerHello; the transcript starts again, with the hash of the suite. -/
def acceptServerHello (offer : Tls12Offer) (clientHello : Bytes)
    (handshake : TlsHandshakeMessageView) :
    TlsProgram (TlsServerHelloView × TlsCipherSuiteCapability × Bool) := do
  let serverHello ← ofExcept (TlsHandshake12.parseServerHello handshake)
  modify fun s => { s with context := s.context.setCipherSuite serverHello.cipherSuite }
  ofExcept (TlsHandshake12.validateServerHelloOffer serverHello offer.hello)
  require serverHello.hasExtendedMasterSecret statusNotSupported
  require serverHello.hasSecureRenegotiation statusNotSupported
  let capability ← ofExcept (allowedCapability options.policy serverHello.cipherSuite)
  require (capability.bulkCipher = .aesCbc → serverHello.hasEncryptThenMac) statusNotSupported
  let mayIssueTicket ← ofExcept
    (serverHelloHasEmptyExtension serverHello extensionSessionTicket)
  let alpn ← ofExcept (parseServerHelloAlpn serverHello negotiatedAlpnCapacity)
  modify fun s => { s with negotiatedAlpn := alpn }
  require (isOfferedAlpn options.toTlsClientConnectionOptions alpn) statusNotSupported
  modify fun s =>
    { s with
      transcriptAlgorithm := prfHashForCipherSuite s.context.cipherSuite
      transcript := clientHello ++ s.lastHandshake }
  return (serverHello, capability, mayIssueTicket)

/-- The hellos. -/
def negotiate12 : MemoryProgram Tls12Agreement := do
  lift (initializeClient E)
  let (offer, clientHello) ← lift (offerHello12 E options)
  let handshake ← readHandshakeMessage E.toEnvironment true
  let m ← get
  let sessionIdPlace := m.lastHandshakeOffset + tlsHandshakeHeaderLength + sessionIdOffset
  let (serverHello, capability, mayIssueTicket) ←
    lift (acceptServerHello options offer clientHello handshake)
  modify fun m => { m with serverRandom := serverHello.random }
  return { offer, serverHello, sessionIdPlace, capability, mayIssueTicket }

/-! ## Keys and Finished -/

/-- `DeriveKeyBlock` and `ConfigureAesGcmStates`. -/
def configureStates12 : MemoryProgram Unit := do
  let m ← get
  lift do
    let s ← get
    let (clientWriteState, serverWriteState) ← ofExcept (keyStates E.keys s.context.cipherSuite
      m.masterSecret m.serverRandom s.context.clientRandom)
    set { s with clientWriteState, serverWriteState }

/-- The client's ChangeCipherSpec. -/
def sendChangeCipherSpec : TlsProgram Unit :=
  TlsConnection.sendPlainRecord E.toEnvironment .changeCipherSpec [1]

/-- The client's Finished. -/
def sendFinished12 : MemoryProgram Unit := do
  let m ← get
  lift do
    let transcriptHash ← TlsConnection.finishTranscript E.toEnvironment
    let s ← get
    let message ← ofExcept
      (encodeFinished E.keys s.context.cipherSuite m.masterSecret transcriptHash)
    TlsConnection.appendTranscript message
    TlsConnection.recordMessage { sender := .client, octets := message }
    TlsConnection.sendProtectedRecord E.toEnvironment .handshake message

/-- The loop of `ReadServerChangeCipherSpec`, with the records that it may still read. -/
def readServerChangeCipherSpecFrom (allowNewSessionTicket : Bool) : ℕ → MemoryProgram Unit
  | 0 => throw statusInvalidNetworkResponse
  | records + 1 => do
    let record ← lift (TlsConnection.readRecord E.toEnvironment)
    lift (require (record.contentType ≠ .alert) statusInvalidNetworkResponse)
    if record.contentType = .changeCipherSpec then do
      let m ← get
      lift (require (m.connection.handshakeBuffer = [] ∧ m.connection.handshakeConsumed = 0 ∧
        record.fragment = [1]) statusInvalidNetworkResponse)
    else do
      lift (require (record.contentType = .handshake ∧ allowNewSessionTicket)
        statusInvalidNetworkResponse)
      consumeOptionalPlainHandshakeRecord record.fragment
      readServerChangeCipherSpecFrom allowNewSessionTicket records

/-- `ReadServerChangeCipherSpec`; the records are protected from there on. -/
def readServerChangeCipherSpec (allowNewSessionTicket : Bool) : MemoryProgram Unit := do
  readServerChangeCipherSpecFrom E allowNewSessionTicket tlsHandshakeMaxRecords
  lift (modify fun s => { s with encrypted := true })

/-- The server's Finished. -/
def readFinished12 : MemoryProgram Unit := do
  let handshake ← readHandshakeMessage E.toEnvironment false
  let m ← get
  lift do
    require (handshake.type = .finished) statusInvalidNetworkResponse
    let transcriptHash ← TlsConnection.finishTranscript E.toEnvironment
    let s ← get
    ofExcept (verifyFinished E.keys s.context.cipherSuite m.masterSecret transcriptHash
      handshake.body)
    TlsConnection.appendLastHandshake

/-! ## Resumption -/

/-- The abbreviated handshake. -/
def resume (agreement : Tls12Agreement) (session : Tls12Session) : MemoryProgram Unit := do
  let m ← get
  lift (require (session.cipherSuite = m.connection.context.cipherSuite ∧
    session.alpn = m.connection.negotiatedAlpn) statusInvalidNetworkResponse)
  lift (require (session.masterSecret.length = tlsMasterSecretLength ∧
    isSupportedCipherSuite12 session.cipherSuite) statusInvalidParameter)
  modify fun m => { m with masterSecret := session.masterSecret }
  configureStates12 E
  readServerChangeCipherSpec E agreement.mayIssueTicket
  readFinished12 E
  lift (sendChangeCipherSpec E)
  sendFinished12 E

/-! ## The server's certificate and key -/

def validationOptions : CertificateValidationOptions where
  hostName := options.serverName
  store := options.certificateStore
  verifyCertificate := options.verifyCertificate
  requireRevocationCheck := options.policy.requireRevocationCheck

def keyFits (capability : TlsCipherSuiteCapability) (leaf : ParsedCertificate) : Bool :=
  match capability.authentication with
  | .none => true
  | .rsa => leaf.publicKeyAlgorithm = .rsa
  | .ecdsa => [CertificatePublicKeyAlgorithm.ecdsaP256, .ecdsaP384, .ecdsaP521, .ed25519,
      .ed448].contains leaf.publicKeyAlgorithm

/-- Whether the certificate allows the use that the suite makes of its key. -/
def usageFits (capability : TlsCipherSuiteCapability) (leaf : ParsedCertificate) : Bool :=
  !leaf.hasKeyUsage ||
    if capability.tls12KeyExchange = .rsa then leaf.allowsKeyEncipherment
    else leaf.allowsDigitalSignature

/-- Certificate: the leaf and its key. -/
def readCertificate12 (agreement : Tls12Agreement) :
    MemoryProgram (ParsedCertificate × E.serverPublicKey) := do
  let handshake ← readHandshakeMessage E.toEnvironment true
  lift do
    let chain ← ofExcept (parseCertificateList handshake)
    let result ← ofExcept
      (validateChain E.provider E.currentTime chain (validationOptions options))
    require (keyFits agreement.capability result.leaf) statusInvalidNetworkResponse
    require (usageFits agreement.capability result.leaf) statusTrustFailure
    let key ← ofFailure (E.importSubjectPublicKey result.leaf)
    return (result.leaf, key)

def readBehindCertificate : MemoryProgram TlsHandshakeMessageView := do
  let handshake ← readHandshakeMessage E.toEnvironment true
  if handshake.type = .certificateStatus then do
    let _ ← lift (ofExcept (parseCertificateStatus handshake))
    readHandshakeMessage E.toEnvironment true
  else return handshake

def signatureSchemeMatchesPublicKey : CertificatePublicKeyAlgorithm → TlsSignatureScheme → Bool
  | .rsa, scheme => [0x0201, 0x0401, 0x0501, 0x0601, 0x0804, 0x0805, 0x0806].contains scheme.value
  | .ecdsaP256, scheme => scheme.value = 0x0203 || scheme.value = 0x0403
  | .ecdsaP384, scheme => scheme.value = 0x0203 || scheme.value = 0x0503
  | .ecdsaP521, scheme => scheme.value = 0x0203 || scheme.value = 0x0603
  | .ed25519, scheme => scheme.value = 0x0807
  | .ed448, scheme => scheme.value = 0x0808
  | .unknown, _ => false

/-- The signature covers both randoms and the parameters. -/
def verifyServerKeyExchange (leaf : ParsedCertificate) (key : E.serverPublicKey)
    (serverRandom : Bytes) (view : TlsServerKeyExchangeView) : TlsProgram Unit := do
  require (signatureSchemeMatchesPublicKey leaf.publicKeyAlgorithm view.signatureScheme)
    statusInvalidNetworkResponse
  require (view.parameters.length ≤ tlsScratchSignedDataLength - tlsRandomLength * 2)
    statusInvalidParameter
  let s ← get
  ofFailure (E.verifySignature key view.signatureScheme
    (s.context.clientRandom ++ serverRandom ++ view.parameters) view.signature)

/-- What the client needs of a ServerKeyExchange: the group, the place of the server's public key
in the handshake buffer, and a copy of it, where the platform has imported one. -/
structure ServerKeyShare where
  namedGroup : TlsNamedGroup
  place : ℕ
  length : ℕ
  imported : Option Bytes

/-- Whether the platform imports the server's public key at once. -/
def needsCngPeerKey (keyExchange : Tls12KeyExchangeKind) (group : TlsNamedGroup) : Bool :=
  keyExchange ≠ .dheRsa && group ≠ .x25519 && group ≠ .x448

def acceptServerKeyExchange (agreement : Tls12Agreement) (leaf : ParsedCertificate)
    (key : E.serverPublicKey) (handshake : TlsHandshakeMessageView) :
    MemoryProgram ServerKeyShare := do
  let m ← get
  let keyExchange := agreement.capability.tls12KeyExchange
  let view ← lift (ofExcept (parseServerKeyExchange E.groups keyExchange handshake))
  lift (ofExcept (validateServerKeyExchangeOffer view agreement.offer.hello))
  lift (verifyServerKeyExchange E leaf key m.serverRandom view)
  lift (when (needsCngPeerKey keyExchange view.namedGroup)
    (ofFailure (E.importEcdhPublicKey view.namedGroup view.publicKey)))
  return {
    namedGroup := view.namedGroup
    place := m.lastHandshakeOffset + tlsHandshakeHeaderLength + view.publicKeyOffset
    length := view.publicKey.length
    imported := if needsCngPeerKey keyExchange view.namedGroup then some view.publicKey else none }

/-- ServerKeyExchange, unless the suite has none, and the message behind it. -/
def readServerKeyExchange (agreement : Tls12Agreement) (leaf : ParsedCertificate)
    (key : E.serverPublicKey) (handshake : TlsHandshakeMessageView) :
    MemoryProgram (Option ServerKeyShare × TlsHandshakeMessageView) :=
  if agreement.capability.tls12KeyExchange = .rsa then return (none, handshake)
  else do
    let share ← acceptServerKeyExchange E agreement leaf key handshake
    let handshake ← readHandshakeMessage E.toEnvironment true
    return (some share, handshake)

/-! ## The client's messages -/

/-- The client's Certificate, where the server asks for one: what it is signed with, and the
message behind the CertificateRequest. -/
def answerCertificateRequest (handshake : TlsHandshakeMessageView) :
    MemoryProgram (TlsConnection.CertificateAnswer × TlsHandshakeMessageView) :=
  if handshake.type = .certificateRequest then do
    let answer ← lift do
      let peerSchemes ← ofExcept (TlsHandshake12.parseCertificateRequest handshake)
      let answer ← ofExcept
        (TlsConnection.selectClientCredential E.toEnvironment options.policy peerSchemes)
      let message ← ofExcept (TlsHandshake12.encodeCertificate
        (answer.elim [] (·.1.certificateList)) tlsScratchClientHelloLength)
      sendHandshake12 E message
      return answer
    let handshake ← readHandshakeMessage E.toEnvironment true
    return (answer, handshake)
  else return (none, handshake)

/-- The exchange of `GenerateClientKeyExchange` with the key of an RSA certificate: the premaster
secret and the message. -/
def encryptedPremaster (leaf : ParsedCertificate) (key : E.serverPublicKey) :
    TlsProgram (Bytes × Bytes) := do
  require (leaf.rsaModulus ≠ []) statusInvalidParameter
  let random ← ofFailure E.generatePremaster
  let premasterSecret := [3, 3] ++ random.val
  let ciphertext ← ofFailure (E.encryptRsaPkcs1 key premasterSecret)
  let message ← ofExcept
    (encodeClientKeyExchangeOpaque16 ciphertext tlsScratchClientHelloLength)
  return (premasterSecret, message)

/-- The exchange of `GenerateClientKeyExchange` with the server's public key, which is looked up
where it was, unless it has been imported. -/
def agreedPremaster (keyExchange : Tls12KeyExchangeKind) (share : ServerKeyShare)
    (memory : ℕ → UInt8) : TlsProgram (Bytes × Bytes) := do
  let keyPair ← ofFailure (E.generateKeyPair share.namedGroup)
  let premasterSecret ← ofFailure (E.deriveSharedSecret keyPair
    (share.imported.getD (Overwriting.read memory share.place share.length)))
  let message ← ofExcept <|
    if keyExchange = .dheRsa then
      encodeClientKeyExchangeOpaque16 keyPair.publicKey tlsScratchClientHelloLength
    else encodeClientKeyExchange keyPair.publicKey tlsScratchClientHelloLength
  return (premasterSecret, message)

/-- `GenerateClientKeyExchange`, sent: the premaster secret. -/
def sendClientKeyExchange (agreement : Tls12Agreement) (leaf : ParsedCertificate)
    (key : E.serverPublicKey) (share : Option ServerKeyShare) : MemoryProgram Bytes := do
  let m ← get
  lift do
    let (premasterSecret, message) ←
      match share with
      | none => encryptedPremaster E leaf key
      | some share => agreedPremaster E agreement.capability.tls12KeyExchange share m.memory
    sendHandshake12 E message
    return premasterSecret

/-- The client's CertificateVerify, where it has sent a certificate. -/
def sendCertificateVerify12 (answer : TlsConnection.CertificateAnswer) (transcriptHash : Bytes) :
    TlsProgram Unit :=
  match answer with
  | none => pure ()
  | some (credential, scheme) => do
    let signature ← ofFailure (credential.sign scheme transcriptHash)
    let message ← ofExcept
      (encodeCertificateVerify scheme signature tlsScratchClientHelloLength)
    sendHandshake12 E message

/-- CertificateVerify and the extended master secret, both with the transcript up to the
ClientKeyExchange. -/
def deriveMasterSecret (answer : TlsConnection.CertificateAnswer) (premasterSecret : Bytes) :
    MemoryProgram Unit := do
  let masterSecret ← lift do
    let transcriptHash ← TlsConnection.finishTranscript E.toEnvironment
    sendCertificateVerify12 E answer transcriptHash
    let s ← get
    ofExcept (deriveExtendedMasterSecret E.keys s.context.cipherSuite premasterSecret
      transcriptHash)
  modify fun m => { m with masterSecret }

/-- From the Certificate of the server to its Finished. -/
def handshakeInFull (agreement : Tls12Agreement) : MemoryProgram Unit := do
  let (leaf, key) ← readCertificate12 E options agreement
  let handshake ← readBehindCertificate E
  let (share, handshake) ← readServerKeyExchange E agreement leaf key handshake
  let (answer, handshake) ← answerCertificateRequest E options handshake
  lift (ofExcept (markServerHelloDone handshake))
  let premasterSecret ← sendClientKeyExchange E agreement leaf key share
  deriveMasterSecret E answer premasterSecret
  configureStates12 E
  lift (sendChangeCipherSpec E)
  sendFinished12 E
  readServerChangeCipherSpec E agreement.mayIssueTicket
  readFinished12 E

/-! ## `ConnectTls12` -/

/-- The session that `StoreTls12SessionFromHandshake` makes.  Its id is what lies in the handshake
buffer where the id of the ServerHello was. -/
def sessionOf (m : ConnectionMemory) (agreement : Tls12Agreement) (now : UInt64) :
    Tls12Session where
  sessionId := Overwriting.read m.memory agreement.sessionIdPlace
    agreement.serverHello.sessionId.length
  ticket := m.connection.tls12PendingTicket
  ticketLifetimeHintSeconds := m.connection.tls12PendingTicketLifetimeHintSeconds
  issueTimeMilliseconds := now
  serverName := options.serverName
  alpn := m.connection.negotiatedAlpn
  cipherSuite := m.connection.context.cipherSuite
  masterSecret := m.masterSecret
  policyIdentity := m.connection.policyIdentity

/-- Whether `StoreTls12SessionFromHandshake` stores a session. -/
def storable (m : ConnectionMemory) (agreement : Tls12Agreement) : Bool :=
  options.enableSessionResumption && m.masterSecret.length = tlsMasterSecretLength &&
    options.serverName ≠ [] && options.serverName.length ≤ tls12MaxSessionServerNameLength &&
    m.connection.negotiatedAlpn.length ≤ tls12MaxSessionAlpnLength &&
    agreement.serverHello.sessionId.length ≤ tls12MaxSessionIdLength &&
    m.connection.tls12PendingTicket.length ≤ tls12MaxTicketLength &&
    !(agreement.serverHello.sessionId = [] && m.connection.tls12PendingTicket = [])

/-- `StoreTls12SessionFromHandshake`, and the connection is established. -/
def storeTls12SessionFromHandshake (agreement : Tls12Agreement) : MemoryProgram Unit := do
  let m ← get
  let session := m.sessionOf options agreement (E.currentMilliseconds m.connection.calls)
  when (m.storable options agreement)
    (set { m with tls12SessionCache := m.tls12SessionCache.map session.storedIn })
  lift (modify fun s => { s with context := { s.context with established := true } })

/-- Both hellos, the full or the resumed handshake, and the session to store. -/
def connectTls12 : MemoryProgram Unit := do
  let agreement ← negotiate12 E options
  match agreement.offer.session.filter (·.echoedBy agreement.serverHello) with
  | some session => resume E agreement session
  | none => handshakeInFull E options agreement
  storeTls12SessionFromHandshake E options agreement

end ConnectionMemory

end KernelHttp.Tls
