/-
  The life of a TLS connection (`TlsConnection::Connect`, with `Send` and `Receive` behind it), with
  the memory of its handshake buffer.

  `ConnectTls13` and `Receive` are those of `TlsConnection`, written once more where they read
  messages.
-/
import KernelHttp.Tls.Connect12
import KernelHttp.Tls.Steps

namespace KernelHttp.Tls

open Program

namespace ConnectionMemory

section Tls13

variable (E : Environment) (options : TlsClientConnectionOptions)

/-! ## `ConnectTls13` -/

def readServerHello (offer : Tls13Offer) (retried : Bool) :
    MemoryProgram Tls13ServerHelloView := do
  let handshake ← readHandshakeMessage E true
  lift do
    let serverHello ← ofExcept (parseServerHello handshake)
    modify fun s => { s with context := s.context.setCipherSuite serverHello.cipherSuite }
    ofExcept (validateServerHelloOffer serverHello offer.hello)
    require (¬ (retried ∧ serverHello.isHelloRetryRequest)) statusInvalidNetworkResponse
    let s ← get
    ofExcept (TlsConnection.validateSelectedPskForConnection s.context serverHello offer)
    return serverHello

/-- The ServerHello, with a HelloRetryRequest in front of it or without. -/
def exchangeHellos (offer : Tls13Offer) :
    MemoryProgram TlsConnection.Tls13Agreement := do
  let serverHello ← readServerHello E offer false
  if serverHello.isHelloRetryRequest then do
    let m ← get
    let retried ← lift (TlsConnection.retryHello E offer serverHello.retryGroup)
    let serverHello ← readServerHello E retried true
    return {
      offer := retried, serverHello
      retry := some (offer.message, m.connection.lastHandshake) }
  else return { offer, serverHello, retry := none }

def readEncryptedExtensions (agreement : TlsConnection.Tls13Agreement) :
    MemoryProgram Tls13EncryptedExtensionsView := do
  let handshake ← readHandshakeMessage E true
  lift do
    let encryptedExtensions ← ofExcept (parseEncryptedExtensions handshake)
    when (encryptedExtensions.alpn ≠ []) do
      require (encryptedExtensions.alpn.length < 16) statusBufferTooSmall
      modify fun s => { s with negotiatedAlpn := encryptedExtensions.alpn }
      require (isOfferedAlpn options encryptedExtensions.alpn) statusNotSupported
    require (agreement.resumed → agreement.offer.selectedTicket.all fun ticket =>
      ticket.alpn = encryptedExtensions.alpn) statusInvalidNetworkResponse
    require (encryptedExtensions.earlyDataAccepted →
      agreement.offer.hello.offerEarlyData ∧ agreement.resumed) statusInvalidNetworkResponse
    return encryptedExtensions

def readCertificateMessage :
    MemoryProgram (Option TlsConnection.CertificateAnswer × TlsHandshakeMessageView) := do
  let handshake ← readHandshakeMessage E true
  if handshake.type = .certificateRequest then do
    let request ← lift (ofExcept (parseCertificateRequest handshake))
    lift (require (request.context = []) statusInvalidNetworkResponse)
    let peerSchemes ← lift
      (ofExcept (TlsConnection.findCertificateRequestSignatureAlgorithms request))
    let answer ← lift
      (ofExcept (TlsConnection.selectClientCredential E options.policy peerSchemes))
    let handshake ← readHandshakeMessage E true
    return (some answer, handshake)
  else return (none, handshake)

def authenticateServer (certificateMessage : TlsHandshakeMessageView) : MemoryProgram Unit := do
  let certificate ← lift (ofExcept (parseTls13Certificate certificateMessage))
  let serverPublicKey ← lift (ofFailure (E.validateTls13Certificate options certificate))
  let transcriptHash ← lift (TlsConnection.finishTranscript E)
  let handshake ← readHandshakeMessage E false
  lift do
    let certificateVerify ← ofExcept (parseCertificateVerify handshake)
    ofFailure (E.verifySignature serverPublicKey certificateVerify.signatureScheme
      (buildCertificateVerifyInput true transcriptHash) certificateVerify.signature)
    TlsConnection.appendLastHandshake

def readServerFinished : MemoryProgram Unit := do
  let transcriptHash ← lift (TlsConnection.finishTranscript E)
  let handshake ← readHandshakeMessage E false
  lift do
    let s ← get
    ofExcept (s.context.verifyFinished E.keys false transcriptHash handshake.body)
    TlsConnection.appendLastHandshake

/-- The hellos, with the early data between them. -/
def negotiate : MemoryProgram TlsConnection.Tls13Agreement := do
  lift (TlsConnection.initializeTls13 E options)
  let offer ← lift (TlsConnection.offerHello E options)
  lift (TlsConnection.sendEarlyData E options offer)
  exchangeHellos E offer

/-- The messages behind the hellos. -/
def finishHandshake (agreement : TlsConnection.Tls13Agreement) : MemoryProgram Unit := do
  lift TlsConnection.readOptionalCompatibilityChangeCipherSpec
  let encryptedExtensions ← readEncryptedExtensions E options agreement
  let (requested, certificateMessage) ← readCertificateMessage E options
  authenticateServer E options certificateMessage
  readServerFinished E
  lift (TlsConnection.deriveApplicationSecrets E)
  lift (TlsConnection.sendClientFlight E encryptedExtensions.earlyDataAccepted requested)

def connectTls13 : MemoryProgram Unit := do
  let agreement ← negotiate E options
  lift (TlsConnection.deriveHandshakeKeys E agreement)
  finishHandshake E options agreement
  lift (TlsConnection.configureApplicationStates E)

/-! ## `Receive` -/

/-- The loop of `Receive`. -/
def receiveFrom (length : ℕ) : ℕ → (emptyRecords postHandshakeRecords : ℕ) → MemoryProgram Bytes
  | 0, _, _ => throw statusInvalidNetworkResponse
  | turns + 1, emptyRecords, postHandshakeRecords => do
    let record ← lift (TlsConnection.readRecord E)
    let m ← get
    if m.connection.tls13RecordProtection ∧ record.contentType = .handshake then do
      lift (require (postHandshakeRecords < tlsApplicationMaxPostHandshakeRecords)
        statusInvalidNetworkResponse)
      lift (TlsConnection.consumeTls13PostHandshakeRecord E record.fragment)
      receiveFrom length turns emptyRecords (postHandshakeRecords + 1)
    else if ¬ m.connection.tls13RecordProtection ∧ m.connection.context.protocol = .tls12 ∧
        record.contentType = .handshake then do
      lift (require (postHandshakeRecords < tlsApplicationMaxPostHandshakeRecords)
        statusInvalidNetworkResponse)
      consumeOptionalPlainHandshakeRecord record.fragment
      receiveFrom length turns emptyRecords (postHandshakeRecords + 1)
    else if record.contentType = .alert then
      throw (TlsConnection.alertStatus record.fragment)
    else if ¬ m.connection.tls13RecordProtection ∧ m.connection.context.protocol = .tls12 ∧
        (m.connection.handshakeBuffer ≠ [] ∨ m.connection.handshakeConsumed ≠ 0) then
      throw statusInvalidNetworkResponse
    else if record.contentType ≠ .applicationData then throw statusInvalidNetworkResponse
    else if record.fragment = [] then do
      lift (require (emptyRecords < tlsApplicationMaxEmptyRecords) statusInvalidNetworkResponse)
      receiveFrom length turns (emptyRecords + 1) postHandshakeRecords
    else do
      lift (modify fun s => { s with plaintext := record.fragment.drop length })
      return record.fragment.take length

/-- `TlsConnection::Receive` into a buffer of `length` octets. -/
def receive (length : ℕ) : MemoryProgram Bytes := do
  let m ← get
  lift (require (m.connection.context.established ∧ length ≠ 0) statusInvalidParameter)
  if m.connection.plaintext ≠ [] then do
    lift (set { m.connection with plaintext := m.connection.plaintext.drop length })
    return m.connection.plaintext.take length
  else receiveFrom E length TlsConnection.receiveTurns 0 0

end Tls13

/-! ## `Connect` -/

section

variable (E : Tls12Environment) (options : TlsConnectOptions)

def protocolNumber : TlsProtocol → ℕ
  | .tls12 => 0
  | .tls13 => 1

def protocolAllowed (protocol : TlsProtocol) : Bool :=
  protocolNumber options.minimumProtocol ≤ protocolNumber protocol &&
    protocolNumber protocol ≤ protocolNumber options.maximumProtocol

/-- The handshake of the protocol that `Connect` chooses. -/
def handshake : MemoryProgram Unit :=
  if protocolAllowed options .tls13 then
    connectTls13 E.toEnvironment options.toTlsClientConnectionOptions
  else if protocolAllowed options .tls12 then connectTls12 E options
  else throw statusNotSupported

/-- The object behind `Reset` and the assignments of `Connect`, with fresh buffers. -/
def prepared (m : ConnectionMemory) : ConnectionMemory where
  connection := TlsConnection.prepared options.toTlsClientConnectionOptions m.connection
  tls12SessionCache := options.tls12SessionCache

/-- The checks of `Connect`. -/
def acceptable : Bool :=
  options.serverName ≠ [] && options.recordPaddingLength ≤ tls13MaxRecordPaddingLength &&
    (!options.verifyCertificate || options.certificateStore.isSome) &&
    ntSuccess (tlsValidatePolicy options.policy) &&
    protocolNumber options.minimumProtocol ≤ protocolNumber options.maximumProtocol

def connect : MemoryProgram Unit := do
  lift (require (acceptable options) statusInvalidParameter)
  lift (require (¬ (options.enableEarlyData ∧ options.earlyData.getD [] ≠ [] ∧
    options.earlyDataReplaySafe = false)) statusNotSupported)
  modify (prepared options)
  let result ← attempt (handshake E options)
  lift (modify TlsConnection.releaseHandshakeScratch)
  ofExcept result

/-! ## Sessions -/

/-- An object on which nothing has been called, with what its transport will bring. -/
def constructed (incoming : List TransportRead) : ConnectionMemory where
  connection := { incoming }

def runCall : TlsConnection.Call → ConnectionMemory → ConnectionMemory
  | .send data => after (lift (TlsConnection.send E.toEnvironment data))
  | .receive length => after (receive E.toEnvironment length)

/-- The state behind a `Connect` and the calls that follow it. -/
def session (calls : List TlsConnection.Call) (m : ConnectionMemory) : ConnectionMemory :=
  calls.foldl (fun m call => runCall E call m) (after (connect E options) m)

end

/-! ## Refinement -/

section

open Refines

variable (E : Environment) (options : TlsClientConnectionOptions)

theorem readServerHello_refines (offer : Tls13Offer) (retried : Bool) :
    Refines (readServerHello E offer retried) (TlsConnection.readServerHello E offer retried) :=
  .bind (readHandshakeMessage_refines E true) fun _ => Refines.lift _

theorem exchangeHellos_refines (offer : Tls13Offer) :
    Refines (exchangeHellos E offer) (TlsConnection.exchangeHellos E offer) := by
  refine .bind (readServerHello_refines E offer false) fun serverHello => .ite ?_ (.pure _)
  exact get_bind fun m => .bind (Refines.lift _) fun retried =>
    .bind (readServerHello_refines E retried true) fun _ => .pure _

theorem readEncryptedExtensions_refines (agreement : TlsConnection.Tls13Agreement) :
    Refines (readEncryptedExtensions E options agreement)
      (TlsConnection.readEncryptedExtensions E options agreement) :=
  .bind (readHandshakeMessage_refines E true) fun _ => Refines.lift _

theorem readCertificateMessage_refines :
    Refines (readCertificateMessage E options)
      (TlsConnection.readCertificateMessage E options) := by
  refine .bind (readHandshakeMessage_refines E true) fun handshake => .ite ?_ (.pure _)
  exact .bind (Refines.lift _) fun request => .bind (Refines.lift _) fun _ =>
    .bind (Refines.lift _) fun _ => .bind (Refines.lift _) fun _ =>
      .bind (readHandshakeMessage_refines E true) fun _ => .pure _

theorem authenticateServer_refines (certificateMessage : TlsHandshakeMessageView) :
    Refines (authenticateServer E options certificateMessage)
      (TlsConnection.authenticateServer E options certificateMessage) :=
  .bind (Refines.lift _) fun _ => .bind (Refines.lift _) fun _ => .bind (Refines.lift _) fun _ =>
    .bind (readHandshakeMessage_refines E false) fun _ => Refines.lift _

theorem readServerFinished_refines :
    Refines (readServerFinished E) (TlsConnection.readServerFinished E) :=
  .bind (Refines.lift _) fun _ => .bind (readHandshakeMessage_refines E false) fun _ =>
    Refines.lift _

theorem finishHandshake_refines (agreement : TlsConnection.Tls13Agreement) :
    Refines (finishHandshake E options agreement)
      (TlsConnection.finishHandshake E options agreement) :=
  .bind (Refines.lift _) fun _ => .bind (readEncryptedExtensions_refines E options agreement)
    fun _ => .bind (readCertificateMessage_refines E options) fun _ =>
      .bind (authenticateServer_refines E options _) fun _ =>
        .bind (readServerFinished_refines E) fun _ => .bind (Refines.lift _) fun _ =>
          Refines.lift _

/-- The handshake over memory is that over values: the memory is kept beside it and not read. -/
theorem connectTls13_refines :
    Refines (connectTls13 E options) (TlsConnection.connectTls13 E options) := by
  have hhellos : Refines (negotiate E options) (TlsConnection.negotiate E options) :=
    .bind (Refines.lift _) fun _ => .bind (Refines.lift _) fun offer => .bind (Refines.lift _)
      fun _ => exchangeHellos_refines E offer
  exact .bind hhellos fun agreement => .bind (Refines.lift _) fun _ =>
    .bind (finishHandshake_refines E options agreement) fun _ => Refines.lift _

theorem receiveFrom_refines (length : ℕ) : ∀ turns emptyRecords postHandshakeRecords : ℕ,
    Refines (receiveFrom E length turns emptyRecords postHandshakeRecords)
      (TlsConnection.receiveFrom E length turns emptyRecords postHandshakeRecords)
  | 0, _, _ => .throw _
  | turns + 1, emptyRecords, postHandshakeRecords => by
    refine .bind (Refines.lift _) fun record => get_bind fun m => .ite ?_ <| .ite ?_ <|
      .ite (.throw _) <| .ite (.throw _) <| .ite (.throw _) <| .ite ?_ ?_
    · exact .bind (Refines.lift _) fun _ => .bind (Refines.lift _) fun _ =>
        receiveFrom_refines length turns _ _
    · exact .bind (Refines.lift _) fun _ =>
        .bind (consumeOptionalPlainHandshakeRecord_refines record.fragment) fun _ =>
          receiveFrom_refines length turns _ _
    · exact .bind (Refines.lift _) fun _ => receiveFrom_refines length turns _ _
    · exact .bind (Refines.lift _) fun _ => .pure _

/-- So are the records that are received. -/
theorem received_refines (length : ℕ) :
    Refines (receive E length) (TlsConnection.receive E length) := by
  refine get_bind fun m => .bind (Refines.lift _) fun _ =>
    .ite ?_ (receiveFrom_refines E length _ _ _)
  exact .bind (Refines.lift _) fun _ => .pure _

end

end ConnectionMemory

end KernelHttp.Tls
