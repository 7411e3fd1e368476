/-
  The handshake messages of TLS 1.2 (`tls/TlsHandshake12.cpp`), the PRF, and the sessions that are
  kept for resumption (`tls/TlsConnection.cpp`).

  A view has the octets it points to and, where they are looked at again, their place.
-/
import KernelHttp.Tls.Connect13
import KernelHttp.Tls.ChainValidation

namespace KernelHttp.Tls

open BigEndian

def tls12MaxSessionIdLength : ℕ := 32
def tls12MaxSessionServerNameLength : ℕ := 255
def tls12MaxSessionAlpnLength : ℕ := 15
def tls12MaxSessionCount : ℕ := 4
def tlsMasterSecretLength : ℕ := 48
def tlsVerifyDataLength : ℕ := 12

namespace TlsHandshakeType

def serverKeyExchange : TlsHandshakeType := ⟨12⟩
def serverHelloDone : TlsHandshakeType := ⟨14⟩
def clientKeyExchange : TlsHandshakeType := ⟨16⟩
def certificateStatus : TlsHandshakeType := ⟨22⟩

end TlsHandshakeType

def extensionStatusRequest : ℕ := 5
def extensionEcPointFormats : ℕ := 11
def extensionEncryptThenMac : ℕ := 22
def extensionExtendedMasterSecret : ℕ := 23
def extensionSessionTicket : ℕ := 35
def extensionRenegotiationInfo : ℕ := 0xff01

def tlsCipherSuiteValue : TlsCipherSuite → ℕ
  | .tlsAes128GcmSha256 => 0x1301
  | .tlsAes256GcmSha384 => 0x1302
  | .tlsChaCha20Poly1305Sha256 => 0x1303
  | .tlsAes128CcmSha256 => 0x1304
  | .tlsAes128Ccm8Sha256 => 0x1305
  | .tlsRsaWithAes128CbcSha256 => 0x003c
  | .tlsRsaWithAes128GcmSha256 => 0x009c
  | .tlsRsaWithAes256GcmSha384 => 0x009d
  | .tlsDheRsaWithAes128GcmSha256 => 0x009e
  | .tlsDheRsaWithAes256GcmSha384 => 0x009f
  | .tlsEcdheEcdsaWithAes128CbcSha256 => 0xc023
  | .tlsEcdheRsaWithAes128CbcSha256 => 0xc027
  | .tlsEcdheRsaWithAes128GcmSha256 => 0xc02f
  | .tlsEcdheEcdsaWithAes128GcmSha256 => 0xc02b
  | .tlsEcdheRsaWithAes256GcmSha384 => 0xc030
  | .tlsEcdheEcdsaWithAes256GcmSha384 => 0xc02c
  | .tlsEcdheRsaWithChaCha20Poly1305Sha256 => 0xcca8
  | .tlsEcdheEcdsaWithChaCha20Poly1305Sha256 => 0xcca9
  | .tlsDheRsaWithChaCha20Poly1305Sha256 => 0xccaa

/-! ## Policy -/

def signatureSchemeCapabilities : List (TlsSignatureScheme × TlsCapabilityDisposition) :=
  [(⟨0x0804⟩, .default), (⟨0x0805⟩, .default), (⟨0x0806⟩, .default), (⟨0x0403⟩, .default),
   (⟨0x0503⟩, .default), (⟨0x0603⟩, .default), (⟨0x0807⟩, .default), (⟨0x0808⟩, .default),
   (⟨0x0809⟩, .optional), (⟨0x080a⟩, .optional), (⟨0x080b⟩, .optional), (⟨0x0401⟩, .legacy),
   (⟨0x0501⟩, .legacy), (⟨0x0601⟩, .legacy), (⟨0x0201⟩, .legacy), (⟨0x0203⟩, .legacy)]

/-- `IsSupportedSignatureScheme`. -/
def isSupportedSignatureScheme12 (scheme : TlsSignatureScheme) : Bool :=
  (signatureSchemeCapabilities.map (·.1)).contains scheme

/-- `TlsPolicyAllowsNamedGroup`; each known group is there by default or as an option. -/
def tlsPolicyAllowsNamedGroup (policy : TlsPolicy) (group : TlsNamedGroup) : Bool :=
  ntSuccess (tlsValidatePolicy policy) && defaultNamedGroups.contains group

def tlsPolicyAllowsSignatureScheme (policy : TlsPolicy) (scheme : TlsSignatureScheme) : Bool :=
  if ¬ ntSuccess (tlsValidatePolicy policy) then false
  else
    match signatureSchemeCapabilities.find? (·.1 = scheme) with
    | none => false
    | some (_, disposition) =>
      if disposition ≠ .legacy then isDefaultOrOptional disposition
      else if scheme = ⟨0x0201⟩ ∨ scheme = ⟨0x0203⟩ then
        isCompatibilityProfile policy && policy.enableTls12Sha1Signatures
      else isCompatibilityProfile policy

inductive TlsAuthenticationKind where
  | none
  | rsa
  | ecdsa
deriving DecidableEq, Repr

/-- `Authentication` of a suite's capability. -/
def TlsCipherSuiteCapability.authentication (capability : TlsCipherSuiteCapability) :
    TlsAuthenticationKind :=
  match capability.tls12KeyExchange with
  | .none => .none
  | .ecdheEcdsa => .ecdsa
  | .ecdheRsa | .dheRsa | .rsa => .rsa

/-! ## ClientHello -/

structure TlsClientHelloOptions where
  serverName : Bytes
  alpnProtocols : List Bytes
  cipherSuites : List TlsCipherSuite
  namedGroups : List TlsNamedGroup
  signatureSchemes : List TlsSignatureScheme
  sessionId : Bytes := []
  sessionTicket : Bytes := []
  offerEncryptThenMac : Bool
  offerStatusRequest : Bool := true

def buildTls12PolicyOffers (policy : TlsPolicy) :
    Except NTSTATUS (List TlsCipherSuite × List TlsNamedGroup × List TlsSignatureScheme) := do
  let cipherSuites := (cipherSuiteCapabilities.filter fun capability =>
    capability.protocol = .tls12 && tlsPolicyAllowsCipherSuite policy capability.cipherSuite).map
    (·.cipherSuite)
  let namedGroups := defaultNamedGroups.filter (tlsPolicyAllowsNamedGroup policy)
  let signatureSchemes := (signatureSchemeCapabilities.map (·.1)).filter
    (tlsPolicyAllowsSignatureScheme policy)
  ensure (cipherSuites ≠ [] ∧ namedGroups ≠ [] ∧ signatureSchemes ≠ []) statusNotSupported
  return (cipherSuites, namedGroups, signatureSchemes)

namespace TlsHandshake12

/-- `BuildSessionTicketExtension`; the extension is there without a ticket, too. -/
def buildSessionTicketExtension (sessionTicket : Bytes) : Except NTSTATUS Bytes := do
  ensure (sessionTicket.length ≤ 0xffff) statusInvalidParameter
  return extensionOctets extensionSessionTicket sessionTicket

def clientHelloExtensions (options : TlsClientHelloOptions) : Except NTSTATUS Bytes := do
  let serverName ← buildServerNameExtension options.serverName
  let groups ← buildUint16VectorExtension extensionSupportedGroups
    (options.namedGroups.map (·.value))
  let schemes ← buildUint16VectorExtension extensionSignatureAlgorithms
    (options.signatureSchemes.map (·.value))
  let ticket ← buildSessionTicketExtension options.sessionTicket
  let alpn ← buildAlpnExtension options.alpnProtocols
  return serverName ++ groups ++ extensionOctets extensionEcPointFormats [1, 0] ++ schemes ++
    ticket ++ alpn ++ extensionOctets extensionExtendedMasterSecret [] ++
    extensionOctets extensionRenegotiationInfo [0] ++
    (if options.offerEncryptThenMac then extensionOctets extensionEncryptThenMac [] else []) ++
    if options.offerStatusRequest then extensionOctets extensionStatusRequest [1, 0, 0, 0, 0]
    else []

/-- What stands before the extensions: the version, the random, the session id, the suites and
the null compression. -/
def clientHelloFields (clientRandom : Bytes) (options : TlsClientHelloOptions) : Bytes :=
  [3, 3] ++ clientRandom ++ [UInt8.ofNat options.sessionId.length] ++ options.sessionId ++
    bigEndian 2 (options.cipherSuites.length * 2) ++
    options.cipherSuites.flatMap (fun suite => bigEndian 2 (tlsCipherSuiteValue suite)) ++ [1, 0]

/-- `TlsHandshake12::EncodeClientHello`; the body has 1024 octets, the extensions 512. -/
def encodeClientHello (clientRandom : Bytes) (options : TlsClientHelloOptions)
    (destinationCapacity : ℕ) : Except NTSTATUS Bytes := do
  ensure (options.cipherSuites ≠ [] ∧ options.cipherSuites.length ≤ 0x7fff ∧
    options.namedGroups.length ≤ 0x7fff ∧ options.signatureSchemes.length ≤ 0x7fff ∧
    options.sessionId.length ≤ tls12MaxSessionIdLength) statusInvalidParameter
  ensure ((clientHelloFields clientRandom options).length ≤ 1024) statusBufferTooSmall
  let extensions ← clientHelloExtensions options
  ensure (extensions.length ≤ 512) statusBufferTooSmall
  let body := clientHelloFields clientRandom options ++ bigEndian 2 extensions.length ++
    extensions
  ensure (body.length ≤ 1024) statusBufferTooSmall
  ensure (tlsHandshakeHeaderLength + body.length ≤ destinationCapacity) statusBufferTooSmall
  return handshakeMessage .clientHello body

/-! ## ServerHello -/

structure TlsServerHelloView where
  random : Bytes
  sessionId : Bytes
  cipherSuite : TlsCipherSuite
  extensions : Bytes
  hasExtendedMasterSecret : Bool
  hasSecureRenegotiation : Bool
  hasEncryptThenMac : Bool
deriving DecidableEq, Repr

/-- Where the session id of a ServerHello stands in its body. -/
def sessionIdOffset : ℕ := 2 + tlsRandomLength + 1

def supportedCipherSuite (value : ℕ) : Except NTSTATUS TlsCipherSuite :=
  match (cipherSuiteCapabilities.map (·.cipherSuite)).find? (tlsCipherSuiteValue · = value) with
  | some cipherSuite =>
    if isSupportedCipherSuite12 cipherSuite then .ok cipherSuite else .error statusNotSupported
  | none => .error statusNotSupported

/-- `ParseServerHelloExtensions`: no type comes twice, and those that the client looks at have
the data that they must have. -/
def parseServerHelloExtensions (extensions : Bytes) : Except NTSTATUS (List (ℕ × Bytes)) := do
  let entries ← extensionsOf extensions
  ensure (entries.map (·.1)).Nodup statusInvalidNetworkResponse
  ensure (∀ entry ∈ entries,
    (entry.1 = extensionExtendedMasterSecret → entry.2 = []) ∧
    (entry.1 = extensionRenegotiationInfo → entry.2 = [0]) ∧
    (entry.1 = extensionEncryptThenMac → entry.2 = [])) statusInvalidNetworkResponse
  return entries

/-- The extension block of a ServerHello, which may be missing. -/
def readServerHelloExtensions (rest : Bytes) : Except NTSTATUS Bytes :=
  if rest = [] then .ok []
  else do
    let (extensionsLength, rest) ← readUint16 rest
    let (extensions, rest) ← readBytes extensionsLength rest
    ensure (rest = []) statusInvalidNetworkResponse
    return extensions

/-- The fields in their order, then the extensions, which may be missing. -/
def parseServerHello (message : TlsHandshakeMessageView) : Except NTSTATUS TlsServerHelloView := do
  ensure (message.type = .serverHello) statusInvalidNetworkResponse
  let (version, rest) ← readUint16 message.body
  ensure (version = 0x0303) statusNotSupported
  let (random, rest) ← readBytes tlsRandomLength rest
  let (sessionIdLength, rest) ← readByte rest
  ensure (sessionIdLength ≤ tls12MaxSessionIdLength) statusInvalidNetworkResponse
  let (sessionId, rest) ← readBytes sessionIdLength rest
  let (suite, rest) ← readUint16 rest
  let cipherSuite ← supportedCipherSuite suite
  let (compressionMethod, rest) ← readByte rest
  ensure (compressionMethod = 0) statusNotSupported
  let extensions ← readServerHelloExtensions rest
  let entries ← parseServerHelloExtensions extensions
  let types := entries.map (·.1)
  return {
    random, sessionId, cipherSuite, extensions
    hasExtendedMasterSecret := types.contains extensionExtendedMasterSecret
    hasSecureRenegotiation := types.contains extensionRenegotiationInfo
    hasEncryptThenMac := types.contains extensionEncryptThenMac }

def validateServerHelloOffer (serverHello : TlsServerHelloView)
    (clientHello : TlsClientHelloOptions) : Except NTSTATUS Unit :=
  ensure (serverHello.cipherSuite ∈ clientHello.cipherSuites) statusInvalidNetworkResponse

def serverHelloHasEmptyExtension (serverHello : TlsServerHelloView) (type : ℕ) :
    Except NTSTATUS Bool := do
  match ← findExtension serverHello.extensions type with
  | none => return false
  | some data => do
    ensure (data = []) statusInvalidNetworkResponse
    return true

/-- `ParseServerHelloAlpn`, over extensions that have been walked before; no protocol is
negotiated without the extension. -/
def parseServerHelloAlpn (serverHello : TlsServerHelloView) (alpnCapacity : ℕ) :
    Except NTSTATUS Bytes := do
  let entries ← extensionsOf serverHello.extensions
  match entries.find? (·.1 = extensionAlpn) with
  | none => return []
  | some (_, data) => do
    ensure (4 ≤ data.length) statusInvalidNetworkResponse
    let (listLength, rest) ← readUint16 data
    ensure (listLength = rest.length) statusInvalidNetworkResponse
    let (protocolLength, rest) ← readByte rest
    ensure (protocolLength ≠ 0 ∧ protocolLength = rest.length) statusInvalidNetworkResponse
    ensure (protocolLength < alpnCapacity) statusBufferTooSmall
    return rest

/-! ## The server's other messages -/

/-- The certificates of a list, one for a unit of fuel. -/
def certificateCount : ℕ → Bytes → Except NTSTATUS ℕ
  | _, [] => .ok 0
  | 0, _ :: _ => .error statusInvalidNetworkResponse
  | fuel + 1, data => do
    let (certificateLength, rest) ← readUint24 data
    let (_, rest) ← readBytes certificateLength rest
    let count ← certificateCount fuel rest
    return count + 1

/-- `TlsHandshake12::ParseCertificateList`: the certificates, each behind its length. -/
def parseCertificateList (message : TlsHandshakeMessageView) :
    Except NTSTATUS CertificateChainView := do
  ensure (message.type = .certificate) statusInvalidNetworkResponse
  let (certificateListLength, rest) ← readUint24 message.body
  let (certificates, rest) ← readBytes certificateListLength rest
  let count ← certificateCount certificates.length certificates
  ensure (rest = [] ∧ count ≠ 0) statusInvalidNetworkResponse
  return { certificates, certificateCount := count }

/-- `TlsHandshake12::ParseCertificateStatus`: the OCSP response, which nothing looks at. -/
def parseCertificateStatus (message : TlsHandshakeMessageView) : Except NTSTATUS Bytes := do
  ensure (message.type = .certificateStatus) statusNotSupported
  let (statusType, rest) ← readByte message.body
  ensure (statusType = 1) statusInvalidNetworkResponse
  let (responseLength, rest) ← readUint24 rest
  ensure (responseLength ≠ 0 ∧ responseLength = rest.length) statusInvalidNetworkResponse
  return rest

/-- `TlsServerKeyExchangeView`: the public key is the point or the finite field element, at its
place in the body. -/
structure TlsServerKeyExchangeView where
  namedGroup : TlsNamedGroup := .secp256r1
  publicKey : Bytes := []
  publicKeyOffset : ℕ := 0
  parameters : Bytes := []
  signatureScheme : TlsSignatureScheme := ⟨0x0401⟩
  signature : Bytes := []

/-- `crypto::KeyExchange::FindFiniteFieldGroup` and `ValidateFiniteFieldPublicKey`. -/
structure FiniteFieldGroups where
  find : (prime generator : Bytes) → Except FailureStatus TlsNamedGroup
  validate : TlsNamedGroup → (publicKey : Bytes) → Except FailureStatus Unit

def readFiniteFieldParameters (groups : FiniteFieldGroups) (body : Bytes) :
    Except NTSTATUS (TlsServerKeyExchangeView × Bytes) := do
  let (primeLength, rest) ← readUint16 body
  let (prime, rest) ← readBytes primeLength rest
  let (generatorLength, rest) ← readUint16 rest
  let (generator, rest) ← readBytes generatorLength rest
  let (publicKeyLength, rest) ← readUint16 rest
  let publicKeyOffset := body.length - rest.length
  let (publicKey, rest) ← readBytes publicKeyLength rest
  let namedGroup ← (groups.find prime generator).mapError (·.val)
  (groups.validate namedGroup publicKey).mapError (·.val)
  return ({ namedGroup, publicKey, publicKeyOffset
            parameters := body.take (body.length - rest.length) }, rest)

def readCurveParameters (body : Bytes) : Except NTSTATUS (TlsServerKeyExchangeView × Bytes) := do
  let (curveType, rest) ← readByte body
  ensure (curveType = 3) statusNotSupported
  let (group, rest) ← readUint16 rest
  ensure (⟨group⟩ ∈ defaultNamedGroups) statusNotSupported
  let (pointLength, rest) ← readByte rest
  let publicKeyOffset := body.length - rest.length
  let (publicKey, rest) ← readBytes pointLength rest
  return ({ namedGroup := ⟨group⟩, publicKey, publicKeyOffset
            parameters := body.take (body.length - rest.length) }, rest)

/-- The parameters of the group, the key, and the signature over them. -/
def parseServerKeyExchange (groups : FiniteFieldGroups) (keyExchange : Tls12KeyExchangeKind)
    (message : TlsHandshakeMessageView) : Except NTSTATUS TlsServerKeyExchangeView := do
  ensure (message.type = .serverKeyExchange) statusInvalidNetworkResponse
  let (view, rest) ←
    match keyExchange with
    | .dheRsa => readFiniteFieldParameters groups message.body
    | .ecdheRsa | .ecdheEcdsa => readCurveParameters message.body
    | .rsa | .none => .error statusNotSupported
  let (scheme, rest) ← readUint16 rest
  ensure (isSupportedSignatureScheme12 ⟨scheme⟩) statusNotSupported
  let (signatureLength, rest) ← readUint16 rest
  let (signature, rest) ← readBytes signatureLength rest
  ensure (rest = [] ∧ view.publicKey ≠ [] ∧ signature ≠ []) statusInvalidNetworkResponse
  return { view with signatureScheme := ⟨scheme⟩, signature }

def validateServerKeyExchangeOffer (view : TlsServerKeyExchangeView)
    (clientHello : TlsClientHelloOptions) : Except NTSTATUS Unit :=
  ensure (view.namedGroup ∈ clientHello.namedGroups ∧
    view.signatureScheme ∈ clientHello.signatureSchemes) statusInvalidNetworkResponse

/-- `TlsHandshake12::ParseCertificateRequest`: the signature schemes. -/
def parseCertificateRequest (message : TlsHandshakeMessageView) : Except NTSTATUS Bytes := do
  ensure (message.type = .certificateRequest) statusInvalidNetworkResponse
  let (certificateTypeCount, rest) ← readByte message.body
  let (_, rest) ← readBytes certificateTypeCount rest
  let (signatureSchemeBytes, rest) ← readUint16 rest
  ensure (signatureSchemeBytes % 2 = 0) statusInvalidNetworkResponse
  let (signatureSchemes, rest) ← readBytes signatureSchemeBytes rest
  let (distinguishedNameBytes, rest) ← readUint16 rest
  let (_, rest) ← readBytes distinguishedNameBytes rest
  ensure (rest = [] ∧ certificateTypeCount ≠ 0 ∧ signatureSchemes ≠ [])
    statusInvalidNetworkResponse
  return signatureSchemes

def markServerHelloDone (message : TlsHandshakeMessageView) : Except NTSTATUS Unit :=
  ensure (message.type = .serverHelloDone ∧ message.body = []) statusInvalidNetworkResponse

/-! ## The client's messages -/

def encodeClientKeyExchange (publicKey : Bytes) (destinationCapacity : ℕ) :
    Except NTSTATUS Bytes := do
  ensure (publicKey.length ≠ 0 ∧ publicKey.length ≤ 255) statusInvalidParameter
  let body := UInt8.ofNat publicKey.length :: publicKey
  ensure (tlsHandshakeHeaderLength + body.length ≤ destinationCapacity) statusBufferTooSmall
  return handshakeMessage .clientKeyExchange body

def encodeClientKeyExchangeOpaque16 (publicKey : Bytes) (destinationCapacity : ℕ) :
    Except NTSTATUS Bytes := do
  ensure (publicKey.length ≠ 0 ∧ publicKey.length ≤ 0xffff) statusInvalidParameter
  let body := bigEndian 2 publicKey.length ++ publicKey
  ensure (tlsHandshakeHeaderLength + body.length ≤ destinationCapacity) statusBufferTooSmall
  return handshakeMessage .clientKeyExchange body

def encodeCertificate (certificateList : Bytes) (destinationCapacity : ℕ) :
    Except NTSTATUS Bytes := do
  ensure (certificateList.length ≤ 0xffffff) statusInvalidParameter
  let body := bigEndian 3 certificateList.length ++ certificateList
  ensure (tlsHandshakeHeaderLength + body.length ≤ destinationCapacity) statusBufferTooSmall
  return handshakeMessage .certificate body

/-! ## The PRF and the Finished messages -/

def prfHashForCipherSuite : TlsCipherSuite → HashAlgorithm
  | .tlsAes256GcmSha384 | .tlsEcdheRsaWithAes256GcmSha384 | .tlsEcdheEcdsaWithAes256GcmSha384
  | .tlsDheRsaWithAes256GcmSha384 | .tlsRsaWithAes256GcmSha384 => .sha384
  | _ => .sha256

/-- The blocks of `PHash`; `a` is the HMAC that the next one begins with. -/
def pHashBlocks (K : KeyFunctions) (algorithm : HashAlgorithm) (secret seed : Bytes) :
    ℕ → (a : Bytes) → Bytes
  | 0, _ => []
  | blocks + 1, a =>
    K.hmac algorithm secret (a ++ seed) ++
      pHashBlocks K algorithm secret seed blocks (K.hmac algorithm secret a)

/-- `PHash`: as many blocks as the output takes. -/
def pHash (K : KeyFunctions) (algorithm : HashAlgorithm) (secret seed : Bytes)
    (outputLength : ℕ) : Bytes :=
  (pHashBlocks K algorithm secret seed (outputLength / hashDigestLength algorithm + 1)
    (K.hmac algorithm secret seed)).take outputLength

/-- `TlsHandshake12::Prf`, with a label and a seed that fit its buffer. -/
def prf (K : KeyFunctions) (algorithm : HashAlgorithm) (secret label seed : Bytes)
    (outputLength : ℕ) : Bytes :=
  pHash K algorithm secret (label ++ seed) outputLength

def computeVerifyData (K : KeyFunctions) (cipherSuite : TlsCipherSuite) (masterSecret : Bytes)
    (clientFinished : Bool) (transcriptHash : Bytes) : Bytes :=
  prf K (prfHashForCipherSuite cipherSuite) masterSecret
    (text (if clientFinished then "client finished" else "server finished")) transcriptHash
    tlsVerifyDataLength

/-- `TlsHandshake12::EncodeFinished`, into a buffer with room for it. -/
def encodeFinished (K : KeyFunctions) (cipherSuite : TlsCipherSuite) (masterSecret : Bytes)
    (transcriptHash : Bytes) : Except NTSTATUS Bytes := do
  ensure (masterSecret.length = tlsMasterSecretLength) statusInvalidParameter
  return handshakeMessage .finished
    (computeVerifyData K cipherSuite masterSecret true transcriptHash)

/-- `TlsHandshake12::VerifyFinished`, for the server. -/
def verifyFinished (K : KeyFunctions) (cipherSuite : TlsCipherSuite) (masterSecret : Bytes)
    (transcriptHash verifyData : Bytes) : Except NTSTATUS Unit := do
  ensure (verifyData.length = tlsVerifyDataLength ∧ masterSecret.length = tlsMasterSecretLength)
    statusInvalidParameter
  ensure (computeVerifyData K cipherSuite masterSecret false transcriptHash = verifyData)
    statusInvalidNetworkResponse

def deriveExtendedMasterSecret (K : KeyFunctions) (cipherSuite : TlsCipherSuite)
    (premasterSecret sessionHash : Bytes) : Except NTSTATUS Bytes := do
  ensure (premasterSecret ≠ [] ∧ sessionHash ≠ []) statusInvalidParameter
  return prf K (prfHashForCipherSuite cipherSuite) premasterSecret
    (text "extended master secret") sessionHash tlsMasterSecretLength

/-- `DeriveKeyBlock` and `ConfigureAesGcmStates`: the state that the client writes with and the
one that the server writes with. -/
def keyStates (K : KeyFunctions) (cipherSuite : TlsCipherSuite)
    (masterSecret serverRandom clientRandom : Bytes) :
    Except NTSTATUS (TlsAeadCipherState × TlsAeadCipherState) := do
  ensure (masterSecret.length = tlsMasterSecretLength) statusInvalidParameter
  let keyExpansion := prf K (prfHashForCipherSuite cipherSuite) masterSecret
    (text "key expansion") (serverRandom ++ clientRandom) tlsMaxKeyBlockLength
  tls12States cipherSuite fun n => keyExpansion.getD n 0

end TlsHandshake12

/-! ## Sessions -/

structure Tls12Session where
  sessionId : Bytes
  ticket : Bytes
  ticketLifetimeHintSeconds : ℕ
  issueTimeMilliseconds : UInt64
  version : UInt8 × UInt8 := (3, 3)
  serverName : Bytes
  alpn : Bytes
  cipherSuite : TlsCipherSuite
  masterSecret : Bytes
  policyIdentity : ℕ
deriving DecidableEq, Repr

/-- `TlsClientConnectionOptions`, with what TLS 1.2 reads besides. -/
structure TlsConnectOptions extends TlsClientConnectionOptions where
  minimumProtocol : TlsProtocol := .tls12
  maximumProtocol : TlsProtocol := .tls13
  certificateStore : Option CertificateStore := none
  verifyCertificate : Bool := true
  tls12SessionCache : Option (List Tls12Session) := none

namespace Tls12Session

open TlsHandshake12

/-- `Tls12SessionServerNameMatches`. -/
def serverNameMatches (session : Tls12Session) (options : TlsConnectOptions) : Bool :=
  session.serverName ≠ [] && session.serverName.length ≤ tls12MaxSessionServerNameLength &&
    options.serverName.length ≤ tls12MaxSessionServerNameLength &&
    textEqualsIgnoreCase session.serverName options.serverName

/-- `Tls12SessionAlpnMatches`. -/
def alpnMatches (session : Tls12Session) (options : TlsConnectOptions) : Bool :=
  if session.alpn = [] then options.alpnProtocols = []
  else session.alpn.length ≤ tls12MaxSessionAlpnLength &&
    isOfferedAlpn options.toTlsClientConnectionOptions session.alpn

def inLifetime (session : Tls12Session) (now : UInt64) : Bool :=
  let expiresAt := session.issueTimeMilliseconds.toNat + session.ticketLifetimeHintSeconds * 1000
  session.ticketLifetimeHintSeconds = 0 ||
    expiresAt ≤ maxUnsigned64 && session.issueTimeMilliseconds ≤ now && now.toNat < expiresAt

/-- The checks of `SelectTls12Session`. -/
def usable (session : Tls12Session) (options : TlsConnectOptions) (policyIdentity : ℕ)
    (now : UInt64) : Bool :=
  session.masterSecret.length = tlsMasterSecretLength && session.version = (3, 3) &&
    session.policyIdentity = policyIdentity &&
    tlsPolicyAllowsCipherSuite options.policy session.cipherSuite &&
    session.serverNameMatches options && session.alpnMatches options &&
    session.inLifetime now && !(session.sessionId = [] && session.ticket = []) &&
    session.sessionId.length ≤ tls12MaxSessionIdLength &&
    session.ticket.length ≤ tls12MaxTicketLength

/-- `Tls12ServerHelloEchoedSessionId`. -/
def echoedBy (session : Tls12Session) (serverHello : TlsServerHelloView) : Bool :=
  session.sessionId ≠ [] && serverHello.sessionId = session.sessionId

/-- `StoreTls12SessionInCache`; the oldest session makes room. -/
def storedIn (session : Tls12Session) (sessions : List Tls12Session) : List Tls12Session :=
  if session.masterSecret.length ≠ tlsMasterSecretLength ∨
      session.sessionId = [] ∧ session.ticket = [] then sessions
  else if sessions.length < tls12MaxSessionCount then sessions ++ [session]
  else sessions.tail ++ [session]

end Tls12Session

/-- `SelectTls12Session`: the newest session that can be used. -/
def selectTls12Session (options : TlsConnectOptions) (policyIdentity : ℕ) (now : UInt64) :
    Option Tls12Session :=
  let sessions := options.tls12SessionCache.getD []
  if options.enableSessionResumption = false ∨ sessions = [] ∨
      tls12MaxSessionCount < sessions.length then none
  else sessions.reverse.find? (·.usable options policyIdentity now)

end KernelHttp.Tls
