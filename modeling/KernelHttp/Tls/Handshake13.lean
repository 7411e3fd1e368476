/-
  The handshake messages of TLS 1.3 (`tls/TlsHandshake13.cpp`, and `ParseMessage` of
  `tls/TlsHandshake12.cpp`).

  Every read beyond the end of a body is `STATUS_INVALID_NETWORK_RESPONSE`.
-/
import KernelHttp.Tls.CipherSuites
import KernelHttp.Tls.HostName

namespace KernelHttp.Tls

open BigEndian

def tlsHandshakeHeaderLength : ℕ := 4
def tlsRandomLength : ℕ := 32
def tls13MaxExtensionsLength : ℕ := 4096
def tls13MaxBinderLength : ℕ := 48
def tls13Version : ℕ := 0x0304

/-- `TlsHandshakeType`; any octet may arrive. -/
structure TlsHandshakeType where
  octet : UInt8
deriving DecidableEq, Repr

namespace TlsHandshakeType

def clientHello : TlsHandshakeType := ⟨1⟩
def serverHello : TlsHandshakeType := ⟨2⟩
def newSessionTicket : TlsHandshakeType := ⟨4⟩
def endOfEarlyData : TlsHandshakeType := ⟨5⟩
def encryptedExtensions : TlsHandshakeType := ⟨8⟩
def certificate : TlsHandshakeType := ⟨11⟩
def certificateRequest : TlsHandshakeType := ⟨13⟩
def certificateVerify : TlsHandshakeType := ⟨15⟩
def finished : TlsHandshakeType := ⟨20⟩
def keyUpdate : TlsHandshakeType := ⟨24⟩
def messageHash : TlsHandshakeType := ⟨254⟩

end TlsHandshakeType

/-- `TlsNamedGroup`; any value may arrive. -/
structure TlsNamedGroup where
  value : ℕ
deriving DecidableEq, Repr

namespace TlsNamedGroup

def secp256r1 : TlsNamedGroup := ⟨23⟩
def secp384r1 : TlsNamedGroup := ⟨24⟩
def secp521r1 : TlsNamedGroup := ⟨25⟩
def x25519 : TlsNamedGroup := ⟨29⟩
def x448 : TlsNamedGroup := ⟨30⟩
def ffdhe2048 : TlsNamedGroup := ⟨256⟩
def ffdhe3072 : TlsNamedGroup := ⟨257⟩
def ffdhe4096 : TlsNamedGroup := ⟨258⟩
def ffdhe6144 : TlsNamedGroup := ⟨259⟩
def ffdhe8192 : TlsNamedGroup := ⟨260⟩

end TlsNamedGroup

/-- `TlsSignatureScheme`; any value may arrive. -/
structure TlsSignatureScheme where
  value : ℕ
deriving DecidableEq, Repr

/-! ## Extension types -/

def extensionServerName : ℕ := 0
def extensionSupportedGroups : ℕ := 10
def extensionSignatureAlgorithms : ℕ := 13
def extensionAlpn : ℕ := 16
def extensionPreSharedKey : ℕ := 41
def extensionEarlyData : ℕ := 42
def extensionSupportedVersions : ℕ := 43
def extensionPskKeyExchangeModes : ℕ := 45
def extensionSignatureAlgorithmsCert : ℕ := 50
def extensionKeyShare : ℕ := 51

def helloRetryRequestRandom : Bytes :=
  [0xCF, 0x21, 0xAD, 0x74, 0xE5, 0x9A, 0x61, 0x11,
   0xBE, 0x1D, 0x8C, 0x02, 0x1E, 0x65, 0xB8, 0x91,
   0xC2, 0xA2, 0x11, 0x16, 0x7A, 0xBB, 0x8C, 0x5E,
   0x07, 0x9E, 0x09, 0xE2, 0xC8, 0xA8, 0x33, 0x9C]

def defaultCipherSuites : List TlsCipherSuite :=
  [.tlsAes128GcmSha256, .tlsAes256GcmSha384, .tlsChaCha20Poly1305Sha256]

def defaultNamedGroups : List TlsNamedGroup :=
  [.x25519, .x448, .secp256r1, .secp384r1, .secp521r1, .ffdhe2048, .ffdhe3072, .ffdhe4096,
   .ffdhe6144, .ffdhe8192]

def defaultSignatureSchemes : List TlsSignatureScheme :=
  [⟨0x0804⟩, ⟨0x0805⟩, ⟨0x0806⟩, ⟨0x0403⟩, ⟨0x0503⟩, ⟨0x0603⟩, ⟨0x0807⟩, ⟨0x0808⟩, ⟨0x0809⟩,
   ⟨0x080a⟩, ⟨0x080b⟩, ⟨0x0401⟩, ⟨0x0501⟩, ⟨0x0601⟩]

def tls13CipherSuiteValue : TlsCipherSuite → ℕ
  | .tlsAes128GcmSha256 => 0x1301
  | .tlsAes256GcmSha384 => 0x1302
  | .tlsChaCha20Poly1305Sha256 => 0x1303
  | .tlsAes128CcmSha256 => 0x1304
  | .tlsAes128Ccm8Sha256 => 0x1305
  | _ => 0

/-- `TlsHandshake13::IsSupportedCipherSuite`, with the suite. -/
def supportedCipherSuite13 (value : ℕ) : Except NTSTATUS TlsCipherSuite :=
  if value = 0x1301 then .ok .tlsAes128GcmSha256
  else if value = 0x1302 then .ok .tlsAes256GcmSha384
  else if value = 0x1303 then .ok .tlsChaCha20Poly1305Sha256
  else if value = 0x1304 then .ok .tlsAes128CcmSha256
  else if value = 0x1305 then .ok .tlsAes128Ccm8Sha256
  else .error statusNotSupported

/-! ## Messages -/

structure TlsHandshakeMessageView where
  type : TlsHandshakeType
  body : Bytes
deriving DecidableEq, Repr

def TlsHandshakeMessageView.bytesConsumed (message : TlsHandshakeMessageView) : ℕ :=
  tlsHandshakeHeaderLength + message.body.length

/-- `TlsHandshake12::ParseMessage`; a length of three octets is never above the maximum. -/
def parseMessage (data : Bytes) : Except NTSTATUS TlsHandshakeMessageView :=
  match data with
  | type :: l₁ :: l₂ :: l₃ :: rest =>
    let bodyLength := ofBigEndian [l₁, l₂, l₃]
    if rest.length < bodyLength then .error statusMoreProcessingRequired
    else .ok ⟨⟨type⟩, rest.take bodyLength⟩
  | _ => .error statusMoreProcessingRequired

def handshakeMessage (type : TlsHandshakeType) (body : Bytes) : Bytes :=
  type.octet :: bigEndian 3 body.length ++ body

/-! ## Reading -/

/-- A condition that a function checks. -/
def ensure (p : Prop) [Decidable p] (status : NTSTATUS) : Except NTSTATUS Unit :=
  if p then .ok () else .error status

/-- `ReadBytes`, with what follows. -/
def readBytes (n : ℕ) (data : Bytes) : Except NTSTATUS (Bytes × Bytes) :=
  if data.length < n then .error statusInvalidNetworkResponse
  else .ok (data.take n, data.drop n)

/-- A number of `n` octets, with what follows. -/
def readUint (n : ℕ) (data : Bytes) : Except NTSTATUS (ℕ × Bytes) := do
  let (octets, rest) ← readBytes n data
  return (ofBigEndian octets, rest)

def readByte : Bytes → Except NTSTATUS (ℕ × Bytes) := readUint 1

def readUint16 : Bytes → Except NTSTATUS (ℕ × Bytes) := readUint 2

def readUint24 : Bytes → Except NTSTATUS (ℕ × Bytes) := readUint 3

def readUint32 : Bytes → Except NTSTATUS (ℕ × Bytes) := readUint 4

/-! ## Extensions -/

/-- The walk over an extension block, one extension for a unit of fuel. -/
def extensionsFrom : ℕ → Bytes → Except NTSTATUS (List (ℕ × Bytes))
  | _, [] => .ok []
  | 0, _ :: _ => .error statusInvalidNetworkResponse
  | fuel + 1, data => do
    let (type, rest) ← readUint16 data
    let (length, rest) ← readUint16 rest
    let (extension, rest) ← readBytes length rest
    let extensions ← extensionsFrom fuel rest
    return (type, extension) :: extensions

/-- The extensions of a block.  Each takes four octets or more. -/
def extensionsOf (extensions : Bytes) : Except NTSTATUS (List (ℕ × Bytes)) :=
  extensionsFrom extensions.length extensions

/-- `FindExtension`: a second extension of the type is an error. -/
def findExtension (extensions : Bytes) (type : ℕ) : Except NTSTATUS (Option Bytes) := do
  let entries ← extensionsOf extensions
  match entries.filter (·.1 = type) with
  | [] => .ok none
  | [entry] => .ok (some entry.2)
  | _ => .error statusInvalidNetworkResponse

def validateNoDuplicateExtensions (extensions : Bytes) : Except NTSTATUS Unit := do
  let entries ← extensionsOf extensions
  ensure (entries.map (·.1)).Nodup statusInvalidNetworkResponse

def parseAlpnExtension (data : Bytes) : Except NTSTATUS Bytes := do
  ensure (3 ≤ data.length) statusInvalidNetworkResponse
  let (listLength, rest) ← readUint16 data
  ensure (listLength = rest.length ∧ listLength ≠ 0) statusInvalidNetworkResponse
  let (protocolLength, rest) ← readByte rest
  ensure (protocolLength ≠ 0 ∧ protocolLength = rest.length) statusInvalidNetworkResponse
  return rest

/-! ## ServerHello -/

structure Tls13KeyShareEntry where
  group : TlsNamedGroup := ⟨0⟩
  keyExchange : Bytes := []
deriving DecidableEq, Repr

/-- The value of `SelectedPskIdentity` when the server has selected none. -/
def noPskIdentity : ℕ := 0xffff

structure Tls13ServerHelloView where
  random : Bytes
  isHelloRetryRequest : Bool
  sessionId : Bytes
  cipherSuite : TlsCipherSuite
  extensions : Bytes
  retryGroup : TlsNamedGroup
  keyShare : Tls13KeyShareEntry
  selectedPskIdentity : ℕ
deriving DecidableEq, Repr

def parseSelectedVersion (extension : Option Bytes) : Except NTSTATUS Unit :=
  match extension with
  | none => .error statusInvalidNetworkResponse
  | some data => do
    ensure (data.length = 2) statusInvalidNetworkResponse
    let (selectedVersion, _) ← readUint16 data
    ensure (selectedVersion = tls13Version) statusNotSupported

/-- The key_share extension of a HelloRetryRequest. -/
def parseRetryGroup (extension : Option Bytes) : Except NTSTATUS TlsNamedGroup :=
  match extension with
  | none => .error statusInvalidNetworkResponse
  | some data => do
    ensure (data.length = 2) statusInvalidNetworkResponse
    let (retryGroup, _) ← readUint16 data
    return ⟨retryGroup⟩

def parseServerKeyShare (extension : Option Bytes) : Except NTSTATUS Tls13KeyShareEntry :=
  match extension with
  | none => .error statusInvalidNetworkResponse
  | some data => do
    ensure (4 ≤ data.length) statusInvalidNetworkResponse
    let (group, rest) ← readUint16 data
    let (keyExchangeLength, rest) ← readUint16 rest
    let (keyExchange, rest) ← readBytes keyExchangeLength rest
    ensure (rest = [] ∧ keyExchangeLength ≠ 0) statusInvalidNetworkResponse
    return ⟨⟨group⟩, keyExchange⟩

/-- The pre_shared_key extension of a ServerHello. -/
def parseSelectedPskIdentity (extension : Option Bytes) : Except NTSTATUS ℕ :=
  match extension with
  | none => .ok noPskIdentity
  | some data => do
    ensure (data.length = 2) statusInvalidNetworkResponse
    let (selected, _) ← readUint16 data
    return selected

def parseServerHelloKeyShare (isHelloRetryRequest : Bool) (extension : Option Bytes) :
    Except NTSTATUS (TlsNamedGroup × Tls13KeyShareEntry) :=
  if isHelloRetryRequest then do
    let retryGroup ← parseRetryGroup extension
    return (retryGroup, {})
  else do
    let keyShare ← parseServerKeyShare extension
    return (⟨0⟩, keyShare)

/-- `TlsHandshake13::ParseServerHello`; the caller stores the suite and the random. -/
def parseServerHello (message : TlsHandshakeMessageView) :
    Except NTSTATUS Tls13ServerHelloView := do
  ensure (message.type = .serverHello) statusInvalidNetworkResponse
  let (legacyVersion, rest) ← readUint16 message.body
  let (random, rest) ← readBytes tlsRandomLength rest
  ensure (legacyVersion = 0x0303) statusInvalidNetworkResponse
  let (sessionIdLength, rest) ← readByte rest
  let (sessionId, rest) ← readBytes sessionIdLength rest
  let (value, rest) ← readUint16 rest
  let cipherSuite ← supportedCipherSuite13 value
  let (compression, rest) ← readByte rest
  ensure (compression = 0) statusInvalidNetworkResponse
  let (extensionsLength, rest) ← readUint16 rest
  let (extensions, rest) ← readBytes extensionsLength rest
  ensure (rest = []) statusInvalidNetworkResponse
  validateNoDuplicateExtensions extensions
  let version ← findExtension extensions extensionSupportedVersions
  parseSelectedVersion version
  let share ← findExtension extensions extensionKeyShare
  let (retryGroup, keyShare) ←
    parseServerHelloKeyShare (random = helloRetryRequestRandom) share
  let psk ← findExtension extensions extensionPreSharedKey
  let selectedPskIdentity ← parseSelectedPskIdentity psk
  return { random, isHelloRetryRequest := random = helloRetryRequestRandom, sessionId,
           cipherSuite, extensions, retryGroup, keyShare, selectedPskIdentity }

/-! ## The messages behind ServerHello -/

structure Tls13EncryptedExtensionsView where
  extensions : Bytes
  alpn : Bytes
  earlyDataAccepted : Bool
deriving DecidableEq, Repr

/-- The ALPN extension of EncryptedExtensions; without it there is no protocol. -/
def parseSelectedAlpn (extension : Option Bytes) : Except NTSTATUS Bytes :=
  match extension with
  | none => .ok []
  | some data => parseAlpnExtension data

def parseEarlyDataAccepted (extension : Option Bytes) : Except NTSTATUS Bool :=
  match extension with
  | none => .ok false
  | some data => do
    ensure (data = []) statusInvalidNetworkResponse
    return true

def parseEncryptedExtensions (message : TlsHandshakeMessageView) :
    Except NTSTATUS Tls13EncryptedExtensionsView := do
  ensure (message.type = .encryptedExtensions) statusInvalidNetworkResponse
  let (extensionsLength, rest) ← readUint16 message.body
  let (extensions, rest) ← readBytes extensionsLength rest
  ensure (rest = []) statusInvalidNetworkResponse
  validateNoDuplicateExtensions extensions
  let alpnExtension ← findExtension extensions extensionAlpn
  let alpn ← parseSelectedAlpn alpnExtension
  let earlyData ← findExtension extensions extensionEarlyData
  let earlyDataAccepted ← parseEarlyDataAccepted earlyData
  return { extensions, alpn, earlyDataAccepted }

structure Tls13CertificateRequestView where
  context : Bytes
  extensions : Bytes
deriving DecidableEq, Repr

def parseCertificateRequest (message : TlsHandshakeMessageView) :
    Except NTSTATUS Tls13CertificateRequestView := do
  ensure (message.type = .certificateRequest) statusInvalidNetworkResponse
  let (contextLength, rest) ← readByte message.body
  let (context, rest) ← readBytes contextLength rest
  let (extensionsLength, rest) ← readUint16 rest
  let (extensions, rest) ← readBytes extensionsLength rest
  ensure (rest = []) statusInvalidNetworkResponse
  return { context, extensions }

structure Tls13CertificateView where
  requestContext : Bytes
  certificates : Bytes
  certificateCount : ℕ
deriving DecidableEq, Repr

/-- The certificates of a list, one for a unit of fuel. -/
def countCertificates : ℕ → Bytes → Except NTSTATUS ℕ
  | _, [] => .ok 0
  | 0, _ :: _ => .error statusInvalidNetworkResponse
  | fuel + 1, data => do
    let (certLength, rest) ← readUint24 data
    ensure (certLength ≠ 0) statusInvalidNetworkResponse
    let (_, rest) ← readBytes certLength rest
    let (certExtensionsLength, rest) ← readUint16 rest
    let (_, rest) ← readBytes certExtensionsLength rest
    let count ← countCertificates fuel rest
    return count + 1

/-- `TlsHandshake13::ParseCertificate`. -/
def parseTls13Certificate (message : TlsHandshakeMessageView) :
    Except NTSTATUS Tls13CertificateView := do
  ensure (message.type = .certificate) statusInvalidNetworkResponse
  let (contextLength, rest) ← readByte message.body
  let (requestContext, rest) ← readBytes contextLength rest
  let (listLength, rest) ← readUint24 rest
  let (certificates, rest) ← readBytes listLength rest
  ensure (rest = [] ∧ listLength ≠ 0) statusInvalidNetworkResponse
  let certificateCount ← countCertificates certificates.length certificates
  return { requestContext, certificates, certificateCount }

structure Tls13CertificateVerifyView where
  signatureScheme : TlsSignatureScheme
  signature : Bytes
deriving DecidableEq, Repr

def parseCertificateVerify (message : TlsHandshakeMessageView) :
    Except NTSTATUS Tls13CertificateVerifyView := do
  ensure (message.type = .certificateVerify) statusInvalidNetworkResponse
  let (scheme, rest) ← readUint16 message.body
  let (signatureLength, rest) ← readUint16 rest
  let (signature, rest) ← readBytes signatureLength rest
  ensure (rest = [] ∧ signatureLength ≠ 0) statusInvalidNetworkResponse
  return { signatureScheme := ⟨scheme⟩, signature }

inductive Tls13KeyUpdateRequest where
  | updateNotRequested
  | updateRequested
deriving DecidableEq, Repr

/-- The values of the enumeration. -/
def Tls13KeyUpdateRequest.octet : Tls13KeyUpdateRequest → UInt8
  | .updateNotRequested => 0
  | .updateRequested => 1

def parseKeyUpdate (message : TlsHandshakeMessageView) :
    Except NTSTATUS Tls13KeyUpdateRequest := do
  ensure (message.type = .keyUpdate) statusInvalidNetworkResponse
  if message.body = [0] then return .updateNotRequested
  else if message.body = [1] then return .updateRequested
  else .error statusInvalidNetworkResponse

structure Tls13NewSessionTicketView where
  lifetimeSeconds : ℕ
  ageAdd : ℕ
  nonce : Bytes
  ticket : Bytes
  maxEarlyDataSize : ℕ
deriving DecidableEq, Repr

def parseMaxEarlyDataSize (extension : Option Bytes) : Except NTSTATUS ℕ :=
  match extension with
  | none => .ok 0
  | some data => do
    ensure (data.length = 4) statusInvalidNetworkResponse
    let (size, _) ← readUint32 data
    return size

def parseNewSessionTicket (message : TlsHandshakeMessageView) :
    Except NTSTATUS Tls13NewSessionTicketView := do
  ensure (message.type = .newSessionTicket) statusInvalidNetworkResponse
  let (lifetimeSeconds, rest) ← readUint32 message.body
  let (ageAdd, rest) ← readUint32 rest
  let (nonceLength, rest) ← readByte rest
  let (nonce, rest) ← readBytes nonceLength rest
  let (ticketLength, rest) ← readUint16 rest
  let (ticket, rest) ← readBytes ticketLength rest
  let (extensionsLength, rest) ← readUint16 rest
  let (extensions, rest) ← readBytes extensionsLength rest
  ensure (rest = [] ∧ ticketLength ≠ 0) statusInvalidNetworkResponse
  validateNoDuplicateExtensions extensions
  let earlyData ← findExtension extensions extensionEarlyData
  let maxEarlyDataSize ← parseMaxEarlyDataSize earlyData
  return { lifetimeSeconds, ageAdd, nonce, ticket, maxEarlyDataSize }

/-! ## ClientHello -/

structure Tls13PskIdentity where
  identity : Bytes
  obfuscatedTicketAge : UInt32
  binder : Bytes
deriving DecidableEq, Repr

/-- `Tls13ClientHelloOptions`; suites, groups and schemes are the default ones. -/
structure Tls13ClientHelloOptions where
  serverName : Bytes
  alpnProtocols : List Bytes
  keyShares : List Tls13KeyShareEntry
  pskIdentities : List Tls13PskIdentity
  offerEarlyData : Bool
deriving DecidableEq, Repr

def extensionOctets (type : ℕ) (data : Bytes) : Bytes :=
  bigEndian 2 type ++ bigEndian 2 data.length ++ data

def isAsciiLetter (c : UInt8) : Bool := (65 ≤ c.toNat && c.toNat ≤ 90) || (97 ≤ c.toNat && c.toNat ≤ 122)

def isAsciiDigit (c : UInt8) : Bool := 48 ≤ c.toNat && c.toNat ≤ 57

/-- The loop of `IsValidSniDnsName`. -/
def sniLabels : Bytes → (hasAlpha : Bool) → (labelLength : ℕ) → Bool
  | [], hasAlpha, labelLength => hasAlpha && labelLength != 0 && labelLength ≤ 63
  | c :: rest, hasAlpha, labelLength =>
    if c.toNat ≥ 0x80 || c = 58 then false
    else if c = 46 then
      if labelLength = 0 || labelLength > 63 then false else sniLabels rest hasAlpha 0
    else if ¬ isAsciiLetter c ∧ ¬ isAsciiDigit c ∧ c ≠ 45 then false
    else sniLabels rest (hasAlpha || isAsciiLetter c) (labelLength + 1)

def isValidSniDnsName (name : Bytes) : Bool :=
  name.length ≠ 0 && name.length ≤ 253 && sniLabels name false 0

def buildServerNameExtension (serverName : Bytes) : Except NTSTATUS Bytes :=
  if serverName = [] then .ok []
  else if ¬ isValidSniDnsName serverName then .error statusInvalidParameter
  else
    .ok (extensionOctets extensionServerName
      (bigEndian 2 (serverName.length + 3) ++ [0] ++ bigEndian 2 serverName.length ++ serverName))

def buildUint16VectorExtension (type : ℕ) (values : List ℕ) : Except NTSTATUS Bytes :=
  if values = [] then .ok []
  else if values.length > 0x7fff then .error statusInvalidParameter
  else
    .ok (extensionOctets type (bigEndian 2 (values.length * 2) ++ values.flatMap (bigEndian 2)))

def buildSupportedVersionsExtension : Bytes :=
  extensionOctets extensionSupportedVersions ([2] ++ bigEndian 2 tls13Version)

/-- `BuildPskModesExtension`: the mode is psk_dhe_ke. -/
def buildPskModesExtension : Bytes := extensionOctets extensionPskKeyExchangeModes [1, 1]

def keyShareOctets (share : Tls13KeyShareEntry) : Bytes :=
  bigEndian 2 share.group.value ++ bigEndian 2 share.keyExchange.length ++ share.keyExchange

def buildKeyShareExtension (keyShares : List Tls13KeyShareEntry) : Except NTSTATUS Bytes :=
  if keyShares = [] then .ok []
  else if keyShares.any (fun share =>
      share.keyExchange.length = 0 || share.keyExchange.length > 0xffff) then
    .error statusInvalidParameter
  else
    let entries := keyShares.flatMap keyShareOctets
    if entries.length > 0xffff then .error statusInvalidParameter
    else .ok (extensionOctets extensionKeyShare (bigEndian 2 entries.length ++ entries))

def buildAlpnExtension (alpnProtocols : List Bytes) : Except NTSTATUS Bytes :=
  if alpnProtocols = [] then .ok []
  else if alpnProtocols.any (fun name => name.length = 0 || name.length > 255) then
    .error statusInvalidParameter
  else
    let list := alpnProtocols.flatMap fun name => UInt8.ofNat name.length :: name
    if list.length > 0xfffd then .error statusInvalidParameter
    else .ok (extensionOctets extensionAlpn (bigEndian 2 list.length ++ list))

def buildEarlyDataExtension (enabled : Bool) : Bytes :=
  if enabled then extensionOctets extensionEarlyData [] else []

/-- The identities of a pre_shared_key extension. -/
def pskIdentityOctets (psk : Tls13PskIdentity) : Bytes :=
  bigEndian 2 psk.identity.length ++ psk.identity ++ bigEndian 4 psk.obfuscatedTicketAge.toNat

/-- The binders of a pre_shared_key extension. -/
def pskBinderOctets (psk : Tls13PskIdentity) : Bytes :=
  UInt8.ofNat psk.binder.length :: psk.binder

def buildPreSharedKeyExtension (pskIdentities : List Tls13PskIdentity) : Except NTSTATUS Bytes :=
  if pskIdentities = [] then .ok []
  else if pskIdentities.any (fun psk =>
      psk.identity.length = 0 || psk.identity.length > 0xffff || psk.binder.length = 0 ||
        psk.binder.length > tls13MaxBinderLength) then
    .error statusInvalidParameter
  else
    let identities := pskIdentities.flatMap pskIdentityOctets
    let binders := pskIdentities.flatMap pskBinderOctets
    if identities.length > 0xffff ∨ binders.length > 0xffff ∨
        2 + identities.length + 2 + binders.length > 0xffff then
      .error statusInvalidParameter
    else
      .ok (extensionOctets extensionPreSharedKey
        (bigEndian 2 identities.length ++ identities ++ bigEndian 2 binders.length ++ binders))

def clientHelloExtensions (options : Tls13ClientHelloOptions) : Except NTSTATUS Bytes := do
  let serverName ← buildServerNameExtension options.serverName
  let groups ← buildUint16VectorExtension extensionSupportedGroups
    (defaultNamedGroups.map (·.value))
  let schemes ← buildUint16VectorExtension extensionSignatureAlgorithms
    (defaultSignatureSchemes.map (·.value))
  let certSchemes ← buildUint16VectorExtension extensionSignatureAlgorithmsCert
    (defaultSignatureSchemes.map (·.value))
  let keyShare ← buildKeyShareExtension options.keyShares
  let alpn ← buildAlpnExtension options.alpnProtocols
  let preSharedKey ← buildPreSharedKeyExtension options.pskIdentities
  return serverName ++ buildSupportedVersionsExtension ++ groups ++ schemes ++ certSchemes ++
    keyShare ++ buildPskModesExtension ++ alpn ++
    buildEarlyDataExtension options.offerEarlyData ++ preSharedKey

/-- What stands before the extensions: the version, the random, an empty session id, the
suites and the null compression. -/
def clientHelloFields (clientRandom : Bytes) : Bytes :=
  bigEndian 2 0x0303 ++ clientRandom ++ [0] ++ bigEndian 2 (defaultCipherSuites.length * 2) ++
    defaultCipherSuites.flatMap (fun suite => bigEndian 2 (tls13CipherSuiteValue suite)) ++ [1, 0]

/-- `TlsHandshake13::EncodeClientHello`; the body and the extensions have 4096 octets each. -/
def encodeClientHello (clientRandom : Bytes) (options : Tls13ClientHelloOptions)
    (destinationCapacity : ℕ) : Except NTSTATUS Bytes := do
  let extensions ← clientHelloExtensions options
  ensure (extensions.length ≤ tls13MaxExtensionsLength) statusBufferTooSmall
  let body := clientHelloFields clientRandom ++ bigEndian 2 extensions.length ++ extensions
  ensure (body.length ≤ 4096) statusBufferTooSmall
  ensure (tlsHandshakeHeaderLength + body.length ≤ destinationCapacity) statusBufferTooSmall
  return handshakeMessage .clientHello body

@[simp] theorem ntSuccess_notFound : ntSuccess statusNotFound = false := rfl

/-- The pre_shared_key extension of `FindPskBinderTranscriptLength`: the octets of it that
stand before the binders. -/
def pskBinderOffset (extension : Bytes) : Except NTSTATUS ℕ := do
  ensure (4 ≤ extension.length) statusInvalidNetworkResponse
  let (identitiesLength, rest) ← readUint16 extension
  ensure (identitiesLength ≠ 0 ∧ identitiesLength ≤ extension.length - 2)
    statusInvalidNetworkResponse
  let (_, rest) ← readBytes identitiesLength rest
  let (bindersLength, rest) ← readUint16 rest
  ensure (bindersLength ≠ 0 ∧ bindersLength = rest.length) statusInvalidNetworkResponse
  return 2 + identitiesLength

/-- The walk of `FindPskBinderTranscriptLength` over the extensions, one extension for a unit
of fuel; `offset` octets of the message stand before `data`. -/
def findPskBinders : ℕ → (offset : ℕ) → Bytes → Except NTSTATUS ℕ
  | _, _, [] => .error statusNotFound
  | 0, _, _ :: _ => .error statusInvalidNetworkResponse
  | fuel + 1, offset, data => do
    let (type, rest) ← readUint16 data
    let (length, rest) ← readUint16 rest
    let (extension, rest) ← readBytes length rest
    if type ≠ extensionPreSharedKey then findPskBinders fuel (offset + 4 + length) rest
    else do
      ensure (rest = []) statusInvalidNetworkResponse
      let n ← pskBinderOffset extension
      return offset + 4 + n

def findPskBinderTranscriptLength (clientHello : Bytes) : Except NTSTATUS ℕ := do
  ensure (tlsHandshakeHeaderLength ≤ clientHello.length) statusInvalidParameter
  let message ← parseMessage clientHello
  ensure (message.type = .clientHello ∧ message.bytesConsumed = clientHello.length ∧
    42 ≤ message.body.length) statusInvalidParameter
  let (_, rest) ← readBytes 34 message.body
  let (sessionIdLength, rest) ← readByte rest
  let (_, rest) ← readBytes sessionIdLength rest
  let (cipherSuitesLength, rest) ← readUint16 rest
  let (_, rest) ← readBytes cipherSuitesLength rest
  let (compressionMethodsLength, rest) ← readByte rest
  let (_, rest) ← readBytes compressionMethodsLength rest
  let (extensionsLength, rest) ← readUint16 rest
  ensure (extensionsLength = rest.length) statusInvalidNetworkResponse
  findPskBinders rest.length (clientHello.length - rest.length) rest

/-! ## The offer and the answer -/

def validateServerHelloOffer (serverHello : Tls13ServerHelloView)
    (clientHello : Tls13ClientHelloOptions) : Except NTSTATUS Unit := do
  ensure (serverHello.cipherSuite ∈ defaultCipherSuites) statusInvalidNetworkResponse
  ensure (serverHello.sessionId = []) statusInvalidNetworkResponse
  if serverHello.isHelloRetryRequest then
    ensure (serverHello.retryGroup ∈ defaultNamedGroups ∧
      serverHello.retryGroup ∉ clientHello.keyShares.map (·.group)) statusInvalidNetworkResponse
  else
    ensure (serverHello.keyShare.group ∈ clientHello.keyShares.map (·.group))
      statusInvalidNetworkResponse

def validateSelectedPskIdentity (serverHello : Tls13ServerHelloView) (offeredCount : ℕ) :
    Except NTSTATUS Unit :=
  if serverHello.selectedPskIdentity = noPskIdentity then .ok ()
  else
    ensure (offeredCount ≠ 0 ∧ offeredCount ≤ 0xffff ∧
      serverHello.selectedPskIdentity < offeredCount) statusInvalidNetworkResponse

/-! ## The client's other messages -/

def encodeCertificate (requestContext certificateList : Bytes) (destinationCapacity : ℕ) :
    Except NTSTATUS Bytes := do
  ensure (requestContext.length ≤ 255 ∧ certificateList.length ≤ 0xffffff)
    statusInvalidParameter
  let body := UInt8.ofNat requestContext.length :: requestContext ++
    bigEndian 3 certificateList.length ++ certificateList
  ensure (body.length ≤ 0xffffff) statusInvalidParameter
  ensure (tlsHandshakeHeaderLength + body.length ≤ destinationCapacity) statusBufferTooSmall
  return handshakeMessage .certificate body

def encodeCertificateVerify (signatureScheme : TlsSignatureScheme) (signature : Bytes)
    (destinationCapacity : ℕ) : Except NTSTATUS Bytes := do
  ensure (signature.length ≠ 0 ∧ signature.length ≤ 0xffff) statusInvalidParameter
  let body := bigEndian 2 signatureScheme.value ++ bigEndian 2 signature.length ++ signature
  ensure (tlsHandshakeHeaderLength + body.length ≤ destinationCapacity) statusBufferTooSmall
  return handshakeMessage .certificateVerify body

/-- `TlsHandshake13::EncodeEndOfEarlyData`, into a buffer with room for it. -/
def encodeEndOfEarlyData : Bytes := handshakeMessage .endOfEarlyData []

/-- `TlsHandshake13::EncodeKeyUpdate`, into a buffer with room for it. -/
def encodeKeyUpdate (request : Tls13KeyUpdateRequest) : Bytes :=
  handshakeMessage .keyUpdate [request.octet]

/-- `TlsHandshake13::BuildCertificateVerifyInput`; the hash fits its buffer. -/
def buildCertificateVerifyInput (server : Bool) (transcriptHash : Bytes) : Bytes :=
  List.replicate 64 0x20 ++
    text (if server then "TLS 1.3, server CertificateVerify"
      else "TLS 1.3, client CertificateVerify") ++ [0] ++ transcriptHash

end KernelHttp.Tls
