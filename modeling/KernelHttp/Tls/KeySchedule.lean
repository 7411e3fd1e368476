/-
  The key schedule of TLS 1.3 (`tls/TlsContext.cpp`).

  Hash, HMAC and HKDF are given functions (`KeyFunctions`).  A context holds the secrets
  that have been derived so far; each function derives the next ones.
-/
import KernelHttp.Tls.Handshake13

namespace KernelHttp.Tls

open BigEndian

def tls13MaxSecretLength : ℕ := 48
def tls13MaxTicketIdentityLength : ℕ := 256
def tls13MaxTicketNonceLength : ℕ := 32
def tls13MaxTicketServerNameLength : ℕ := 255
def tls13MaxTicketAlpnLength : ℕ := 15
def tls13MaxTicketCount : ℕ := 4
def tls13MaxTicketLifetimeSeconds : ℕ := 604800

/-- Hash, HMAC, HKDF-Extract and HKDF-Expand of `crypto::CngProvider`. -/
structure KeyFunctions where
  hash : HashAlgorithm → Bytes → Bytes
  hmac : HashAlgorithm → (key data : Bytes) → Bytes
  hkdfExtract : HashAlgorithm → (salt ikm : Bytes) → Bytes
  hkdfExpand : HashAlgorithm → (prk info : Bytes) → ℕ → Bytes
  hash_length : ∀ algorithm data, (hash algorithm data).length = hashDigestLength algorithm
  hmac_length : ∀ algorithm key data,
    (hmac algorithm key data).length = hashDigestLength algorithm
  hkdfExtract_length : ∀ algorithm salt ikm,
    (hkdfExtract algorithm salt ikm).length = hashDigestLength algorithm
  hkdfExpand_length : ∀ algorithm prk info n, (hkdfExpand algorithm prk info n).length = n

/-- The salt or the input keying material that stands for an absent one. -/
def zeros (algorithm : HashAlgorithm) : Bytes := List.replicate (hashDigestLength algorithm) 0

/-! ## Labels -/

/-- `HkdfLabel`: the length, the label behind its prefix, and the context. -/
def hkdfLabel (label context : Bytes) (outputLength : ℕ) : Bytes :=
  bigEndian 2 outputLength ++ [UInt8.ofNat (6 + label.length)] ++ text "tls13 " ++ label ++
    [UInt8.ofNat context.length] ++ context

def buildHkdfLabel (label context : Bytes) (outputLength destinationCapacity : ℕ) :
    Except NTSTATUS Bytes := do
  ensure (outputLength ≤ 0xffff ∧ context.length ≤ 255) statusInvalidParameter
  ensure (label.length + 6 ≤ 255) statusInvalidParameter
  ensure (2 + 1 + 6 + label.length + 1 + context.length ≤ destinationCapacity)
    statusBufferTooSmall
  return hkdfLabel label context outputLength

namespace KeyFunctions

variable (K : KeyFunctions)

def hkdfExpandLabel (algorithm : HashAlgorithm) (secret label context : Bytes)
    (outputLength : ℕ) : Except NTSTATUS Bytes := do
  let info ← buildHkdfLabel label context outputLength 128
  return K.hkdfExpand algorithm secret info outputLength

def expandLabel (algorithm : HashAlgorithm) (secret label context : Bytes)
    (outputLength : ℕ) : Bytes :=
  K.hkdfExpand algorithm secret (hkdfLabel label context outputLength) outputLength

/-- `DeriveSecret`, with the hash of the transcript. -/
def deriveSecret (algorithm : HashAlgorithm) (secret label transcriptHash : Bytes)
    (outputLength : ℕ) : Except NTSTATUS Bytes :=
  K.hkdfExpandLabel algorithm secret label transcriptHash outputLength

/-- The expansion with an empty context that `DeriveTrafficState` uses. -/
def trafficExpand : HkdfExpandLabel where
  expand algorithm secret label n := K.expandLabel algorithm secret label [] n
  length_expand _ _ _ _ := K.hkdfExpand_length _ _ _ _

end KeyFunctions

/-! ## The context -/

/-- `Tls13TrafficSecrets`, each buffer up to its length. -/
structure Tls13TrafficSecrets where
  earlySecret : Bytes := []
  handshakeSecret : Bytes := []
  masterSecret : Bytes := []
  clientEarlyTrafficSecret : Bytes := []
  clientHandshakeTrafficSecret : Bytes := []
  serverHandshakeTrafficSecret : Bytes := []
  clientApplicationTrafficSecret : Bytes := []
  serverApplicationTrafficSecret : Bytes := []
  exporterMasterSecret : Bytes := []
  resumptionMasterSecret : Bytes := []
  secretLength : ℕ := 0
deriving DecidableEq, Repr

structure Tls13SessionTicket where
  identity : Bytes
  nonce : Bytes
  lifetimeSeconds : ℕ
  ageAdd : UInt32
  maxEarlyDataSize : ℕ
  issueTimeMilliseconds : UInt64
  version : UInt8 × UInt8 := (3, 4)
  serverName : Bytes
  alpn : Bytes
  cipherSuite : TlsCipherSuite
  resumptionSecret : Bytes
  policyIdentity : ℕ
deriving DecidableEq, Repr

/-- `TlsContext`; of its states only `Established` is ever read. -/
structure TlsContext where
  protocol : TlsProtocol := .tls12
  established : Bool := false
  cipherSuite : TlsCipherSuite := .tlsEcdheRsaWithAes128GcmSha256
  clientRandom : Bytes := []
  secrets : Tls13TrafficSecrets := {}
  sessionCache : List Tls13SessionTicket := []
deriving DecidableEq, Repr

namespace TlsContext

variable (K : KeyFunctions) (context : TlsContext)

def algorithm : HashAlgorithm := hashForCipherSuite context.cipherSuite

/-- `HashLength` of it. -/
def digestLength : ℕ := hashDigestLength context.algorithm

def setCipherSuite (cipherSuite : TlsCipherSuite) : TlsContext :=
  { context with cipherSuite := cipherSuite }

/-- `TlsContext::DeriveTls13EarlySecret`; without a PSK there are zeros. -/
def deriveTls13EarlySecret (psk : Bytes) : Except NTSTATUS TlsContext := do
  ensure (context.protocol = .tls13) statusInvalidParameter
  let actualPsk := if psk = [] then zeros context.algorithm else psk
  return { context with secrets :=
    { context.secrets with
      earlySecret := K.hkdfExtract context.algorithm (zeros context.algorithm) actualPsk
      secretLength := context.digestLength } }

def deriveTls13ClientEarlyTrafficSecret (transcriptHash : Bytes) :
    Except NTSTATUS TlsContext := do
  ensure (context.protocol = .tls13 ∧ context.secrets.secretLength ≠ 0) statusInvalidParameter
  let secret ← K.deriveSecret context.algorithm context.secrets.earlySecret (text "c e traffic")
    transcriptHash context.secrets.secretLength
  return { context with secrets := { context.secrets with clientEarlyTrafficSecret := secret } }

/-- `TlsContext::DeriveTls13HandshakeSecrets`, once there is an early secret. -/
def deriveTls13HandshakeSecretsFrom (sharedSecret transcriptHash : Bytes) :
    Except NTSTATUS TlsContext := do
  let algorithm := context.algorithm
  let n := context.digestLength
  let derived ← K.deriveSecret algorithm context.secrets.earlySecret (text "derived")
    (K.hash algorithm []) n
  let handshakeSecret := K.hkdfExtract algorithm derived sharedSecret
  let client ← K.deriveSecret algorithm handshakeSecret (text "c hs traffic") transcriptHash n
  let server ← K.deriveSecret algorithm handshakeSecret (text "s hs traffic") transcriptHash n
  return { context with secrets :=
    { context.secrets with
      handshakeSecret := handshakeSecret
      clientHandshakeTrafficSecret := client
      serverHandshakeTrafficSecret := server
      secretLength := n } }

/-- The secrets behind the ServerHello, from the early secret. -/
def deriveTls13HandshakeSecrets (sharedSecret transcriptHash : Bytes) :
    Except NTSTATUS TlsContext := do
  ensure (context.protocol = .tls13 ∧ sharedSecret ≠ []) statusInvalidParameter
  if context.secrets.secretLength = 0 then
    let context ← context.deriveTls13EarlySecret K []
    context.deriveTls13HandshakeSecretsFrom K sharedSecret transcriptHash
  else
    context.deriveTls13HandshakeSecretsFrom K sharedSecret transcriptHash

/-- The secrets behind the server's Finished. -/
def deriveTls13ApplicationSecrets (transcriptHash : Bytes) : Except NTSTATUS TlsContext := do
  ensure (context.protocol = .tls13 ∧ context.secrets.secretLength ≠ 0) statusInvalidParameter
  let algorithm := context.algorithm
  let n := context.digestLength
  let derived ← K.deriveSecret algorithm context.secrets.handshakeSecret (text "derived")
    (K.hash algorithm []) n
  let masterSecret := K.hkdfExtract algorithm derived (zeros algorithm)
  let client ← K.deriveSecret algorithm masterSecret (text "c ap traffic") transcriptHash n
  let server ← K.deriveSecret algorithm masterSecret (text "s ap traffic") transcriptHash n
  let exporter ← K.deriveSecret algorithm masterSecret (text "exp master") transcriptHash n
  let resumption ← K.deriveSecret algorithm masterSecret (text "res master") transcriptHash n
  return { context with secrets :=
    { context.secrets with
      masterSecret := masterSecret
      clientApplicationTrafficSecret := client
      serverApplicationTrafficSecret := server
      exporterMasterSecret := exporter
      resumptionMasterSecret := resumption } }

/-- The guard and the derivation that the `Configure…State` functions share. -/
def configureState (trafficSecret : Bytes) : Except NTSTATUS TlsAeadCipherState := do
  ensure (context.protocol = .tls13 ∧ context.secrets.secretLength ≠ 0) statusInvalidParameter
  deriveTrafficState K.trafficExpand context.cipherSuite trafficSecret

def configureTls13EarlyAesGcmState : Except NTSTATUS TlsAeadCipherState :=
  context.configureState K context.secrets.clientEarlyTrafficSecret

def configureTls13HandshakeAesGcmStates :
    Except NTSTATUS (TlsAeadCipherState × TlsAeadCipherState) := do
  let clientWriteState ← context.configureState K context.secrets.clientHandshakeTrafficSecret
  let serverWriteState ← context.configureState K context.secrets.serverHandshakeTrafficSecret
  return (clientWriteState, serverWriteState)

def configureTls13ApplicationAesGcmStates :
    Except NTSTATUS (TlsAeadCipherState × TlsAeadCipherState) := do
  let clientWriteState ← context.configureState K context.secrets.clientApplicationTrafficSecret
  let serverWriteState ← context.configureState K context.secrets.serverApplicationTrafficSecret
  return (clientWriteState, serverWriteState)

def applicationTrafficSecret (client : Bool) : Bytes :=
  if client then context.secrets.clientApplicationTrafficSecret
  else context.secrets.serverApplicationTrafficSecret

def withApplicationTrafficSecret (client : Bool) (secret : Bytes) : TlsContext :=
  { context with secrets :=
    if client then { context.secrets with clientApplicationTrafficSecret := secret }
    else { context.secrets with serverApplicationTrafficSecret := secret } }

/-- The next secret of one direction. -/
def updateTls13ApplicationTrafficSecret (client : Bool) :
    Except NTSTATUS (TlsContext × TlsAeadCipherState) := do
  ensure (context.protocol = .tls13 ∧ context.secrets.secretLength ≠ 0) statusInvalidParameter
  let updatedSecret ← K.hkdfExpandLabel context.algorithm
    (context.applicationTrafficSecret client) (text "traffic upd") []
    context.secrets.secretLength
  let updatedState ← deriveTrafficState K.trafficExpand context.cipherSuite updatedSecret
  return (context.withApplicationTrafficSecret client updatedSecret, updatedState)

def deriveTls13FinishedKey (clientFinished : Bool) : Except NTSTATUS Bytes := do
  ensure (context.protocol = .tls13 ∧ context.secrets.secretLength ≠ 0 ∧
    context.secrets.secretLength ≤ tls13MaxSecretLength) statusInvalidParameter
  K.hkdfExpandLabel context.algorithm
    (if clientFinished then context.secrets.clientHandshakeTrafficSecret
      else context.secrets.serverHandshakeTrafficSecret)
    (text "finished") [] context.secrets.secretLength

def deriveTls13ResumptionSecret (ticketNonce : Bytes) : Except NTSTATUS Bytes := do
  ensure (context.protocol = .tls13 ∧ context.secrets.secretLength ≠ 0 ∧
    context.secrets.secretLength ≤ tls13MaxSecretLength) statusInvalidParameter
  K.hkdfExpandLabel context.algorithm context.secrets.resumptionMasterSecret (text "resumption")
    ticketNonce context.secrets.secretLength

/-- A cache of four tickets: when it is full, the oldest one is dropped. -/
def storedIn (tickets : List Tls13SessionTicket) (ticket : Tls13SessionTicket) :
    List Tls13SessionTicket :=
  if tickets.length < tls13MaxTicketCount then tickets ++ [ticket]
  else tickets.tail ++ [ticket]

def storeTls13Ticket (ticket : Tls13SessionTicket) : Except NTSTATUS TlsContext := do
  ensure (ticket.identity.length ≠ 0 ∧ ticket.identity.length ≤ tls13MaxTicketIdentityLength ∧
    ticket.nonce.length ≤ tls13MaxTicketNonceLength ∧ ticket.resumptionSecret.length ≠ 0 ∧
    ticket.resumptionSecret.length ≤ tls13MaxSecretLength) statusInvalidParameter
  return { context with sessionCache := storedIn context.sessionCache ticket }

def computeFinishedData (clientFinished : Bool) (transcriptHash : Bytes) (outputLength : ℕ) :
    Except NTSTATUS Bytes := do
  let finishedKey ← context.deriveTls13FinishedKey K clientFinished
  ensure (context.digestLength = outputLength) statusInvalidNetworkResponse
  return K.hmac context.algorithm finishedKey transcriptHash

def encodeFinished (clientFinished : Bool) (transcriptHash : Bytes) (destinationCapacity : ℕ) :
    Except NTSTATUS Bytes := do
  ensure (context.secrets.secretLength ≠ 0) statusInvalidParameter
  ensure (tlsHandshakeHeaderLength + context.secrets.secretLength ≤ destinationCapacity)
    statusBufferTooSmall
  let verifyData ← context.computeFinishedData K clientFinished transcriptHash
    context.secrets.secretLength
  return handshakeMessage .finished verifyData

/-- `TlsHandshake13::VerifyFinished`, which is given the body of a message of any type. -/
def verifyFinished (clientFinished : Bool) (transcriptHash verifyData : Bytes) :
    Except NTSTATUS Unit := do
  ensure (verifyData.length ≠ 0 ∧ verifyData.length = context.secrets.secretLength)
    statusInvalidParameter
  let expected ← context.computeFinishedData K clientFinished transcriptHash verifyData.length
  ensure (expected = verifyData) statusInvalidNetworkResponse

/-- The MAC of the hello without its binders. -/
def computePskBinder (resumptionSecret partialClientHelloHash : Bytes) :
    Except NTSTATUS Bytes := do
  ensure (resumptionSecret ≠ [] ∧ partialClientHelloHash ≠ []) statusInvalidParameter
  ensure (partialClientHelloHash.length = context.digestLength) statusInvalidParameter
  let algorithm := context.algorithm
  let earlySecret := K.hkdfExtract algorithm (zeros algorithm) resumptionSecret
  let binderKey ← K.deriveSecret algorithm earlySecret (text "res binder") (K.hash algorithm [])
    context.digestLength
  let finishedKey ← K.hkdfExpandLabel algorithm binderKey (text "finished") []
    context.digestLength
  return K.hmac algorithm finishedKey partialClientHelloHash

end TlsContext

/-! ## What the functions derive -/

theorem ensure_eq_ok {p : Prop} [Decidable p] {status : NTSTATUS} {u : Unit}
    (h : ensure p status = .ok u) : p := by
  by_contra hp
  rw [ensure, if_neg hp] at h
  cases h

theorem ensure_of {p : Prop} [Decidable p] (h : p) (status : NTSTATUS) :
    ensure p status = .ok () := if_pos h

variable {K : KeyFunctions}

theorem hkdfExpandLabel_eq_ok {algorithm : HashAlgorithm} {secret label context secret' : Bytes}
    {n : ℕ} (h : K.hkdfExpandLabel algorithm secret label context n = .ok secret') :
    secret' = K.expandLabel algorithm secret label context n := by
  obtain ⟨info, hinfo, h⟩ := Incremental.bind_eq_ok h
  obtain ⟨_, _, hinfo⟩ := Incremental.bind_eq_ok hinfo
  obtain ⟨_, _, hinfo⟩ := Incremental.bind_eq_ok hinfo
  obtain ⟨_, _, hinfo⟩ := Incremental.bind_eq_ok hinfo
  cases hinfo
  cases h
  rfl

theorem hashDigestLength_le (algorithm : HashAlgorithm) : hashDigestLength algorithm ≤ 64 := by
  cases algorithm <;> decide

theorem TlsContext.digestLength_cases (context : TlsContext) :
    context.digestLength = 32 ∨ context.digestLength = 48 := by
  rw [TlsContext.digestLength, TlsContext.algorithm, hashForCipherSuite]
  split
  · exact .inr rfl
  · exact .inl rfl

end KernelHttp.Tls
