/-
  Cipher suites (`tls/TlsCapabilities.cpp`, `tls/TlsPolicy.cpp`, the tables of `tls/TlsContext.cpp`
  and `tls/TlsConnection.cpp`, `crypto/Aead.cpp`).

  What a suite needs is looked up in several tables; ciphers and HMAC are given (`Primitives`).
-/
import KernelHttp.Tls.Policy
import KernelHttp.Tls.Record

namespace KernelHttp.Tls

inductive TlsCipherSuite where
  | tlsAes128GcmSha256
  | tlsAes256GcmSha384
  | tlsChaCha20Poly1305Sha256
  | tlsAes128CcmSha256
  | tlsAes128Ccm8Sha256
  | tlsRsaWithAes128CbcSha256
  | tlsRsaWithAes128GcmSha256
  | tlsRsaWithAes256GcmSha384
  | tlsDheRsaWithAes128GcmSha256
  | tlsDheRsaWithAes256GcmSha384
  | tlsEcdheEcdsaWithAes128CbcSha256
  | tlsEcdheRsaWithAes128CbcSha256
  | tlsEcdheEcdsaWithAes128GcmSha256
  | tlsEcdheEcdsaWithAes256GcmSha384
  | tlsEcdheRsaWithAes128GcmSha256
  | tlsEcdheRsaWithAes256GcmSha384
  | tlsEcdheRsaWithChaCha20Poly1305Sha256
  | tlsEcdheEcdsaWithChaCha20Poly1305Sha256
  | tlsDheRsaWithChaCha20Poly1305Sha256
deriving DecidableEq, Repr

inductive TlsProtocol where
  | tls12
  | tls13
deriving DecidableEq, Repr

inductive Tls12KeyExchangeKind where
  | none
  | ecdheRsa
  | ecdheEcdsa
  | dheRsa
  | rsa
deriving DecidableEq, Repr

inductive TlsBulkCipherKind where
  | aesGcm
  | chaCha20Poly1305
  | aesCcm
  | aesCbc
deriving DecidableEq, Repr

inductive TlsRecordMacKind where
  | aead
  | hmacSha256
  | hmacSha384
deriving DecidableEq, Repr

inductive TlsCapabilityDisposition where
  | default
  | optional
  | legacy
  | unsupported
deriving DecidableEq, Repr

/-! ## Capabilities -/

structure TlsCipherSuiteCapability where
  cipherSuite : TlsCipherSuite
  protocol : TlsProtocol
  tls12KeyExchange : Tls12KeyExchangeKind
  bulkCipher : TlsBulkCipherKind
  recordMac : TlsRecordMacKind
  defaultDisposition : TlsCapabilityDisposition
  compatibilityDisposition : TlsCapabilityDisposition
deriving DecidableEq, Repr

def cipherSuiteCapabilities : List TlsCipherSuiteCapability := [
  ⟨.tlsAes128GcmSha256, .tls13, .none, .aesGcm, .aead, .default, .default⟩,
  ⟨.tlsAes256GcmSha384, .tls13, .none, .aesGcm, .aead, .default, .default⟩,
  ⟨.tlsChaCha20Poly1305Sha256, .tls13, .none, .chaCha20Poly1305, .aead, .default, .default⟩,
  ⟨.tlsAes128CcmSha256, .tls13, .none, .aesCcm, .aead, .optional, .optional⟩,
  ⟨.tlsAes128Ccm8Sha256, .tls13, .none, .aesCcm, .aead, .optional, .optional⟩,
  ⟨.tlsEcdheRsaWithAes128GcmSha256, .tls12, .ecdheRsa, .aesGcm, .aead, .default, .default⟩,
  ⟨.tlsEcdheEcdsaWithAes128GcmSha256, .tls12, .ecdheEcdsa, .aesGcm, .aead, .default, .default⟩,
  ⟨.tlsEcdheRsaWithAes256GcmSha384, .tls12, .ecdheRsa, .aesGcm, .aead, .default, .default⟩,
  ⟨.tlsEcdheEcdsaWithAes256GcmSha384, .tls12, .ecdheEcdsa, .aesGcm, .aead, .default, .default⟩,
  ⟨.tlsEcdheRsaWithChaCha20Poly1305Sha256, .tls12, .ecdheRsa, .chaCha20Poly1305, .aead, .default,
    .default⟩,
  ⟨.tlsEcdheEcdsaWithChaCha20Poly1305Sha256, .tls12, .ecdheEcdsa, .chaCha20Poly1305, .aead,
    .default, .default⟩,
  ⟨.tlsDheRsaWithAes128GcmSha256, .tls12, .dheRsa, .aesGcm, .aead, .optional, .optional⟩,
  ⟨.tlsDheRsaWithAes256GcmSha384, .tls12, .dheRsa, .aesGcm, .aead, .optional, .optional⟩,
  ⟨.tlsDheRsaWithChaCha20Poly1305Sha256, .tls12, .dheRsa, .chaCha20Poly1305, .aead, .optional,
    .optional⟩,
  ⟨.tlsEcdheRsaWithAes128CbcSha256, .tls12, .ecdheRsa, .aesCbc, .hmacSha256, .legacy, .legacy⟩,
  ⟨.tlsEcdheEcdsaWithAes128CbcSha256, .tls12, .ecdheEcdsa, .aesCbc, .hmacSha256, .legacy, .legacy⟩,
  ⟨.tlsRsaWithAes128GcmSha256, .tls12, .rsa, .aesGcm, .aead, .legacy, .legacy⟩,
  ⟨.tlsRsaWithAes256GcmSha384, .tls12, .rsa, .aesGcm, .aead, .legacy, .legacy⟩,
  ⟨.tlsRsaWithAes128CbcSha256, .tls12, .rsa, .aesCbc, .hmacSha256, .legacy, .legacy⟩]

def tlsFindCipherSuiteCapability (cipherSuite : TlsCipherSuite) :
    Option TlsCipherSuiteCapability :=
  cipherSuiteCapabilities.find? (·.cipherSuite = cipherSuite)

/-- `IsSupportedCipherSuite` of the TLS 1.2 handshake. -/
def isSupportedCipherSuite12 (cipherSuite : TlsCipherSuite) : Bool :=
  (tlsFindCipherSuiteCapability cipherSuite).any (·.protocol = .tls12)

/-- `TlsHandshake13::IsSupportedCipherSuite`; `IsTls13CipherSuite`. -/
def isTls13CipherSuite (cipherSuite : TlsCipherSuite) : Bool :=
  cipherSuite = .tlsAes128GcmSha256 || cipherSuite = .tlsAes256GcmSha384 ||
    cipherSuite = .tlsChaCha20Poly1305Sha256 || cipherSuite = .tlsAes128CcmSha256 ||
    cipherSuite = .tlsAes128Ccm8Sha256

/-! ## Policy -/

def isCompatibilityProfile (policy : TlsPolicy) : Bool :=
  policy.profile = .compatibilityExplicit

def isLegacyCipherSuite (capability : TlsCipherSuiteCapability) : Bool :=
  capability.defaultDisposition = .legacy || capability.tls12KeyExchange = .rsa ||
    capability.bulkCipher = .aesCbc

def isDefaultOrOptional (disposition : TlsCapabilityDisposition) : Bool :=
  disposition = .default || disposition = .optional

def tlsValidatePolicy (policy : TlsPolicy) : NTSTATUS :=
  match policy.profile with
  | .modernDefault =>
    if policy.enableTls12RsaKeyExchange || policy.enableTls12Cbc ||
        policy.enableTls12Renegotiation || policy.enableTls12Sha1Signatures then
      statusInvalidParameter
    else statusSuccess
  | .compatibilityExplicit => statusSuccess

/-- The suite fits the protocol and the switches of the policy. -/
def tlsPolicyAllowsCipherSuite (policy : TlsPolicy) (cipherSuite : TlsCipherSuite) : Bool :=
  if ¬ ntSuccess (tlsValidatePolicy policy) then false
  else
    match tlsFindCipherSuiteCapability cipherSuite with
    | none => false
    | some capability =>
      if ¬ isLegacyCipherSuite capability then isDefaultOrOptional capability.defaultDisposition
      else if ¬ isCompatibilityProfile policy then false
      else if capability.tls12KeyExchange = .rsa ∧ ¬ policy.enableTls12RsaKeyExchange then false
      else if capability.bulkCipher = .aesCbc ∧ ¬ policy.enableTls12Cbc then false
      else capability.compatibilityDisposition ≠ .unsupported

/-! ## The tables -/

def cipherSuiteKeyLength : TlsCipherSuite → ℕ
  | .tlsAes128GcmSha256 | .tlsAes128CcmSha256 | .tlsAes128Ccm8Sha256
  | .tlsEcdheRsaWithAes128GcmSha256 | .tlsEcdheEcdsaWithAes128GcmSha256
  | .tlsDheRsaWithAes128GcmSha256 | .tlsRsaWithAes128GcmSha256
  | .tlsEcdheRsaWithAes128CbcSha256 | .tlsEcdheEcdsaWithAes128CbcSha256
  | .tlsRsaWithAes128CbcSha256 => 16
  | .tlsAes256GcmSha384 | .tlsEcdheRsaWithAes256GcmSha384 | .tlsEcdheEcdsaWithAes256GcmSha384
  | .tlsDheRsaWithAes256GcmSha384 | .tlsRsaWithAes256GcmSha384 => 32
  | .tlsChaCha20Poly1305Sha256 | .tlsEcdheRsaWithChaCha20Poly1305Sha256
  | .tlsEcdheEcdsaWithChaCha20Poly1305Sha256 | .tlsDheRsaWithChaCha20Poly1305Sha256 => 32

def aeadAlgorithmForCipherSuite : TlsCipherSuite → AeadAlgorithm
  | .tlsAes256GcmSha384 | .tlsEcdheRsaWithAes256GcmSha384
  | .tlsEcdheEcdsaWithAes256GcmSha384 => .aes256Gcm
  | .tlsChaCha20Poly1305Sha256 | .tlsEcdheRsaWithChaCha20Poly1305Sha256
  | .tlsEcdheEcdsaWithChaCha20Poly1305Sha256 | .tlsDheRsaWithChaCha20Poly1305Sha256 =>
    .chaCha20Poly1305
  | .tlsAes128CcmSha256 => .aes128Ccm
  | .tlsAes128Ccm8Sha256 => .aes128Ccm8
  | _ => .aes128Gcm

def hashForCipherSuite (cipherSuite : TlsCipherSuite) : HashAlgorithm :=
  if cipherSuite = .tlsAes256GcmSha384 then .sha384 else .sha256

def tls12AeadKeyLengthForCipherSuite : TlsCipherSuite → ℕ
  | .tlsEcdheRsaWithAes256GcmSha384 | .tlsEcdheEcdsaWithAes256GcmSha384
  | .tlsDheRsaWithAes256GcmSha384 | .tlsRsaWithAes256GcmSha384
  | .tlsEcdheRsaWithChaCha20Poly1305Sha256 | .tlsEcdheEcdsaWithChaCha20Poly1305Sha256
  | .tlsDheRsaWithChaCha20Poly1305Sha256 => 32
  | _ => 16

def tls12MacKeyLengthForCipherSuite (cipherSuite : TlsCipherSuite) : ℕ :=
  match tlsFindCipherSuiteCapability cipherSuite with
  | none => 0
  | some capability =>
    match capability.recordMac with
    | .hmacSha384 => 48
    | .hmacSha256 => 32
    | .aead => 0

def tls12FixedIvLengthForCipherSuite (cipherSuite : TlsCipherSuite) : ℕ :=
  if (tlsFindCipherSuiteCapability cipherSuite).any (·.bulkCipher = .aesCbc) then 0
  else tlsAesGcmFixedIvLength

/-! ## The states of the two directions -/

def tlsMaxKeyBlockLength : ℕ := 160

/-- `TlsContext::DeriveKeyBlock`, over the octets that the PRF yields. -/
def deriveKeyBlock (keyExpansion : ℕ → UInt8) (requiredLength : ℕ) : Except NTSTATUS Bytes :=
  if requiredLength = 0 ∨ requiredLength > tlsMaxKeyBlockLength then .error statusInvalidParameter
  else .ok ((List.range requiredLength).map keyExpansion)

/-- `TlsContext::ConfigureAesGcmStates`: the state that the client writes with and the one
that the server writes with. -/
def configureAesGcmStates (protocol : TlsProtocol) (cipherSuite : TlsCipherSuite)
    (keyBlock : Bytes) : Except NTSTATUS (TlsAeadCipherState × TlsAeadCipherState) :=
  let capability := tlsFindCipherSuiteCapability cipherSuite
  let keyLength := cipherSuiteKeyLength cipherSuite
  if protocol ≠ .tls12 ∨ keyLength = 0 ∨ isTls13CipherSuite cipherSuite then
    .error statusNotSupported
  else
    let cbc := capability.any (·.bulkCipher = .aesCbc)
    let macKeyLength :=
      if cbc then
        hashDigestLength (if capability.any (·.recordMac = .hmacSha384) then .sha384 else .sha256)
      else 0
    let fixedIvLength := if cbc then 0 else tlsAesGcmFixedIvLength
    let requiredLength := macKeyLength * 2 + keyLength * 2 + fixedIvLength * 2
    if keyBlock.length < requiredLength then .error statusBufferTooSmall
    else
      let macAlgorithm := if macKeyLength = 48 then HashAlgorithm.sha384 else .sha256
      let keys := keyBlock.drop (macKeyLength * 2)
      let ivs := keys.drop (keyLength * 2)
      .ok
        ({ algorithm := aeadAlgorithmForCipherSuite cipherSuite
           key := keys.take keyLength
           fixedIv := ivs.take fixedIvLength
           macKey := keyBlock.take macKeyLength
           macAlgorithm := macAlgorithm
           encryptThenMac := cbc },
         { algorithm := aeadAlgorithmForCipherSuite cipherSuite
           key := (keys.drop keyLength).take keyLength
           fixedIv := (ivs.drop fixedIvLength).take fixedIvLength
           macKey := (keyBlock.drop macKeyLength).take macKeyLength
           macAlgorithm := macAlgorithm
           encryptThenMac := cbc })

/-- The key block and the states of a connection, as `ConnectTls12` asks for them. -/
def tls12States (cipherSuite : TlsCipherSuite) (keyExpansion : ℕ → UInt8) :
    Except NTSTATUS (TlsAeadCipherState × TlsAeadCipherState) := do
  let keyLength := tls12AeadKeyLengthForCipherSuite cipherSuite
  let macKeyLength := tls12MacKeyLengthForCipherSuite cipherSuite
  let fixedIvLength := tls12FixedIvLengthForCipherSuite cipherSuite
  let keyBlock ←
    deriveKeyBlock keyExpansion (macKeyLength * 2 + keyLength * 2 + fixedIvLength * 2)
  configureAesGcmStates .tls12 cipherSuite keyBlock

/-- `HkdfExpandLabel`, with an empty context: the hash, the secret, the label and the length. -/
structure HkdfExpandLabel where
  expand : HashAlgorithm → (secret label : Bytes) → ℕ → Bytes
  length_expand : ∀ algorithm secret label n, (expand algorithm secret label n).length = n

/-- Key and IV of a traffic secret, with number 0. -/
def deriveTrafficState (hkdf : HkdfExpandLabel) (cipherSuite : TlsCipherSuite)
    (trafficSecret : Bytes) : Except NTSTATUS TlsAeadCipherState :=
  let algorithm := hashForCipherSuite cipherSuite
  let keyLength := cipherSuiteKeyLength cipherSuite
  if keyLength = 0 ∨ trafficSecret = [] then .error statusInvalidParameter
  else
    .ok
      { algorithm := aeadAlgorithmForCipherSuite cipherSuite
        key := hkdf.expand algorithm trafficSecret (text "key") keyLength
        fixedIv := hkdf.expand algorithm trafficSecret (text "iv") tlsAesGcmTls13IvLength }

/-! ## The ciphers -/

/-- The ciphers and the HMAC of the platform and of `crypto/Aead.cpp`. -/
structure Primitives where
  aesGcm : (key nonce aad plaintext : Bytes) → Bytes × Bytes
  aesGcmOpen : (key nonce aad ciphertext tag : Bytes) → Option Bytes
  chaCha20Poly1305 : (key nonce aad plaintext : Bytes) → Bytes × Bytes
  chaCha20Poly1305Open : (key nonce aad ciphertext tag : Bytes) → Option Bytes
  aesCcm : (tagLength : ℕ) → (key nonce aad plaintext : Bytes) → Bytes × Bytes
  aesCcmOpen : (key nonce aad ciphertext tag : Bytes) → Option Bytes
  aesCbc : (key iv plaintext : Bytes) → Bytes
  aesCbcOpen : (key iv ciphertext : Bytes) → Option Bytes
  hmac : HashAlgorithm → (key data : Bytes) → Bytes
  aesGcm_length : ∀ k n a p, (aesGcm k n a p).1.length = p.length ∧ (aesGcm k n a p).2.length = 16
  chaCha20Poly1305_length : ∀ k n a p, (chaCha20Poly1305 k n a p).1.length = p.length ∧
    (chaCha20Poly1305 k n a p).2.length = 16
  aesCcm_length : ∀ t k n a p, (aesCcm t k n a p).1.length = p.length ∧
    (aesCcm t k n a p).2.length = t
  aesCbc_length : ∀ k iv p, p.length % 16 = 0 → (aesCbc k iv p).length = p.length
  hmac_length : ∀ h k d, (hmac h k d).length = hashDigestLength h

/-- `STATUS_AUTH_TAG_MISMATCH`. -/
def statusAuthTagMismatch : NTSTATUS := 0xC000A002

/-- What a function that opens a ciphertext returns. -/
def opened (failure : FailureStatus) : Option Bytes → Except FailureStatus Bytes
  | none => .error failure
  | some plaintext => .ok plaintext

/-- `ValidateAesCcm`. -/
def validAesCcm (key nonce : Bytes) (tagLength : ℕ) : Bool :=
  key.length = 16 && 7 ≤ nonce.length && nonce.length ≤ 13 && (tagLength = 8 || tagLength = 16)

/-- `ValidateChaCha20Poly1305`. -/
def validChaCha20Poly1305 (key nonce : Bytes) : Bool := key.length = 32 && nonce.length = 12

def Primitives.encrypt (P : Primitives) (algorithm : AeadAlgorithm)
    (key nonce aad plaintext : Bytes) (tagLength : ℕ) : Except FailureStatus (Bytes × Bytes) :=
  let invalid : Except FailureStatus (Bytes × Bytes) := .error ⟨statusInvalidParameter, rfl⟩
  match algorithm with
  | .aes128Gcm =>
    if key.length ≠ 16 ∨ tagLength ≠ 16 ∨ nonce.length = 0 then invalid
    else .ok (P.aesGcm key nonce aad plaintext)
  | .aes256Gcm =>
    if key.length ≠ 32 ∨ tagLength ≠ 16 ∨ nonce.length = 0 then invalid
    else .ok (P.aesGcm key nonce aad plaintext)
  | .chaCha20Poly1305 =>
    if ¬ validChaCha20Poly1305 key nonce ∨ tagLength ≠ 16 then invalid
    else .ok (P.chaCha20Poly1305 key nonce aad plaintext)
  | .aes128Ccm =>
    if tagLength ≠ 16 ∨ ¬ validAesCcm key nonce tagLength then invalid
    else .ok (P.aesCcm tagLength key nonce aad plaintext)
  | .aes128Ccm8 =>
    if tagLength ≠ 8 ∨ ¬ validAesCcm key nonce tagLength then invalid
    else .ok (P.aesCcm tagLength key nonce aad plaintext)

def Primitives.decrypt (P : Primitives) (algorithm : AeadAlgorithm)
    (key nonce aad ciphertext tag : Bytes) : Except FailureStatus Bytes :=
  let invalid : Except FailureStatus Bytes := .error ⟨statusInvalidParameter, rfl⟩
  match algorithm with
  | .aes128Gcm =>
    if key.length ≠ 16 ∨ tag.length ≠ 16 ∨ nonce.length = 0 then invalid
    else opened ⟨statusAuthTagMismatch, rfl⟩ (P.aesGcmOpen key nonce aad ciphertext tag)
  | .aes256Gcm =>
    if key.length ≠ 32 ∨ tag.length ≠ 16 ∨ nonce.length = 0 then invalid
    else opened ⟨statusAuthTagMismatch, rfl⟩ (P.aesGcmOpen key nonce aad ciphertext tag)
  | .chaCha20Poly1305 =>
    if ¬ validChaCha20Poly1305 key nonce ∨ tag.length ≠ 16 then invalid
    else opened ⟨statusInvalidSignature, rfl⟩ (P.chaCha20Poly1305Open key nonce aad ciphertext tag)
  | .aes128Ccm =>
    if tag.length ≠ 16 ∨ ¬ validAesCcm key nonce tag.length then invalid
    else opened ⟨statusInvalidSignature, rfl⟩ (P.aesCcmOpen key nonce aad ciphertext tag)
  | .aes128Ccm8 =>
    if tag.length ≠ 8 ∨ ¬ validAesCcm key nonce tag.length then invalid
    else opened ⟨statusInvalidSignature, rfl⟩ (P.aesCcmOpen key nonce aad ciphertext tag)

/-- The platform as the record layer calls it: every tag is given sixteen octets. -/
def Primitives.cng (P : Primitives) : Cng where
  aeadEncrypt algorithm key nonce aad plaintext :=
    P.encrypt algorithm key nonce aad plaintext tlsAesGcmTagLength
  aeadDecrypt algorithm key nonce aad ciphertext tag :=
    P.decrypt algorithm key nonce aad ciphertext tag
  aesCbcEncrypt key iv plaintext := .ok (P.aesCbc key iv plaintext)
  aesCbcDecrypt key iv ciphertext :=
    opened ⟨statusInvalidParameter, rfl⟩ (P.aesCbcOpen key iv ciphertext)
  hmac algorithm key data := .ok (P.hmac algorithm key data)

/-! ## Sending -/

def tlsIoBufferLength : ℕ := tlsRecordHeaderLength + tlsMaxPlaintextLength + 2048

/-- The record protection of `SendProtectedRecord` and `SendProtectedRecord13`. -/
def protectionOf (protocol : TlsProtocol) (clientWriteState : TlsAeadCipherState) : Protection :=
  match protocol with
  | .tls13 => .aesGcm13
  | .tls12 => if clientWriteState.encryptThenMac then .aesCbcEncryptThenMac else .aesGcm

end KernelHttp.Tls
