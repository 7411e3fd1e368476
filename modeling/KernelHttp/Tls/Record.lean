/-
  TLS records (`tls/TlsRecord.cpp`).

  The cryptography of the platform is a parameter (`Cng`), and so are its answers in one call.
-/
import KernelHttp.Core.Types
import KernelHttp.Lib.BigEndian

namespace KernelHttp.Tls

open BigEndian

def statusInvalidSignature : NTSTATUS := 0xC000A000

@[simp] theorem ntSuccess_invalidSignature : ntSuccess statusInvalidSignature = false := rfl

def tlsRecordHeaderLength : ℕ := 5
def tlsMaxPlaintextLength : ℕ := 16384
def tlsAesGcmExplicitNonceLength : ℕ := 8
def tlsAesGcmTagLength : ℕ := 16
def tlsAesGcmFixedIvLength : ℕ := 4
def tlsAesGcmTls13IvLength : ℕ := 12
def tlsAesCbcBlockLength : ℕ := 16
def tls13MaxRecordPaddingLength : ℕ := tlsMaxPlaintextLength - 1
def tlsMaxRecordSequenceNumber : UInt64 := 0xffffffffffffffff

inductive TlsContentType where
  | changeCipherSpec
  | alert
  | handshake
  | applicationData
deriving DecidableEq, Repr

/-- The values of the enumeration. -/
def TlsContentType.octet : TlsContentType → UInt8
  | .changeCipherSpec => 20
  | .alert => 21
  | .handshake => 22
  | .applicationData => 23

/-- `IsValidContentType`, with the content type. -/
def validContentType (c : UInt8) : Option TlsContentType :=
  if c = 20 then some .changeCipherSpec
  else if c = 21 then some .alert
  else if c = 22 then some .handshake
  else if c = 23 then some .applicationData
  else none

structure TlsProtocolVersion where
  major : UInt8 := 3
  minor : UInt8 := 3
deriving DecidableEq

def isSupportedVersion (version : TlsProtocolVersion) : Bool :=
  version.major == 3 && 1 ≤ version.minor.toNat && version.minor.toNat ≤ 3

inductive AeadAlgorithm where
  | aes128Gcm
  | aes256Gcm
  | chaCha20Poly1305
  | aes128Ccm
  | aes128Ccm8
deriving DecidableEq

inductive HashAlgorithm where
  | sha1
  | sha256
  | sha384
  | sha512
deriving DecidableEq

def hashDigestLength : HashAlgorithm → ℕ
  | .sha512 => 64
  | .sha384 => 48
  | .sha1 => 20
  | .sha256 => 32

structure TlsRecordView where
  contentType : TlsContentType := .applicationData
  version : TlsProtocolVersion := {}
  fragment : Bytes := []
  bytesConsumed : ℕ := 0
deriving DecidableEq

structure TlsPlaintextRecord where
  contentType : TlsContentType := .applicationData
  version : TlsProtocolVersion := {}
  fragment : Bytes := []
  tls13PaddingLength : ℕ := 0
deriving DecidableEq

structure TlsMutablePlaintextRecord where
  contentType : TlsContentType := .applicationData
  version : TlsProtocolVersion := {}
  fragment : Bytes := []
deriving DecidableEq

/-- `TlsAeadCipherState`, each buffer up to its length. -/
structure TlsAeadCipherState where
  algorithm : AeadAlgorithm := .aes128Gcm
  key : Bytes := []
  fixedIv : Bytes := []
  macKey : Bytes := []
  macAlgorithm : HashAlgorithm := .sha256
  encryptThenMac : Bool := false
  sequenceNumber : UInt64 := 0
deriving DecidableEq

/-! ## The platform -/

def FailureStatus : Type := { status : NTSTATUS // ntSuccess status = false }

/-- `crypto::Aead` and the ciphers and the HMAC of `crypto::CngProvider`, as functions. -/
structure Cng where
  aeadEncrypt : AeadAlgorithm → (key nonce aad plaintext : Bytes) →
    Except FailureStatus (Bytes × Bytes)
  aeadDecrypt : AeadAlgorithm → (key nonce aad ciphertext tag : Bytes) → Except FailureStatus Bytes
  aesCbcEncrypt : (key iv plaintext : Bytes) → Except FailureStatus Bytes
  aesCbcDecrypt : (key iv ciphertext : Bytes) → Except FailureStatus Bytes
  hmac : HashAlgorithm → (key data : Bytes) → Except FailureStatus Bytes

/-- What the platform answers in one call: whether there is memory, the status of the random
generator and its octets, and a failure of the cipher or of the HMAC for want of resources. -/
structure CngAnswers where
  memory : Bool := true
  random : NTSTATUS := statusSuccess
  iv : Bytes
  iv_length : iv.length = 16
  cipher : NTSTATUS := statusSuccess
  hmac : NTSTATUS := statusSuccess

/-- A computation that the platform may refuse. -/
def unlessFailed {α : Type} (status : NTSTATUS) (x : Except FailureStatus α) :
    Except FailureStatus α :=
  match h : ntSuccess status with
  | false => .error ⟨status, h⟩
  | true => x

/-! ## Headers, nonces and additional data -/

/-- `TlsRecordLayer::Parse`. -/
def parseRecord (data : Bytes) : Except NTSTATUS TlsRecordView :=
  match data with
  | type :: major :: minor :: hi :: lo :: rest =>
    match validContentType type with
    | none => .error statusInvalidNetworkResponse
    | some contentType =>
      if ¬ isSupportedVersion ⟨major, minor⟩ then .error statusInvalidNetworkResponse
      else
        let fragmentLength := ofBigEndian [hi, lo]
        if fragmentLength > tlsMaxPlaintextLength + 2048 then .error statusInvalidNetworkResponse
        else if rest.length < fragmentLength then .error statusMoreProcessingRequired
        else
          .ok { contentType := contentType, version := ⟨major, minor⟩,
                fragment := rest.take fragmentLength,
                bytesConsumed := tlsRecordHeaderLength + fragmentLength }
  | _ => .error statusMoreProcessingRequired

/-- The header of a record; `WriteUint16` keeps the low sixteen bits. -/
def recordHeader (contentType : TlsContentType) (version : TlsProtocolVersion) (n : ℕ) : Bytes :=
  [contentType.octet, version.major, version.minor] ++ bigEndian 2 n

/-- `ValidatePlaintextRecord`. -/
def validPlaintextRecord (record : TlsPlaintextRecord) : Bool :=
  isSupportedVersion record.version && record.fragment.length ≤ tlsMaxPlaintextLength

def writeSequenceNumber (sequenceNumber : UInt64) : Bytes := bigEndian 8 sequenceNumber.toNat

def buildAesGcmNonce (s : TlsAeadCipherState) (explicitNonce : Bytes) : Bytes :=
  s.fixedIv ++ explicitNonce

/-- Number, type, version and length of the plaintext. -/
def buildAad (sequenceNumber : UInt64) (contentType : TlsContentType)
    (version : TlsProtocolVersion) (plaintextLength : ℕ) : Bytes :=
  writeSequenceNumber sequenceNumber ++ recordHeader contentType version plaintextLength

/-- The fixed IV, with the number exclusive-or its end. -/
def buildTls13Nonce (s : TlsAeadCipherState) : Bytes :=
  s.fixedIv.take 4 ++
    List.zipWith (· ^^^ ·) (s.fixedIv.drop 4) (writeSequenceNumber s.sequenceNumber)

def buildTls13Aad (encryptedFragmentLength : ℕ) : Bytes :=
  recordHeader .applicationData ⟨3, 3⟩ encryptedFragmentLength

/-- Fails at the last number. -/
def incrementSequence (s : TlsAeadCipherState) : Except FailureStatus TlsAeadCipherState :=
  if s.sequenceNumber = tlsMaxRecordSequenceNumber then .error ⟨statusInvalidDeviceState, rfl⟩
  else .ok { s with sequenceNumber := s.sequenceNumber + 1 }

/-! ## Protection -/

/-- What a `Protect` function returns: the status, `bytesWritten`, the record that it has
written to the destination, and the state. -/
structure ProtectResult where
  status : NTSTATUS
  bytesWritten : ℕ := 0
  destination : Bytes := []
  state : TlsAeadCipherState

/-- The end of a `Protect` function. -/
def finishProtect (s : TlsAeadCipherState) (record : Bytes) : ProtectResult :=
  match incrementSequence s with
  | .error failure => { status := failure.val, state := s }
  | .ok s' =>
    { status := statusSuccess, bytesWritten := record.length, destination := record, state := s' }

/-- The explicit nonce, the ciphertext and the tag. -/
def protectAesGcm (cng : Cng) (w : CngAnswers) (plaintext : TlsPlaintextRecord)
    (s : TlsAeadCipherState) (destinationCapacity : ℕ) : ProtectResult :=
  if ¬ validPlaintextRecord plaintext then { status := statusInvalidParameter, state := s }
  else if s.key.length = 0 ∨ s.key.length > 32 ∨ s.fixedIv.length ≠ tlsAesGcmFixedIvLength then
    { status := statusInvalidParameter, state := s }
  else if s.sequenceNumber = tlsMaxRecordSequenceNumber then
    { status := statusInvalidDeviceState, state := s }
  else
    let encryptedFragmentLength :=
      tlsAesGcmExplicitNonceLength + plaintext.fragment.length + tlsAesGcmTagLength
    let required := tlsRecordHeaderLength + encryptedFragmentLength
    if destinationCapacity < required then
      { status := statusBufferTooSmall, bytesWritten := required, state := s }
    else
      let explicitNonce := writeSequenceNumber s.sequenceNumber
      match unlessFailed w.cipher (cng.aeadEncrypt s.algorithm s.key
          (buildAesGcmNonce s explicitNonce)
          (buildAad s.sequenceNumber plaintext.contentType plaintext.version
            plaintext.fragment.length) plaintext.fragment) with
      | .error failure => { status := failure.val, state := s }
      | .ok (ciphertext, tag) =>
        if ciphertext.length ≠ plaintext.fragment.length then
          { status := statusInvalidNetworkResponse, state := s }
        else
          finishProtect s (recordHeader plaintext.contentType plaintext.version
            encryptedFragmentLength ++ (explicitNonce ++ ciphertext ++ tag))

/-- The padded ciphertext, then the MAC over it. -/
def protectAesCbcEncryptThenMac (cng : Cng) (w : CngAnswers) (plaintext : TlsPlaintextRecord)
    (s : TlsAeadCipherState) (destinationCapacity : ℕ) : ProtectResult :=
  if ¬ validPlaintextRecord plaintext then { status := statusInvalidParameter, state := s }
  else if ¬ s.encryptThenMac ∨ s.key.length = 0 ∨ s.macKey.length = 0 ∨
      s.macKey.length ≠ hashDigestLength s.macAlgorithm then
    { status := statusInvalidParameter, state := s }
  else if s.sequenceNumber = tlsMaxRecordSequenceNumber then
    { status := statusInvalidDeviceState, state := s }
  else
    let paddingLength :=
      tlsAesCbcBlockLength - (plaintext.fragment.length + 1) % tlsAesCbcBlockLength
    let paddedLength := plaintext.fragment.length + paddingLength + 1
    let encryptedPartLength := tlsAesCbcBlockLength + paddedLength
    let recordFragmentLength := encryptedPartLength + s.macKey.length
    let required := tlsRecordHeaderLength + recordFragmentLength
    if paddedLength > tlsMaxPlaintextLength + tlsAesCbcBlockLength ∨
        recordFragmentLength > 0xffff ∨ destinationCapacity < required then
      { status := statusBufferTooSmall, bytesWritten := required, state := s }
    else if ¬ w.memory then { status := statusInsufficientResources, state := s }
    else if ¬ ntSuccess w.random then { status := w.random, state := s }
    else
      let padded := plaintext.fragment ++
        List.replicate (paddingLength + 1) (UInt8.ofNat paddingLength)
      match unlessFailed w.cipher (cng.aesCbcEncrypt s.key w.iv padded) with
      | .error failure => { status := failure.val, state := s }
      | .ok ciphertext =>
        if ciphertext.length ≠ paddedLength then
          { status := statusInvalidNetworkResponse, state := s }
        else
          match unlessFailed w.hmac (cng.hmac s.macAlgorithm s.macKey
              (buildAad s.sequenceNumber plaintext.contentType plaintext.version
                encryptedPartLength ++ (w.iv ++ ciphertext))) with
          | .error failure => { status := failure.val, state := s }
          | .ok mac =>
            if mac.length ≠ s.macKey.length then
              { status := statusInvalidNetworkResponse, state := s }
            else
              finishProtect s (recordHeader plaintext.contentType plaintext.version
                recordFragmentLength ++ (w.iv ++ ciphertext ++ mac))

/-- `TlsRecordLayer::ProtectAesGcm13WithScratch`. -/
def protectAesGcm13 (cng : Cng) (w : CngAnswers) (plaintext : TlsPlaintextRecord)
    (s : TlsAeadCipherState) (scratchCapacity destinationCapacity : ℕ) : ProtectResult :=
  if ¬ validPlaintextRecord plaintext then { status := statusInvalidParameter, state := s }
  else if s.key.length = 0 ∨ s.key.length > 32 ∨ s.fixedIv.length ≠ tlsAesGcmTls13IvLength ∨
      plaintext.tls13PaddingLength > tls13MaxRecordPaddingLength ∨
      plaintext.tls13PaddingLength > tlsMaxPlaintextLength - plaintext.fragment.length then
    { status := statusInvalidParameter, state := s }
  else if s.sequenceNumber = tlsMaxRecordSequenceNumber then
    { status := statusInvalidDeviceState, state := s }
  else
    let innerPlaintextLength := plaintext.fragment.length + 1 + plaintext.tls13PaddingLength
    let encryptedFragmentLength := innerPlaintextLength + tlsAesGcmTagLength
    let required := tlsRecordHeaderLength + encryptedFragmentLength
    if encryptedFragmentLength > 0xffff then { status := statusInvalidParameter, state := s }
    else if destinationCapacity < required then
      { status := statusBufferTooSmall, bytesWritten := required, state := s }
    else if scratchCapacity < innerPlaintextLength then
      { status := statusBufferTooSmall, state := s }
    else
      let innerPlaintext := plaintext.fragment ++ [plaintext.contentType.octet] ++
        List.replicate plaintext.tls13PaddingLength 0
      match unlessFailed w.cipher (cng.aeadEncrypt s.algorithm s.key (buildTls13Nonce s)
          (buildTls13Aad encryptedFragmentLength) innerPlaintext) with
      | .error failure => { status := failure.val, state := s }
      | .ok (ciphertext, tag) =>
        if ciphertext.length ≠ innerPlaintextLength then
          { status := statusInvalidNetworkResponse, state := s }
        else finishProtect s (buildTls13Aad encryptedFragmentLength ++ (ciphertext ++ tag))

/-! ## Its inverse -/

/-- What an `Unprotect` function returns: the status, `output` and the state. -/
structure UnprotectResult where
  status : NTSTATUS
  output : TlsMutablePlaintextRecord := {}
  state : TlsAeadCipherState

/-- The end of an `Unprotect` function. -/
def finishUnprotect (s : TlsAeadCipherState) (output : TlsMutablePlaintextRecord) :
    UnprotectResult :=
  match incrementSequence s with
  | .error failure => { status := failure.val, state := s }
  | .ok s' => { status := statusSuccess, output := output, state := s' }

def unprotectAesGcm (cng : Cng) (w : CngAnswers) (encrypted : TlsRecordView)
    (s : TlsAeadCipherState) (plaintextCapacity : ℕ) : UnprotectResult :=
  if encrypted.fragment.length < tlsAesGcmExplicitNonceLength + tlsAesGcmTagLength ∨
      s.key.length = 0 ∨ s.key.length > 32 ∨ s.fixedIv.length ≠ tlsAesGcmFixedIvLength then
    { status := statusInvalidParameter, state := s }
  else
    let plaintextLength :=
      encrypted.fragment.length - tlsAesGcmExplicitNonceLength - tlsAesGcmTagLength
    if plaintextCapacity < plaintextLength then { status := statusBufferTooSmall, state := s }
    else if s.sequenceNumber = tlsMaxRecordSequenceNumber then
      { status := statusInvalidDeviceState, state := s }
    else
      let explicitNonce := encrypted.fragment.take tlsAesGcmExplicitNonceLength
      let ciphertext := (encrypted.fragment.drop tlsAesGcmExplicitNonceLength).take plaintextLength
      let tag := encrypted.fragment.drop (encrypted.fragment.length - tlsAesGcmTagLength)
      match unlessFailed w.cipher (cng.aeadDecrypt s.algorithm s.key
          (buildAesGcmNonce s explicitNonce)
          (buildAad s.sequenceNumber encrypted.contentType encrypted.version plaintextLength)
          ciphertext tag) with
      | .error failure => { status := failure.val, state := s }
      | .ok plaintext =>
        if plaintext.length ≠ plaintextLength then
          { status := statusInvalidNetworkResponse, state := s }
        else finishUnprotect s ⟨encrypted.contentType, encrypted.version, plaintext⟩

/-- The padding of a decrypted CBC fragment: the plaintext without it, if it is right. -/
def removeCbcPadding (decrypted : Bytes) : Option Bytes :=
  match decrypted.getLast? with
  | none => none
  | some paddingValue =>
    let paddingBytes := paddingValue.toNat + 1
    if paddingBytes > decrypted.length then none
    else if (decrypted.drop (decrypted.length - paddingBytes)).all (· == paddingValue) then
      some (decrypted.take (decrypted.length - paddingBytes))
    else none

/-- The MAC is checked before anything is decrypted. -/
def unprotectAesCbcEncryptThenMac (cng : Cng) (w : CngAnswers) (encrypted : TlsRecordView)
    (s : TlsAeadCipherState) (plaintextCapacity : ℕ) : UnprotectResult :=
  if ¬ s.encryptThenMac ∨ s.key.length = 0 ∨ s.macKey.length = 0 ∨
      s.macKey.length ≠ hashDigestLength s.macAlgorithm then
    { status := statusInvalidParameter, state := s }
  else if encrypted.fragment.length ≤ tlsAesCbcBlockLength + s.macKey.length ∨
      plaintextCapacity < encrypted.fragment.length ∨
      encrypted.fragment.length > tlsMaxPlaintextLength + 2048 then
    { status := statusInvalidNetworkResponse, state := s }
  else
    let encryptedPartLength := encrypted.fragment.length - s.macKey.length
    let ciphertextLength := encryptedPartLength - tlsAesCbcBlockLength
    if ciphertextLength = 0 ∨ ciphertextLength % tlsAesCbcBlockLength ≠ 0 then
      { status := statusInvalidNetworkResponse, state := s }
    else if s.sequenceNumber = tlsMaxRecordSequenceNumber then
      { status := statusInvalidDeviceState, state := s }
    else if ¬ w.memory then { status := statusInsufficientResources, state := s }
    else
      match unlessFailed w.hmac (cng.hmac s.macAlgorithm s.macKey
          (buildAad s.sequenceNumber encrypted.contentType encrypted.version encryptedPartLength ++
            encrypted.fragment.take encryptedPartLength)) with
      | .error failure => { status := failure.val, state := s }
      | .ok expectedMac =>
        if expectedMac.length ≠ s.macKey.length then
          { status := statusInvalidNetworkResponse, state := s }
        else if expectedMac ≠ encrypted.fragment.drop encryptedPartLength then
          { status := statusInvalidSignature, state := s }
        else
          let explicitIv := encrypted.fragment.take tlsAesCbcBlockLength
          let ciphertext := (encrypted.fragment.drop tlsAesCbcBlockLength).take ciphertextLength
          match unlessFailed w.cipher (cng.aesCbcDecrypt s.key explicitIv ciphertext) with
          | .error failure => { status := failure.val, state := s }
          | .ok decrypted =>
            if decrypted.length = 0 ∨ decrypted.length ≠ ciphertextLength then
              { status := statusInvalidNetworkResponse, state := s }
            else
              match removeCbcPadding decrypted with
              | none => { status := statusInvalidNetworkResponse, state := s }
              | some plaintext =>
                finishUnprotect s ⟨encrypted.contentType, encrypted.version, plaintext⟩

/-- The inner plaintext of TLS 1.3 without its padding: the content type and the fragment. -/
def removeTls13Padding (inner : Bytes) : Option (UInt8 × Bytes) :=
  let stripped := inner.rdropWhile (· == 0)
  stripped.getLast?.map fun type => (type, stripped.dropLast)

/-- Opens the record and strips the padding and the content type. -/
def unprotectAesGcm13 (cng : Cng) (w : CngAnswers) (encrypted : TlsRecordView)
    (s : TlsAeadCipherState) (plaintextCapacity : ℕ) : UnprotectResult :=
  if encrypted.contentType ≠ .applicationData ∨
      encrypted.fragment.length < 1 + tlsAesGcmTagLength ∨ s.key.length = 0 ∨
      s.key.length > 32 ∨ s.fixedIv.length ≠ tlsAesGcmTls13IvLength then
    { status := statusInvalidParameter, state := s }
  else
    let innerPlaintextLength := encrypted.fragment.length - tlsAesGcmTagLength
    if plaintextCapacity < innerPlaintextLength then { status := statusBufferTooSmall, state := s }
    else if s.sequenceNumber = tlsMaxRecordSequenceNumber then
      { status := statusInvalidDeviceState, state := s }
    else
      match unlessFailed w.cipher (cng.aeadDecrypt s.algorithm s.key (buildTls13Nonce s)
          (buildTls13Aad encrypted.fragment.length)
          (encrypted.fragment.take innerPlaintextLength)
          (encrypted.fragment.drop (encrypted.fragment.length - tlsAesGcmTagLength))) with
      | .error failure => { status := failure.val, state := s }
      | .ok inner =>
        if inner.length = 0 ∨ inner.length ≠ innerPlaintextLength then
          { status := statusInvalidNetworkResponse, state := s }
        else
          match removeTls13Padding inner with
          | none => { status := statusInvalidNetworkResponse, state := s }
          | some (innerType, fragment) =>
            match validContentType innerType with
            | none => { status := statusInvalidNetworkResponse, state := s }
            | some contentType => finishUnprotect s ⟨contentType, encrypted.version, fragment⟩

/-! ## The three protections -/

inductive Protection where
  | aesGcm
  | aesCbcEncryptThenMac
  | aesGcm13
deriving DecidableEq

/-- The arguments of a `Protect` call besides the state. -/
structure ProtectCall where
  plaintext : TlsPlaintextRecord
  destinationCapacity : ℕ
  scratchCapacity : ℕ
  answers : CngAnswers

def Protection.protect (cng : Cng) (call : ProtectCall) (s : TlsAeadCipherState) :
    Protection → ProtectResult
  | .aesGcm => protectAesGcm cng call.answers call.plaintext s call.destinationCapacity
  | .aesCbcEncryptThenMac =>
    protectAesCbcEncryptThenMac cng call.answers call.plaintext s call.destinationCapacity
  | .aesGcm13 =>
    protectAesGcm13 cng call.answers call.plaintext s call.scratchCapacity call.destinationCapacity

def Protection.unprotect (cng : Cng) (w : CngAnswers) (encrypted : TlsRecordView)
    (s : TlsAeadCipherState) (plaintextCapacity : ℕ) : Protection → UnprotectResult
  | .aesGcm => unprotectAesGcm cng w encrypted s plaintextCapacity
  | .aesCbcEncryptThenMac => unprotectAesCbcEncryptThenMac cng w encrypted s plaintextCapacity
  | .aesGcm13 => unprotectAesGcm13 cng w encrypted s plaintextCapacity

end KernelHttp.Tls
