/-
  The records of a suite are those of its specification.

  `IsRecord` are the records that the specification of a suite has under given keys.
-/
import KernelHttp.Tls.CipherSuites
import KernelHttp.Tls.RecordRoundTrip

namespace KernelHttp.Tls

open BigEndian

/-! ## The specifications -/

/-- The AEADs of TLS 1.3. -/
inductive StandardAead where
  | aesGcm
  | chaCha20Poly1305
  | aesCcm (tagLength : ℕ)

def Primitives.seal (P : Primitives) (key nonce aad plaintext : Bytes) :
    StandardAead → Bytes × Bytes
  | .aesGcm => P.aesGcm key nonce aad plaintext
  | .chaCha20Poly1305 => P.chaCha20Poly1305 key nonce aad plaintext
  | .aesCcm tagLength => P.aesCcm tagLength key nonce aad plaintext

def StandardAead.tagLength : StandardAead → ℕ
  | .aesGcm | .chaCha20Poly1305 => 16
  | .aesCcm tagLength => tagLength

/-- The record protection that the specification of a suite asks for, with the length of its
key. -/
inductive RecordFormat where
  /-- RFC 5288 -/
  | gcm12 (keyLength : ℕ)
  /-- RFC 7905 -/
  | chaCha12
  /-- AES-CBC of RFC 5246 with the encrypt-then-MAC of RFC 7366 -/
  | cbc12 (keyLength : ℕ) (mac : HashAlgorithm)
  /-- RFC 8446 -/
  | aead13 (aead : StandardAead) (keyLength : ℕ) (hash : HashAlgorithm)

/-- What the specification of each suite asks for. -/
def TlsCipherSuite.format : TlsCipherSuite → RecordFormat
  | .tlsAes128GcmSha256 => .aead13 .aesGcm 16 .sha256
  | .tlsAes256GcmSha384 => .aead13 .aesGcm 32 .sha384
  | .tlsChaCha20Poly1305Sha256 => .aead13 .chaCha20Poly1305 32 .sha256
  | .tlsAes128CcmSha256 => .aead13 (.aesCcm 16) 16 .sha256
  | .tlsAes128Ccm8Sha256 => .aead13 (.aesCcm 8) 16 .sha256
  | .tlsRsaWithAes128CbcSha256 | .tlsEcdheEcdsaWithAes128CbcSha256
  | .tlsEcdheRsaWithAes128CbcSha256 => .cbc12 16 .sha256
  | .tlsRsaWithAes128GcmSha256 | .tlsDheRsaWithAes128GcmSha256
  | .tlsEcdheEcdsaWithAes128GcmSha256 | .tlsEcdheRsaWithAes128GcmSha256 => .gcm12 16
  | .tlsRsaWithAes256GcmSha384 | .tlsDheRsaWithAes256GcmSha384
  | .tlsEcdheEcdsaWithAes256GcmSha384 | .tlsEcdheRsaWithAes256GcmSha384 => .gcm12 32
  | .tlsEcdheRsaWithChaCha20Poly1305Sha256 | .tlsEcdheEcdsaWithChaCha20Poly1305Sha256
  | .tlsDheRsaWithChaCha20Poly1305Sha256 => .chaCha12

/-- The keys of one direction. -/
structure WriteKeys where
  macKey : Bytes := []
  key : Bytes
  iv : Bytes

/-- What keys are made from: the octets of the PRF in TLS 1.2, a traffic secret in TLS 1.3. -/
structure KeySource where
  keyExpansion : ℕ → UInt8
  hkdf : HkdfExpandLabel
  trafficSecret : Bytes
  trafficSecret_ne : trafficSecret ≠ []

/-- The octets of the key expansion from `start` on. -/
def slice (keyExpansion : ℕ → UInt8) (start n : ℕ) : Bytes :=
  (List.range n).map fun i => keyExpansion (start + i)

/-- The client's part of the key expansion (RFC 5246, section 6.3): behind the two MAC keys
stand the two keys, and behind these the two IVs. -/
def clientKeys12 (keyExpansion : ℕ → UInt8) (mac key iv : ℕ) : WriteKeys :=
  ⟨slice keyExpansion 0 mac, slice keyExpansion (mac * 2) key,
    slice keyExpansion (mac * 2 + key * 2) iv⟩

def RecordFormat.clientKeys (K : KeySource) : RecordFormat → WriteKeys
  | .gcm12 keyLength => clientKeys12 K.keyExpansion 0 keyLength 4
  | .chaCha12 => clientKeys12 K.keyExpansion 0 32 12
  | .cbc12 keyLength mac => clientKeys12 K.keyExpansion (hashDigestLength mac) keyLength 0
  | .aead13 _ keyLength hash =>
    { key := K.hkdf.expand hash K.trafficSecret (text "key") keyLength
      iv := K.hkdf.expand hash K.trafficSecret (text "iv") 12 }

/-- The nonce of RFC 7905 and RFC 8446: the IV and the sequence number, which is padded on the
left. -/
def xorNonce (iv : Bytes) (n : ℕ) : Bytes :=
  List.zipWith (· ^^^ ·) iv (List.replicate (iv.length - 8) 0 ++ bigEndian 8 n)

/-- The additional data of TLS 1.2. -/
def aad12 (n : ℕ) (p : TlsPlaintextRecord) (length : ℕ) : Bytes :=
  bigEndian 8 n ++ recordHeader p.contentType p.version length

/-- The record of a format for the plaintext `p` at the sequence number `n`.  The explicit
nonce of GCM is the sequence number, the IV of CBC and the padding are the writer's choice. -/
def IsRecord (P : Primitives) (keys : WriteKeys) (n : ℕ) (p : TlsPlaintextRecord) :
    RecordFormat → Bytes → Prop
  | .gcm12 _, octets =>
    let sealed := P.aesGcm keys.key (keys.iv ++ bigEndian 8 n) (aad12 n p p.fragment.length)
      p.fragment
    octets = wireRecord p.contentType p.version (bigEndian 8 n ++ sealed.1 ++ sealed.2)
  | .chaCha12, octets =>
    let sealed := P.chaCha20Poly1305 keys.key (xorNonce keys.iv n) (aad12 n p p.fragment.length)
      p.fragment
    octets = wireRecord p.contentType p.version (sealed.1 ++ sealed.2)
  | .cbc12 _ mac, octets =>
    ∃ iv padding, iv.length = 16 ∧ padding < 256 ∧ (p.fragment.length + padding + 1) % 16 = 0 ∧
      let ciphertext := P.aesCbc keys.key iv
        (p.fragment ++ List.replicate (padding + 1) (UInt8.ofNat padding))
      octets = wireRecord p.contentType p.version (iv ++ ciphertext ++
        P.hmac mac keys.macKey
          (aad12 n p (16 + ciphertext.length) ++ (iv ++ ciphertext)))
  | .aead13 aead _ _, octets =>
    let inner := p.fragment ++ [p.contentType.octet] ++ List.replicate p.tls13PaddingLength 0
    let header := recordHeader .applicationData ⟨3, 3⟩ (inner.length + aead.tagLength)
    let sealed := P.seal keys.key (xorNonce keys.iv n) header inner aead
    octets = header ++ (sealed.1 ++ sealed.2)

/-! ## The client's records -/

/-- A fragment that the client sends, with the padding that the connection adds in TLS 1.3
and the octets that the random generator yields. -/
structure Fragment where
  contentType : TlsContentType
  octets : Bytes
  paddingLength : ℕ
  padding_le : paddingLength ≤ tls13MaxRecordPaddingLength
  length_le : octets.length + paddingLength ≤ tlsMaxPlaintextLength
  random : Bytes
  random_length : random.length = 16

/-- The record of `SendProtectedRecord` and `SendProtectedRecord13`. -/
def Fragment.record (f : Fragment) (protocol : TlsProtocol) : TlsPlaintextRecord where
  contentType := f.contentType
  version := ⟨3, 3⟩
  fragment := f.octets
  tls13PaddingLength := match protocol with
    | .tls12 => 0
    | .tls13 => f.paddingLength

def Fragment.call (f : Fragment) (protocol : TlsProtocol) : ProtectCall where
  plaintext := f.record protocol
  destinationCapacity := tlsIoBufferLength
  scratchCapacity := tlsMaxPlaintextLength + 1
  answers := { iv := f.random, iv_length := f.random_length }

/-- The fragments are sent one after the other, up to a failure. -/
def sendFragments (cng : Cng) (protocol : TlsProtocol) (s : TlsAeadCipherState) :
    List Fragment → Except NTSTATUS (List Bytes)
  | [] => .ok []
  | f :: rest =>
    let r := (protectionOf protocol s).protect cng (f.call protocol) s
    if ntSuccess r.status then
      (sendFragments cng protocol r.state rest).map (r.destination :: ·)
    else .error r.status

def clientWriteState (K : KeySource) (cipherSuite : TlsCipherSuite) :
    TlsProtocol → Except NTSTATUS TlsAeadCipherState
  | .tls12 => (tls12States cipherSuite K.keyExpansion).map (·.1)
  | .tls13 => deriveTrafficState K.hkdf cipherSuite K.trafficSecret

/-- A suite that the policy allows and that the handshake of the version accepts. -/
structure Accepts (policy : TlsPolicy) (protocol : TlsProtocol) (cipherSuite : TlsCipherSuite) :
    Prop where
  valid : ntSuccess (tlsValidatePolicy policy) = true
  allowed : tlsPolicyAllowsCipherSuite policy cipherSuite = true
  handshake : match protocol with
    | .tls12 => isSupportedCipherSuite12 cipherSuite = true
    | .tls13 => isTls13CipherSuite cipherSuite = true

/-- Every fragment is sent, as the record of the suite's specification. -/
def Interoperates (P : Primitives) (K : KeySource) (protocol : TlsProtocol)
    (cipherSuite : TlsCipherSuite) (fragments : List Fragment) : Prop :=
  ∃ s octets, clientWriteState K cipherSuite protocol = .ok s ∧
    sendFragments P.cng protocol s fragments = .ok octets ∧
    List.Forall₂ (fun f o => IsRecord P (cipherSuite.format.clientKeys K) f.2
      (f.1.record protocol) cipherSuite.format o) fragments.zipIdx octets

/-- The suites whose tables disagree: ChaCha20-Poly1305 with the fixed IV and the explicit
nonce of AES-GCM, AES-256 keys for AES-128-GCM, and a tag of sixteen octets for CCM_8. -/
def mismatchedSuites : List TlsCipherSuite := [
  .tlsEcdheRsaWithChaCha20Poly1305Sha256,
  .tlsEcdheEcdsaWithChaCha20Poly1305Sha256,
  .tlsDheRsaWithChaCha20Poly1305Sha256,
  .tlsDheRsaWithAes256GcmSha384,
  .tlsRsaWithAes256GcmSha384,
  .tlsAes128Ccm8Sha256]

/-! ## The states -/

@[simp] theorem slice_length (keyExpansion : ℕ → UInt8) (start n : ℕ) :
    (slice keyExpansion start n).length = n := by
  simp only [slice, List.length_map, List.length_range]

variable {algorithm : AeadAlgorithm} {c t key nonce : Bytes} {cng : Cng} {w : CngAnswers}
    {f : Fragment} {P : Primitives} {s : TlsAeadCipherState} {cipherSuite : TlsCipherSuite}
    {p : TlsPlaintextRecord} {policy : TlsPolicy} {protocol : TlsProtocol} {keys : WriteKeys}
    {capacity scratch n : ℕ}

theorem tls12States_eq
    (h : isSupportedCipherSuite12 cipherSuite = true) (keyExpansion : ℕ → UInt8) :
    let mac := tls12MacKeyLengthForCipherSuite cipherSuite
    let key := cipherSuiteKeyLength cipherSuite
    let iv := tls12FixedIvLengthForCipherSuite cipherSuite
    tls12States cipherSuite keyExpansion = .ok
      ({ algorithm := aeadAlgorithmForCipherSuite cipherSuite
         key := slice keyExpansion (mac * 2) key
         fixedIv := slice keyExpansion (mac * 2 + key * 2) iv
         macKey := slice keyExpansion 0 mac
         encryptThenMac := decide (mac ≠ 0) },
       { algorithm := aeadAlgorithmForCipherSuite cipherSuite
         key := slice keyExpansion (mac * 2 + key) key
         fixedIv := slice keyExpansion (mac * 2 + key * 2 + iv) iv
         macKey := slice keyExpansion mac mac
         encryptThenMac := decide (mac ≠ 0) }) := by
  cases cipherSuite <;> first | exact absurd h (by decide) | rfl

/-! ## One record

A state suits a format when its keys are the format's and its AEAD accepts them. -/

inductive Suits (P : Primitives) (keys : WriteKeys) (s : TlsAeadCipherState) :
    TlsProtocol → RecordFormat → Prop where
  | gcm12 (keyLength : ℕ)
      (seals : ∀ nonce aad p, nonce.length = 12 →
        P.cng.aeadEncrypt s.algorithm s.key nonce aad p = .ok (P.aesGcm keys.key nonce aad p))
      (key_length : 0 < s.key.length ∧ s.key.length ≤ 32)
      (fixedIv : s.fixedIv = keys.iv) (iv_length : keys.iv.length = 4)
      (encryptThenMac : s.encryptThenMac = false) : Suits P keys s .tls12 (.gcm12 keyLength)
  | cbc12 (keyLength : ℕ) (mac : HashAlgorithm)
      (key : s.key = keys.key) (key_length : 0 < s.key.length)
      (macKey : s.macKey = keys.macKey) (macKey_length : keys.macKey.length = hashDigestLength mac)
      (macAlgorithm : s.macAlgorithm = mac)
      (encryptThenMac : s.encryptThenMac = true) : Suits P keys s .tls12 (.cbc12 keyLength mac)
  | aead13 (aead : StandardAead) (keyLength : ℕ) (hash : HashAlgorithm)
      (seals : ∀ nonce aad p, nonce.length = 12 →
        P.cng.aeadEncrypt s.algorithm s.key nonce aad p = .ok (P.seal keys.key nonce aad p aead))
      (tag : aead.tagLength = 16)
      (key_length : 0 < s.key.length ∧ s.key.length ≤ 32)
      (fixedIv : s.fixedIv = keys.iv) (iv_length : keys.iv.length = 12) :
      Suits P keys s .tls13 (.aead13 aead keyLength hash)

/-- Only the sequence number changes from record to record. -/
theorem Suits.next {format : RecordFormat} (h : Suits P keys s protocol format) :
    Suits P keys s.next protocol format := by
  cases h with
  | gcm12 keyLength seals key_length fixedIv iv_length encryptThenMac =>
    exact .gcm12 keyLength seals key_length fixedIv iv_length encryptThenMac
  | cbc12 keyLength mac key key_length macKey macKey_length macAlgorithm encryptThenMac =>
    exact .cbc12 keyLength mac key key_length macKey macKey_length macAlgorithm encryptThenMac
  | aead13 aead keyLength hash seals tag key_length fixedIv iv_length =>
    exact .aead13 aead keyLength hash seals tag key_length fixedIv iv_length

theorem Primitives.seal_length (P : Primitives) (key nonce aad plaintext : Bytes)
    (aead : StandardAead) : (P.seal key nonce aad plaintext aead).1.length = plaintext.length ∧
      (P.seal key nonce aad plaintext aead).2.length = aead.tagLength := by
  cases aead with
  | aesGcm => exact P.aesGcm_length key nonce aad plaintext
  | chaCha20Poly1305 => exact P.chaCha20Poly1305_length key nonce aad plaintext
  | aesCcm tagLength => exact P.aesCcm_length tagLength key nonce aad plaintext

theorem buildTls13Nonce_eq (h : s.fixedIv.length = 12) :
    buildTls13Nonce s = xorNonce s.fixedIv s.sequenceNumber.toNat := by
  have hzeros : ∀ (a b : Bytes) (n : ℕ), a.length = n →
      List.zipWith (· ^^^ ·) a (List.replicate n 0 ++ b) = a := by
    intro a b n hn
    refine List.ext_getElem (by simp [hn]) fun i hi _ => ?_
    have hin : i < n := by simpa [hn] using hi
    simp [List.getElem_append_left, hin]
  rw [buildTls13Nonce, xorNonce, h, writeSequenceNumber]
  conv_rhs => rw [← List.take_append_drop 4 s.fixedIv]
  rw [List.zipWith_append (by simp [h])]
  congr 1
  exact (hzeros _ [] 4 (by simp [h])).symm.trans (by simp)

theorem buildTls13Nonce_length (h : s.fixedIv.length = 12) :
    (buildTls13Nonce s).length = 12 := by
  simp [buildTls13Nonce, writeSequenceNumber, h]

theorem Fragment.record_valid (f : Fragment) (protocol : TlsProtocol) :
    validPlaintextRecord (f.record protocol) = true :=
  validPlaintextRecord_iff.2 ⟨rfl, le_of_add_le_left f.length_le⟩

theorem protectAesGcm_writes (hvalid : validPlaintextRecord p = true)
    (hkey : 0 < s.key.length ∧ s.key.length ≤ 32)
    (hiv : s.fixedIv.length = tlsAesGcmFixedIvLength)
    (hmax : s.sequenceNumber ≠ tlsMaxRecordSequenceNumber)
    (hroom : tlsRecordHeaderLength +
      (tlsAesGcmExplicitNonceLength + p.fragment.length + tlsAesGcmTagLength) ≤ capacity)
    (hw : w.Allow)
    (henc : cng.aeadEncrypt s.algorithm s.key (s.fixedIv ++ writeSequenceNumber s.sequenceNumber)
      (buildAad s.sequenceNumber p.contentType p.version p.fragment.length) p.fragment =
        .ok (c, t)) (hc : c.length = p.fragment.length) :
    (protectAesGcm cng w p s capacity).Writes s
      (recordHeader p.contentType p.version
        (tlsAesGcmExplicitNonceLength + p.fragment.length + tlsAesGcmTagLength) ++
        (writeSequenceNumber s.sequenceNumber ++ c ++ t)) := by
  have hkeys : ¬ (s.key.length = 0 ∨ s.key.length > 32 ∨
      s.fixedIv.length ≠ tlsAesGcmFixedIvLength) := by omega
  rw [protectAesGcm, if_neg (not_not.2 hvalid), if_neg hkeys, if_neg hmax]
  extract_lets encryptedFragmentLength required explicitNonce
  rw [if_neg (not_lt.2 hroom), unlessFailed_success hw.cipher, buildAesGcmNonce, henc]
  dsimp only
  rw [if_neg (not_not.2 hc)]
  exact finishProtect_writes hmax _

theorem protectAesGcm13_writes
    (hvalid : validPlaintextRecord p = true) (hkey : 0 < s.key.length ∧ s.key.length ≤ 32)
    (hiv : s.fixedIv.length = tlsAesGcmTls13IvLength)
    (hpadding : p.fragment.length + p.tls13PaddingLength ≤ tlsMaxPlaintextLength)
    (hpadding' : p.tls13PaddingLength ≤ tls13MaxRecordPaddingLength)
    (hmax : s.sequenceNumber ≠ tlsMaxRecordSequenceNumber)
    (hroom : tlsRecordHeaderLength + ((innerPlaintext p).length + tlsAesGcmTagLength) ≤ capacity)
    (hscratch : (innerPlaintext p).length ≤ scratch) (hw : w.Allow)
    (henc : cng.aeadEncrypt s.algorithm s.key (buildTls13Nonce s)
      (buildTls13Aad ((innerPlaintext p).length + tlsAesGcmTagLength)) (innerPlaintext p) =
        .ok (c, t)) (hc : c.length = (innerPlaintext p).length) :
    (protectAesGcm13 cng w p s scratch capacity).Writes s
      (buildTls13Aad ((innerPlaintext p).length + tlsAesGcmTagLength) ++ (c ++ t)) := by
  have hkeys : ¬ (s.key.length = 0 ∨ s.key.length > 32 ∨ s.fixedIv.length ≠ tlsAesGcmTls13IvLength ∨
      p.tls13PaddingLength > tls13MaxRecordPaddingLength ∨
      p.tls13PaddingLength > tlsMaxPlaintextLength - p.fragment.length) := by omega
  rw [protectAesGcm13, if_neg (not_not.2 hvalid), if_neg hkeys, if_neg hmax]
  extract_lets innerPlaintextLength encryptedFragmentLength required inner
  have hinner : innerPlaintextLength = (innerPlaintext p).length := (innerPlaintext_length p).symm
  have hlength : ¬ encryptedFragmentLength > 0xffff := by
    have hlt : encryptedFragmentLength ≤ tlsMaxPlaintextLength + 1 + tlsAesGcmTagLength := by
      show p.fragment.length + 1 + p.tls13PaddingLength + tlsAesGcmTagLength ≤ _
      omega
    simp only [tlsMaxPlaintextLength, tlsAesGcmTagLength] at hlt
    omega
  have hroom' : ¬ capacity < required := by
    show ¬ capacity < tlsRecordHeaderLength + (innerPlaintextLength + tlsAesGcmTagLength)
    omega
  have hscratch' : ¬ scratch < innerPlaintextLength := by omega
  have henc' : cng.aeadEncrypt s.algorithm s.key (buildTls13Nonce s)
      (buildTls13Aad encryptedFragmentLength) inner = .ok (c, t) := by
    rw [← henc, ← hinner]
    rfl
  rw [if_neg hlength, if_neg hroom', if_neg hscratch', unlessFailed_success hw.cipher, henc']
  dsimp only
  rw [if_neg (not_not.2 (hc.trans hinner.symm)), ← hinner]
  exact finishProtect_writes hmax _

theorem protectAesCbc_writes {mac : Bytes}
    (hvalid : validPlaintextRecord p = true) (hetm : s.encryptThenMac = true)
    (hkey : 0 < s.key.length) (hmacKey : s.macKey.length = hashDigestLength s.macAlgorithm)
    (hmax : s.sequenceNumber ≠ tlsMaxRecordSequenceNumber)
    (hroom : tlsRecordHeaderLength + (tlsAesCbcBlockLength + (cbcPadded p.fragment).length +
      s.macKey.length) ≤ capacity) (hw : w.Allow) (hrandom : ntSuccess w.random = true)
    (henc : cng.aesCbcEncrypt s.key w.iv (cbcPadded p.fragment) = .ok c)
    (hc : c.length = (cbcPadded p.fragment).length)
    (hhmac : cng.hmac s.macAlgorithm s.macKey
      (buildAad s.sequenceNumber p.contentType p.version (tlsAesCbcBlockLength + c.length) ++
        (w.iv ++ c)) = .ok mac) (hmac : mac.length = s.macKey.length) :
    (protectAesCbcEncryptThenMac cng w p s capacity).Writes s
      (recordHeader p.contentType p.version
        (tlsAesCbcBlockLength + c.length + s.macKey.length) ++ (w.iv ++ c ++ mac)) := by
  have hdigest : 0 < s.macKey.length ∧ s.macKey.length ≤ 64 := by
    rw [hmacKey]
    cases s.macAlgorithm <;> decide
  have hkeys : ¬ (¬ s.encryptThenMac = true ∨ s.key.length = 0 ∨ s.macKey.length = 0 ∨
      s.macKey.length ≠ hashDigestLength s.macAlgorithm) := by
    rintro (h | h | h | h)
    · exact h hetm
    · exact hkey.ne' h
    · exact hdigest.1.ne' h
    · exact h hmacKey
  have hbounds := cbcPaddingLength_bounds p.fragment.length
  have hfragment := (validPlaintextRecord_iff.1 hvalid).2
  have hpadded := cbcPadded_length p.fragment
  rw [protectAesCbcEncryptThenMac, if_neg (not_not.2 hvalid), if_neg hkeys, if_neg hmax]
  extract_lets paddingLength paddedLength encryptedPartLength recordFragmentLength required padded
  have hlength : paddedLength = (cbcPadded p.fragment).length := hpadded.symm
  have hfits : ¬ (paddedLength > tlsMaxPlaintextLength + tlsAesCbcBlockLength ∨
      recordFragmentLength > 0xffff ∨ capacity < required) := by
    have hpart : encryptedPartLength = tlsAesCbcBlockLength + (cbcPadded p.fragment).length := by
      rw [← hlength]
    have hrecord : recordFragmentLength = encryptedPartLength + s.macKey.length := rfl
    have hrequired : required = tlsRecordHeaderLength + recordFragmentLength := rfl
    simp only [tlsMaxPlaintextLength, tlsAesCbcBlockLength] at hfragment hbounds hpart hroom ⊢
    rcases hbounds with ⟨-, hbound, hmod⟩
    omega
  rw [if_neg hfits, if_neg (not_not.2 hw.memory), if_neg (not_not.2 hrandom),
    unlessFailed_success hw.cipher]
  have henc' : cng.aesCbcEncrypt s.key w.iv padded = .ok c := henc
  rw [henc']
  dsimp only
  rw [if_neg (not_not.2 (hc.trans hlength.symm)), unlessFailed_success hw.hmac]
  have hpart : encryptedPartLength = tlsAesCbcBlockLength + c.length := by
    show tlsAesCbcBlockLength + paddedLength = _
    rw [hc, hlength]
  have hrecord : recordFragmentLength = tlsAesCbcBlockLength + c.length + s.macKey.length := by
    show encryptedPartLength + s.macKey.length = _
    rw [hpart]
  rw [hpart, hhmac]
  dsimp only
  rw [if_neg (not_not.2 hmac), hrecord]
  exact finishProtect_writes hmax _

theorem Fragment.gcm12_fits (f : Fragment) : tlsRecordHeaderLength +
    (tlsAesGcmExplicitNonceLength + (f.record .tls12).fragment.length + tlsAesGcmTagLength) ≤
      (f.call .tls12).destinationCapacity := by
  have hlen : f.octets.length + f.paddingLength ≤ 16384 := f.length_le
  show 5 + (8 + f.octets.length + 16) ≤ 18437
  omega

theorem Fragment.cbc12_fits (f : Fragment) (hn : n ≤ 64) : tlsRecordHeaderLength +
    (tlsAesCbcBlockLength + (cbcPadded (f.record .tls12).fragment).length + n) ≤
      (f.call .tls12).destinationCapacity := by
  have hlen : f.octets.length + f.paddingLength ≤ 16384 := f.length_le
  have hpadding := cbcPaddingLength_bounds f.octets.length
  rw [cbcPadded_length]
  show 5 + (16 + (f.octets.length + cbcPaddingLength f.octets.length + 1) + n) ≤ 18437
  omega

theorem Fragment.inner_fits (f : Fragment) :
    tlsRecordHeaderLength + ((innerPlaintext (f.record .tls13)).length + tlsAesGcmTagLength) ≤
        (f.call .tls13).destinationCapacity ∧
      (innerPlaintext (f.record .tls13)).length ≤ (f.call .tls13).scratchCapacity := by
  have hlen : f.octets.length + f.paddingLength ≤ 16384 := f.length_le
  rw [innerPlaintext_length]
  show 5 + (f.octets.length + 1 + f.paddingLength + 16) ≤ 18437 ∧
    f.octets.length + 1 + f.paddingLength ≤ 16385
  omega

theorem Fragment.call_allow (f : Fragment) (protocol : TlsProtocol) :
    (f.call protocol).answers.Allow := ⟨rfl, rfl, rfl⟩

theorem wireRecord_eq {contentType : TlsContentType} {version : TlsProtocolVersion}
    {fragment : Bytes} (h : fragment.length = n) :
    recordHeader contentType version n ++ fragment = wireRecord contentType version fragment := by
  rw [wireRecord, h]

/-- With a state that suits the format, `Protect` writes the record of the format. -/
theorem Suits.protect {format : RecordFormat} (h : Suits P keys s protocol format)
    (f : Fragment) (hmax : s.sequenceNumber ≠ tlsMaxRecordSequenceNumber) :
    ∃ o, ((protectionOf protocol s).protect P.cng (f.call protocol) s).Writes s o ∧
      IsRecord P keys s.sequenceNumber.toNat (f.record protocol) format o := by
  have hvalid := f.record_valid protocol
  have hallow := f.call_allow protocol
  cases h with
  | gcm12 keyLength seals key_length fixedIv iv_length encryptThenMac =>
    have hiv : s.fixedIv.length = tlsAesGcmFixedIvLength := by rw [fixedIv, iv_length]; rfl
    have hnonce : (s.fixedIv ++ writeSequenceNumber s.sequenceNumber).length = 12 := by
      rw [List.length_append, hiv, writeSequenceNumber_length]
      rfl
    have hlengths := P.aesGcm_length keys.key (s.fixedIv ++ writeSequenceNumber s.sequenceNumber)
      (buildAad s.sequenceNumber f.contentType ⟨3, 3⟩ f.octets.length) f.octets
    have hprotection : protectionOf .tls12 s = .aesGcm := by
      rw [protectionOf, encryptThenMac]
      rfl
    rw [hprotection]
    refine ⟨_, protectAesGcm_writes hvalid key_length hiv hmax f.gcm12_fits hallow
      (seals _ _ _ hnonce) hlengths.1, ?_⟩
    rw [wireRecord_eq]
    · simp only [IsRecord, ← fixedIv]
      rfl
    · rw [List.length_append, List.length_append, writeSequenceNumber_length]
      exact congrArg₂ (tlsAesGcmExplicitNonceLength + · + ·) hlengths.1 hlengths.2
  | cbc12 keyLength mac key key_length macKey macKey_length macAlgorithm encryptThenMac =>
    have hmacKey : s.macKey.length = hashDigestLength s.macAlgorithm := by
      rw [macKey, macKey_length, macAlgorithm]
    have hdigest : s.macKey.length ≤ 64 := by
      rw [hmacKey]
      cases s.macAlgorithm <;> decide
    have hbounds := cbcPaddingLength_bounds f.octets.length
    have hblocks : (cbcPadded f.octets).length % 16 = 0 := by
      rw [cbcPadded_length]
      exact hbounds.2.2
    have hlength := P.aesCbc_length s.key f.random (cbcPadded f.octets) hblocks
    have hprotection : protectionOf .tls12 s = .aesCbcEncryptThenMac := by
      rw [protectionOf, encryptThenMac]
      rfl
    rw [hprotection]
    have henc : P.cng.aesCbcEncrypt s.key f.random (cbcPadded f.octets) =
        .ok (P.aesCbc s.key f.random (cbcPadded f.octets)) := rfl
    refine ⟨_, protectAesCbc_writes hvalid encryptThenMac key_length hmacKey hmax
      (f.cbc12_fits hdigest) hallow rfl henc hlength rfl ?_, ?_⟩
    · rw [P.hmac_length, hmacKey]
    · refine ⟨f.random, cbcPaddingLength f.octets.length, f.random_length, ?_, hbounds.2.2, ?_⟩
      · omega
      rw [wireRecord_eq]
      · rw [key, macKey, macAlgorithm]
        rfl
      · rw [List.length_append, List.length_append, P.hmac_length, hmacKey]
        exact congrArg (· + _ + _) f.random_length
  | aead13 aead keyLength hash seals tag key_length fixedIv iv_length =>
    have hiv : s.fixedIv.length = tlsAesGcmTls13IvLength := by rw [fixedIv, iv_length]; rfl
    have hlengths := P.seal_length keys.key (buildTls13Nonce s)
      (buildTls13Aad ((innerPlaintext (f.record .tls13)).length + tlsAesGcmTagLength))
      (innerPlaintext (f.record .tls13)) aead
    refine ⟨_, protectAesGcm13_writes hvalid key_length hiv f.length_le f.padding_le
      hmax f.inner_fits.1 f.inner_fits.2 hallow (seals _ _ _ (buildTls13Nonce_length hiv))
      hlengths.1, ?_⟩
    simp only [IsRecord, ← fixedIv, tag, ← buildTls13Nonce_eq hiv]
    rfl

theorem Protection.protect_max (cng : Cng) (call : ProtectCall)
    (h : s.sequenceNumber = tlsMaxRecordSequenceNumber) (π : Protection) :
    (π.protect cng call s).Fails s := by
  cases π with
  | aesGcm =>
    rcases protectAesGcm_cases cng call.answers call.plaintext s call.destinationCapacity with
      hf | ⟨_, _, _, _, _, _, hw⟩
    · exact hf
    · exact absurd h hw.below
  | aesCbcEncryptThenMac =>
    rcases protectAesCbc_cases cng call.answers call.plaintext s call.destinationCapacity with
      hf | ⟨_, _, _, _, _, _, _, _, _, hw⟩
    · exact hf
    · exact absurd h hw.below
  | aesGcm13 =>
    rcases protectAesGcm13_cases cng call.answers call.plaintext s call.scratchCapacity
      call.destinationCapacity with hf | ⟨_, _, _, _, _, _, _, hw⟩
    · exact hf
    · exact absurd h hw.below

/-! ## A list of fragments -/

theorem sendFragments_cons_of_writes {o : Bytes}
    (h : ((protectionOf protocol s).protect cng (f.call protocol) s).Writes s o)
    (rest : List Fragment) : sendFragments cng protocol s (f :: rest) =
      (sendFragments cng protocol s.next rest).map (o :: ·) := by
  rw [sendFragments]
  simp only [h.status, if_true, h.state, h.destination]

theorem sendFragments_cons_of_fails
    (h : ((protectionOf protocol s).protect cng (f.call protocol) s).Fails s)
    (rest : List Fragment) : ∃ status, sendFragments cng protocol s (f :: rest) = .error status := by
  refine ⟨((protectionOf protocol s).protect cng (f.call protocol) s).status, ?_⟩
  rw [sendFragments]
  simp only [h.status, Bool.false_eq_true, if_false]

/-- As long as there are sequence numbers, every fragment becomes a record of the format. -/
theorem Suits.sends {format : RecordFormat} (fragments : List Fragment)
    (h : Suits P keys s protocol format)
    (hlen : s.sequenceNumber.toNat + fragments.length < 2 ^ 64) :
    ∃ octets, sendFragments P.cng protocol s fragments = .ok octets ∧
      List.Forall₂ (fun f o => IsRecord P keys f.2 (f.1.record protocol) format o)
        (fragments.zipIdx s.sequenceNumber.toNat) octets := by
  induction fragments generalizing s with
  | nil => exact ⟨[], rfl, .nil⟩
  | cons f rest ih =>
    rw [List.length_cons] at hlen
    have hmax : s.sequenceNumber ≠ tlsMaxRecordSequenceNumber := by
      intro hmax
      rw [hmax, show tlsMaxRecordSequenceNumber.toNat = 2 ^ 64 - 1 from rfl] at hlen
      omega
    have hnext : s.next.sequenceNumber.toNat = s.sequenceNumber.toNat + 1 := toNat_succ_of_ne hmax
    obtain ⟨o, hwrites, hrecord⟩ := h.protect f hmax
    obtain ⟨octets, hsend, hrecords⟩ := ih h.next (by omega)
    refine ⟨o :: octets, ?_, ?_⟩
    · rw [sendFragments_cons_of_writes hwrites, hsend]
      rfl
    · rw [List.zipIdx_cons, ← hnext]
      exact .cons hrecord hrecords

theorem Suits.sends_full {format : RecordFormat} (fragments : List Fragment)
    (h : Suits P keys s protocol format)
    (hlen : 2 ^ 64 ≤ s.sequenceNumber.toNat + fragments.length) :
    ∃ status, sendFragments P.cng protocol s fragments = .error status := by
  induction fragments generalizing s with
  | nil =>
    have := s.sequenceNumber.toNat_lt
    rw [List.length_nil] at hlen
    omega
  | cons f rest ih =>
    rw [List.length_cons] at hlen
    by_cases hmax : s.sequenceNumber = tlsMaxRecordSequenceNumber
    · exact sendFragments_cons_of_fails (Protection.protect_max _ _ hmax _) rest
    · have hnext : s.next.sequenceNumber.toNat = s.sequenceNumber.toNat + 1 :=
        toNat_succ_of_ne hmax
      obtain ⟨o, hwrites, -⟩ := h.protect f hmax
      obtain ⟨status, hsend⟩ := ih h.next (by omega)
      refine ⟨status, ?_⟩
      rw [sendFragments_cons_of_writes hwrites, hsend]
      rfl

/-! ## The suites -/

theorem clientWriteState_tls12 (h : isSupportedCipherSuite12 cipherSuite = true) (K : KeySource) :
    clientWriteState K cipherSuite .tls12 = .ok
      { algorithm := aeadAlgorithmForCipherSuite cipherSuite
        key := slice K.keyExpansion (tls12MacKeyLengthForCipherSuite cipherSuite * 2)
          (cipherSuiteKeyLength cipherSuite)
        fixedIv := slice K.keyExpansion (tls12MacKeyLengthForCipherSuite cipherSuite * 2 +
          cipherSuiteKeyLength cipherSuite * 2) (tls12FixedIvLengthForCipherSuite cipherSuite)
        macKey := slice K.keyExpansion 0 (tls12MacKeyLengthForCipherSuite cipherSuite)
        encryptThenMac := decide (tls12MacKeyLengthForCipherSuite cipherSuite ≠ 0) } := by
  rw [clientWriteState, tls12States_eq h]
  rfl

theorem clientWriteState_tls13 (cipherSuite : TlsCipherSuite) (K : KeySource) :
    clientWriteState K cipherSuite .tls13 = .ok
      { algorithm := aeadAlgorithmForCipherSuite cipherSuite
        key := K.hkdf.expand (hashForCipherSuite cipherSuite) K.trafficSecret (text "key")
          (cipherSuiteKeyLength cipherSuite)
        fixedIv := K.hkdf.expand (hashForCipherSuite cipherSuite) K.trafficSecret (text "iv") 12 } := by
  have hsecret : ¬ (cipherSuiteKeyLength cipherSuite = 0 ∨ K.trafficSecret = []) := by
    rintro (hzero | hnil)
    · cases cipherSuite <;> exact absurd hzero (by decide)
    · exact K.trafficSecret_ne hnil
  exact if_neg hsecret

theorem Primitives.encrypt_aesGcm (P : Primitives) {aad plaintext : Bytes}
    (h : algorithm = .aes128Gcm ∧ key.length = 16 ∨ algorithm = .aes256Gcm ∧ key.length = 32)
    (hn : nonce.length = 12) : P.cng.aeadEncrypt algorithm key nonce aad plaintext =
      .ok (P.aesGcm key nonce aad plaintext) := by
  have hne : nonce ≠ [] := by
    rintro rfl
    cases hn
  rcases h with ⟨rfl, hk⟩ | ⟨rfl, hk⟩ <;>
    simp [Primitives.cng, Primitives.encrypt, tlsAesGcmTagLength, hk, hne]

theorem Primitives.encrypt_chaCha20Poly1305 (P : Primitives)
    (aad plaintext : Bytes) (hk : key.length = 32) (hn : nonce.length = 12) :
    P.cng.aeadEncrypt .chaCha20Poly1305 key nonce aad plaintext =
      .ok (P.chaCha20Poly1305 key nonce aad plaintext) := by
  simp [Primitives.cng, Primitives.encrypt, validChaCha20Poly1305, tlsAesGcmTagLength, hk, hn]

theorem Primitives.encrypt_aesCcm (P : Primitives) (aad plaintext : Bytes)
    (hk : key.length = 16) (hn : nonce.length = 12) :
    P.cng.aeadEncrypt .aes128Ccm key nonce aad plaintext =
      .ok (P.aesCcm 16 key nonce aad plaintext) := by
  simp [Primitives.cng, Primitives.encrypt, validAesCcm, tlsAesGcmTagLength, hk, hn]

theorem suits_gcm12 (P : Primitives) (K : KeySource)
    (h : algorithm = .aes128Gcm ∧ n = 16 ∨ algorithm = .aes256Gcm ∧ n = 32) :
    Suits P (clientKeys12 K.keyExpansion 0 n 4)
      { algorithm := algorithm
        key := slice K.keyExpansion (0 * 2) n
        fixedIv := slice K.keyExpansion (0 * 2 + n * 2) 4
        macKey := slice K.keyExpansion 0 0
        encryptThenMac := false } .tls12 (.gcm12 n) := by
  refine .gcm12 n (fun nonce aad p hn => P.encrypt_aesGcm ?_ hn) ?_ rfl (slice_length _ _ _) rfl
  · simpa only [slice_length] using h
  · rw [slice_length]
    omega

theorem suits_cbc12 (P : Primitives) (K : KeySource) (algorithm : AeadAlgorithm) :
    Suits P (clientKeys12 K.keyExpansion 32 16 0)
      { algorithm := algorithm
        key := slice K.keyExpansion (32 * 2) 16
        fixedIv := slice K.keyExpansion (32 * 2 + 16 * 2) 0
        macKey := slice K.keyExpansion 0 32
        encryptThenMac := true } .tls12 (.cbc12 16 .sha256) :=
  .cbc12 16 .sha256 rfl (by rw [slice_length]; decide) rfl (slice_length _ _ _) rfl rfl

theorem suits_aead13 (P : Primitives) (K : KeySource)
    {aead : StandardAead} (hash : HashAlgorithm) (hn : 0 < n ∧ n ≤ 32) (tag : aead.tagLength = 16)
    (h : ∀ key nonce aad p, key.length = n → nonce.length = 12 →
      P.cng.aeadEncrypt algorithm key nonce aad p = .ok (P.seal key nonce aad p aead)) :
    Suits P ((RecordFormat.aead13 aead n hash).clientKeys K)
      { algorithm := algorithm
        key := K.hkdf.expand hash K.trafficSecret (text "key") n
        fixedIv := K.hkdf.expand hash K.trafficSecret (text "iv") 12 } .tls13
      (.aead13 aead n hash) := by
  have hlength := K.hkdf.length_expand hash K.trafficSecret
  refine .aead13 aead n hash (fun nonce aad p => h _ nonce aad p (hlength _ _)) tag ?_ rfl
    (hlength _ _)
  rw [hlength]
  exact hn

theorem clientWriteState_suits (h : Accepts policy protocol cipherSuite)
    (hsuite : cipherSuite ∉ mismatchedSuites) (P : Primitives) (K : KeySource) :
    ∃ s, clientWriteState K cipherSuite protocol = .ok s ∧ s.sequenceNumber = 0 ∧
      Suits P (cipherSuite.format.clientKeys K) s protocol cipherSuite.format := by
  have hhandshake := h.handshake
  cases protocol with
  | tls12 =>
    refine ⟨_, clientWriteState_tls12 hhandshake K, rfl, ?_⟩
    cases cipherSuite <;> first
      | exact absurd hhandshake (by decide)
      | exact absurd (by decide) hsuite
      | exact suits_gcm12 P K (.inl ⟨rfl, rfl⟩)
      | exact suits_gcm12 P K (.inr ⟨rfl, rfl⟩)
      | exact suits_cbc12 P K _
  | tls13 =>
    refine ⟨_, clientWriteState_tls13 cipherSuite K, rfl, ?_⟩
    cases cipherSuite with
    | tlsAes128GcmSha256 =>
      exact suits_aead13 P K _ (by decide) rfl fun _ _ _ _ hk hn =>
        P.encrypt_aesGcm (.inl ⟨rfl, hk⟩) hn
    | tlsAes256GcmSha384 =>
      exact suits_aead13 P K _ (by decide) rfl fun _ _ _ _ hk hn =>
        P.encrypt_aesGcm (.inr ⟨rfl, hk⟩) hn
    | tlsChaCha20Poly1305Sha256 =>
      exact suits_aead13 P K _ (by decide) rfl fun _ _ _ _ hk hn =>
        P.encrypt_chaCha20Poly1305 _ _ hk hn
    | tlsAes128CcmSha256 =>
      exact suits_aead13 P K _ (by decide) rfl fun _ _ _ _ hk hn => P.encrypt_aesCcm _ _ hk hn
    | tlsAes128Ccm8Sha256 => exact absurd (by decide) hsuite
    | _ => exact absurd hhandshake (by decide)

theorem sendFragments_cons_ok {rest : List Fragment} {octets : List Bytes}
    (h : sendFragments cng protocol s (f :: rest) = .ok octets) :
    ∃ behind, ntSuccess ((protectionOf protocol s).protect cng (f.call protocol) s).status = true ∧
      octets = ((protectionOf protocol s).protect cng (f.call protocol) s).destination ::
        behind := by
  rw [sendFragments] at h
  split at h
  case isFalse => cases h
  case isTrue hstatus =>
    cases hbehind : sendFragments cng protocol
        ((protectionOf protocol s).protect cng (f.call protocol) s).state rest with
    | error status =>
      rw [hbehind] at h
      cases h
    | ok behind =>
      rw [hbehind] at h
      cases h
      exact ⟨behind, hstatus, rfl⟩

/-- The record for the first fragment. -/
theorem Interoperates.head {P : Primitives} {K : KeySource} {protocol : TlsProtocol}
    {cipherSuite : TlsCipherSuite} {f : Fragment} {rest : List Fragment}
    (h : Interoperates P K protocol cipherSuite (f :: rest)) {s : TlsAeadCipherState}
    (hs : clientWriteState K cipherSuite protocol = .ok s) :
    ntSuccess ((protectionOf protocol s).protect P.cng (f.call protocol) s).status = true ∧
      IsRecord P (cipherSuite.format.clientKeys K) 0 (f.record protocol) cipherSuite.format
        ((protectionOf protocol s).protect P.cng (f.call protocol) s).destination := by
  obtain ⟨s', octets, hs', hsend, hrecords⟩ := h
  obtain rfl : s = s' := Except.ok.inj (hs.symm.trans hs')
  obtain ⟨behind, hstatus, rfl⟩ := sendFragments_cons_ok hsend
  rw [List.zipIdx_cons] at hrecords
  cases hrecords with
  | cons hrecord _ => exact ⟨hstatus, hrecord⟩

theorem protectAesGcm_status_of_key (ha : s.algorithm = .aes128Gcm)
    (hk : s.key.length ≠ 16) : ntSuccess (protectAesGcm P.cng w p s capacity).status = false := by
  rcases protectAesGcm_cases P.cng w p s capacity with hf | ⟨c, t, -, -, henc, -, -⟩
  · exact hf.status
  · rw [ha] at henc
    simp [Primitives.cng, Primitives.encrypt, hk] at henc

theorem protectAesGcm13_status_of_ccm8 (ha : s.algorithm = .aes128Ccm8) :
    ntSuccess (protectAesGcm13 P.cng w p s scratch capacity).status = false := by
  rcases protectAesGcm13_cases P.cng w p s scratch capacity with hf | ⟨c, t, -, -, -, henc, -, -⟩
  · exact hf.status
  · rw [ha] at henc
    simp [Primitives.cng, Primitives.encrypt, tlsAesGcmTagLength] at henc

theorem protectAesGcm_not_chaCha12 (ha : s.algorithm = .chaCha20Poly1305)
    (hstatus : ntSuccess (protectAesGcm P.cng w p s capacity).status = true) :
    ¬ IsRecord P keys n p .chaCha12 (protectAesGcm P.cng w p s capacity).destination := by
  rcases protectAesGcm_cases P.cng w p s capacity with hf | ⟨c, t, -, -, henc, hc, hwrites⟩
  · exact fun _ => absurd (hf.status.symm.trans hstatus) (by decide)
  · have ht : t.length = 16 := by
      rw [ha] at henc
      simp only [Primitives.cng, Primitives.encrypt] at henc
      split_ifs at henc
      have hsnd : _ = t := congrArg Prod.snd (Except.ok.inj henc)
      rw [← hsnd]
      exact (P.chaCha20Poly1305_length _ _ _ _).2
    intro hrecord
    have hlengths := P.chaCha20Poly1305_length keys.key (xorNonce keys.iv n)
      (aad12 n p p.fragment.length) p.fragment
    have hlength := congrArg List.length (hwrites.destination.symm.trans hrecord)
    rw [wireRecord_length] at hlength
    simp only [List.length_append, recordHeader_length, writeSequenceNumber_length, hc, ht,
      hlengths.1, hlengths.2, tlsAesGcmExplicitNonceLength] at hlength
    omega

/-- With disagreeing tables the first fragment is refused, or its record is longer than the
record of the format. -/
theorem not_interoperates_cons (h : Accepts policy protocol cipherSuite)
    (hsuite : cipherSuite ∈ mismatchedSuites) (P : Primitives) (K : KeySource) (f : Fragment)
    (rest : List Fragment) : ¬ Interoperates P K protocol cipherSuite (f :: rest) := by
  intro hi
  have hhandshake := h.handshake
  cases protocol with
  | tls12 =>
    obtain ⟨hstatus, hrecord⟩ := hi.head (clientWriteState_tls12 hhandshake K)
    have hprotection {s : TlsAeadCipherState} (hs : s.encryptThenMac = false) :
        (protectionOf .tls12 s).protect P.cng (f.call .tls12) s =
          protectAesGcm P.cng (f.call .tls12).answers (f.record .tls12) s
            (f.call .tls12).destinationCapacity := by
      rw [protectionOf, hs]
      rfl
    simp only [mismatchedSuites, List.mem_cons, List.not_mem_nil, or_false] at hsuite
    rcases hsuite with rfl | rfl | rfl | rfl | rfl | rfl
    · rw [hprotection rfl] at hstatus hrecord
      exact protectAesGcm_not_chaCha12 rfl hstatus hrecord
    · rw [hprotection rfl] at hstatus hrecord
      exact protectAesGcm_not_chaCha12 rfl hstatus hrecord
    · rw [hprotection rfl] at hstatus hrecord
      exact protectAesGcm_not_chaCha12 rfl hstatus hrecord
    · rw [hprotection rfl, protectAesGcm_status_of_key rfl (by rw [slice_length]; decide)] at hstatus
      cases hstatus
    · rw [hprotection rfl, protectAesGcm_status_of_key rfl (by rw [slice_length]; decide)] at hstatus
      cases hstatus
    · exact absurd hhandshake (by decide)
  | tls13 =>
    obtain ⟨hstatus, -⟩ := hi.head (clientWriteState_tls13 cipherSuite K)
    cases cipherSuite <;> first
      | exact absurd hsuite (by decide)
      | exact absurd hhandshake (by decide)
      | exact absurd ((protectAesGcm13_status_of_ccm8 rfl).symm.trans hstatus) (by decide)

/-- The client interoperates with exactly the suites whose tables agree. -/
theorem interoperates_iff {policy : TlsPolicy} {protocol : TlsProtocol}
    {cipherSuite : TlsCipherSuite} (h : Accepts policy protocol cipherSuite) (P : Primitives)
    (K : KeySource) (fragments : List Fragment) :
    Interoperates P K protocol cipherSuite fragments ↔
      fragments = [] ∨ cipherSuite ∉ mismatchedSuites ∧ fragments.length < 2 ^ 64 := by
  constructor
  · intro hi
    rcases fragments with - | ⟨f, rest⟩
    · exact .inl rfl
    · have hsuite : cipherSuite ∉ mismatchedSuites := fun hsuite =>
        not_interoperates_cons h hsuite P K f rest hi
      refine .inr ⟨hsuite, not_le.1 fun hfull => ?_⟩
      obtain ⟨s, hs, hzero, hsuits⟩ := clientWriteState_suits h hsuite P K
      obtain ⟨s', octets, hs', hsend, -⟩ := hi
      obtain rfl : s = s' := Except.ok.inj (hs.symm.trans hs')
      obtain ⟨status, herror⟩ := hsuits.sends_full (f :: rest) (by rw [hzero]; simpa using hfull)
      rw [herror] at hsend
      cases hsend
  · rintro (rfl | ⟨hsuite, hlen⟩)
    · have hhandshake := h.handshake
      cases protocol with
      | tls12 => exact ⟨_, [], clientWriteState_tls12 hhandshake K, rfl, .nil⟩
      | tls13 => exact ⟨_, [], clientWriteState_tls13 cipherSuite K, rfl, .nil⟩
    · obtain ⟨s, hs, hzero, hsuits⟩ := clientWriteState_suits h hsuite P K
      obtain ⟨octets, hsend, hrecords⟩ := hsuits.sends fragments (by rw [hzero]; simpa using hlen)
      rw [hzero] at hrecords
      exact ⟨s, octets, hs, hsend, hrecords⟩

/-- Ciphers that leave the plaintext as it is. -/
def plainPrimitives : Primitives where
  aesGcm _ _ _ plaintext := (plaintext, List.replicate 16 0)
  aesGcmOpen _ _ _ ciphertext _ := some ciphertext
  chaCha20Poly1305 _ _ _ plaintext := (plaintext, List.replicate 16 0)
  chaCha20Poly1305Open _ _ _ ciphertext _ := some ciphertext
  aesCcm tagLength _ _ _ plaintext := (plaintext, List.replicate tagLength 0)
  aesCcmOpen _ _ _ ciphertext _ := some ciphertext
  aesCbc _ _ plaintext := plaintext
  aesCbcOpen _ _ ciphertext := some ciphertext
  hmac algorithm _ _ := List.replicate (hashDigestLength algorithm) 0
  aesGcm_length _ _ _ _ := ⟨rfl, rfl⟩
  chaCha20Poly1305_length _ _ _ _ := ⟨rfl, rfl⟩
  aesCcm_length _ _ _ _ _ := ⟨rfl, List.length_replicate⟩
  aesCbc_length _ _ _ _ := rfl
  hmac_length _ _ _ := List.length_replicate

/-- The octets of the key expansion count up; every traffic key is zero. -/
def countingKeys : KeySource where
  keyExpansion i := UInt8.ofNat i
  hkdf := ⟨fun _ _ _ n => List.replicate n 0, fun _ _ _ _ => List.length_replicate⟩
  trafficSecret := [1]
  trafficSecret_ne := by decide

def getFragment : Fragment where
  contentType := .applicationData
  octets := text "GET / HTTP/1.1"
  paddingLength := 0
  padding_le := by decide
  length_le := by decide
  random := List.replicate 16 7
  random_length := rfl

theorem interoperates_iff_aes128Gcm :
    Accepts {} .tls12 .tlsEcdheRsaWithAes128GcmSha256 ∧
      Interoperates plainPrimitives countingKeys .tls12 .tlsEcdheRsaWithAes128GcmSha256
        [getFragment] :=
  have h : Accepts {} .tls12 .tlsEcdheRsaWithAes128GcmSha256 := ⟨by decide, by decide, by decide⟩
  ⟨h, (interoperates_iff h plainPrimitives countingKeys [getFragment]).2
    (.inr ⟨by decide, by decide⟩)⟩

/-- With the default policy the client accepts ChaCha20-Poly1305 in TLS 1.2, and its first
record is not the one of RFC 7905. -/
theorem chaCha20_not_interoperates :
    Accepts {} .tls12 .tlsEcdheRsaWithChaCha20Poly1305Sha256 ∧
      ¬ Interoperates plainPrimitives countingKeys .tls12 .tlsEcdheRsaWithChaCha20Poly1305Sha256
        [getFragment] :=
  have h : Accepts {} .tls12 .tlsEcdheRsaWithChaCha20Poly1305Sha256 :=
    ⟨by decide, by decide, by decide⟩
  ⟨h, not_interoperates_cons h (by decide) plainPrimitives countingKeys getFragment []⟩

end KernelHttp.Tls
