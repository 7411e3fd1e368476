/-
  Records survive protection.

  A writer protects plaintext records one after the other; a reader with the same keys
  cuts its input into records and unprotects them.  Either may also make calls that fail.
-/
import KernelHttp.Tls.Record

namespace KernelHttp.Tls

open BigEndian

/-! ## What is assumed of the platform -/

/-- Decryption inverts encryption, and the tag fills the buffer that it is given. -/
structure Cng.Inverts (cng : Cng) : Prop where
  tag_length : ∀ {a k n aad p c t}, cng.aeadEncrypt a k n aad p = .ok (c, t) →
    t.length = tlsAesGcmTagLength
  aead : ∀ {a k n aad p c t}, cng.aeadEncrypt a k n aad p = .ok (c, t) →
    cng.aeadDecrypt a k n aad c t = .ok p
  aesCbc : ∀ {k iv p c}, cng.aesCbcEncrypt k iv p = .ok c → cng.aesCbcDecrypt k iv c = .ok p

/-- The platform refuses nothing in this call. -/
structure CngAnswers.Allow (w : CngAnswers) : Prop where
  memory : w.memory = true
  cipher : ntSuccess w.cipher = true
  hmac : ntSuccess w.hmac = true

variable {c t rest : Bytes} {cng : Cng} {w : CngAnswers} {status : NTSTATUS} {π : Protection}
    {s s' s₀ : TlsAeadCipherState} {output : TlsMutablePlaintextRecord} {p : TlsPlaintextRecord}
    {n : ℕ}

theorem unlessFailed_eq_ok {α : Type} {x : Except FailureStatus α} {a : α} :
    unlessFailed status x = .ok a ↔ ntSuccess status = true ∧ x = .ok a := by
  unfold unlessFailed
  split <;> simp_all

theorem unlessFailed_success {α : Type} (h : ntSuccess status = true)
    (x : Except FailureStatus α) : unlessFailed status x = x := by
  unfold unlessFailed
  split <;> simp_all

/-! ## Headers -/

def wireRecord (contentType : TlsContentType) (version : TlsProtocolVersion) (fragment : Bytes) :
    Bytes :=
  recordHeader contentType version fragment.length ++ fragment

@[simp] theorem recordHeader_length (contentType : TlsContentType) (version : TlsProtocolVersion)
    (n : ℕ) : (recordHeader contentType version n).length = tlsRecordHeaderLength := by
  rw [recordHeader, List.length_append, bigEndian_length]
  rfl

theorem wireRecord_length (contentType : TlsContentType) (version : TlsProtocolVersion)
    (fragment : Bytes) : (wireRecord contentType version fragment).length =
      tlsRecordHeaderLength + fragment.length := by
  rw [wireRecord, List.length_append, recordHeader_length]

@[simp] theorem validContentType_octet (contentType : TlsContentType) :
    validContentType contentType.octet = some contentType := by
  cases contentType <;> rfl

theorem octet_ne_zero (contentType : TlsContentType) : contentType.octet ≠ 0 := by
  cases contentType <;> decide

/-- What was written as a record is cut off, whatever follows. -/
theorem parseRecord_wireRecord (contentType : TlsContentType) {version : TlsProtocolVersion}
    {fragment : Bytes} (hv : isSupportedVersion version = true)
    (hn : fragment.length ≤ tlsMaxPlaintextLength + 2048) (rest : Bytes) :
    parseRecord (wireRecord contentType version fragment ++ rest) =
      .ok ⟨contentType, version, fragment, (wireRecord contentType version fragment).length⟩ := by
  have hlt : fragment.length < 256 ^ 2 := lt_of_le_of_lt hn (by decide)
  obtain ⟨hi, lo, hb⟩ : ∃ hi lo, bigEndian 2 fragment.length = [hi, lo] := ⟨_, _, rfl⟩
  have hback : ofBigEndian [hi, lo] = fragment.length := by rw [← hb, ofBigEndian_bigEndian hlt]
  rw [wireRecord_length, wireRecord, recordHeader, hb]
  simp only [List.cons_append, List.nil_append, parseRecord, validContentType_octet, hback]
  rw [if_neg (not_not.2 hv), if_neg (not_lt.2 hn), if_neg (by simp), List.take_left]

/-! ## The sequence number -/

def TlsAeadCipherState.next (s : TlsAeadCipherState) : TlsAeadCipherState :=
  { s with sequenceNumber := s.sequenceNumber + 1 }

theorem incrementSequence_of_ne
    (h : s.sequenceNumber ≠ tlsMaxRecordSequenceNumber) : incrementSequence s = .ok s.next :=
  if_neg h

theorem toNat_succ_of_ne {n : UInt64} (h : n ≠ tlsMaxRecordSequenceNumber) :
    (n + 1).toNat = n.toNat + 1 := by
  have hn : n.toNat ≠ 0xffffffffffffffff := fun e => h (UInt64.toNat_inj.1 e)
  have hlt := n.toNat_lt
  rw [UInt64.toNat_add, Nat.mod_eq_of_lt]
  · rfl
  · show n.toNat + 1 < 2 ^ 64
    omega

/-! ## Outcomes of a call -/

/-- A `Protect` call that fails: nothing is written and the state is as before. -/
structure ProtectResult.Fails (r : ProtectResult) (s : TlsAeadCipherState) : Prop where
  status : ntSuccess r.status = false
  state : r.state = s
  destination : r.destination = []

/-- An `Unprotect` call that fails: the output is empty and the state is as before. -/
structure UnprotectResult.Fails (r : UnprotectResult) (s : TlsAeadCipherState) : Prop where
  status : ntSuccess r.status = false
  state : r.state = s
  output : r.output = {}

/-- A `Protect` call that succeeds. -/
structure ProtectResult.Writes (r : ProtectResult) (s : TlsAeadCipherState) (record : Bytes) :
    Prop where
  status : ntSuccess r.status = true
  below : s.sequenceNumber ≠ tlsMaxRecordSequenceNumber
  state : r.state = s.next
  destination : r.destination = record
  bytesWritten : r.bytesWritten = record.length

/-- An `Unprotect` call that succeeds. -/
structure UnprotectResult.Opens (r : UnprotectResult) (s : TlsAeadCipherState)
    (output : TlsMutablePlaintextRecord) : Prop where
  status : ntSuccess r.status = true
  below : s.sequenceNumber ≠ tlsMaxRecordSequenceNumber
  state : r.state = s.next
  output : r.output = output

theorem finishProtect_writes (h : s.sequenceNumber ≠ tlsMaxRecordSequenceNumber) (record : Bytes) :
    (finishProtect s record).Writes s record := by
  rw [finishProtect, incrementSequence_of_ne h]
  exact ⟨rfl, h, rfl, rfl, rfl⟩

theorem finishUnprotect_opens
    (h : s.sequenceNumber ≠ tlsMaxRecordSequenceNumber) (output : TlsMutablePlaintextRecord) :
    (finishUnprotect s output).Opens s output := by
  rw [finishUnprotect, incrementSequence_of_ne h]
  exact ⟨rfl, h, rfl, rfl⟩

/-! ## What a successful `Protect` has done -/

theorem protectAesGcm_cases (cng : Cng) (w : CngAnswers) (p : TlsPlaintextRecord)
    (s : TlsAeadCipherState) (capacity : ℕ) :
    (protectAesGcm cng w p s capacity).Fails s ∨
      ∃ c t, validPlaintextRecord p = true ∧
        ¬ (s.key.length = 0 ∨ s.key.length > 32 ∨ s.fixedIv.length ≠ tlsAesGcmFixedIvLength) ∧
        cng.aeadEncrypt s.algorithm s.key
          (buildAesGcmNonce s (writeSequenceNumber s.sequenceNumber))
          (buildAad s.sequenceNumber p.contentType p.version p.fragment.length) p.fragment =
            .ok (c, t) ∧
        c.length = p.fragment.length ∧
        (protectAesGcm cng w p s capacity).Writes s
          (recordHeader p.contentType p.version
            (tlsAesGcmExplicitNonceLength + p.fragment.length + tlsAesGcmTagLength) ++
            (writeSequenceNumber s.sequenceNumber ++ c ++ t)) := by
  rw [protectAesGcm]
  by_cases hvalid : validPlaintextRecord p = true
  case neg => rw [if_pos hvalid]; exact .inl ⟨rfl, rfl, rfl⟩
  rw [if_neg (not_not.2 hvalid)]
  by_cases hkeys : s.key.length = 0 ∨ s.key.length > 32 ∨ s.fixedIv.length ≠ tlsAesGcmFixedIvLength
  case pos => rw [if_pos hkeys]; exact .inl ⟨rfl, rfl, rfl⟩
  rw [if_neg hkeys]
  by_cases hmax : s.sequenceNumber = tlsMaxRecordSequenceNumber
  case pos => rw [if_pos hmax]; exact .inl ⟨rfl, rfl, rfl⟩
  rw [if_neg hmax]
  extract_lets encryptedFragmentLength required explicitNonce
  split
  · exact .inl ⟨rfl, rfl, rfl⟩
  split
  case h_1 failure _ => exact .inl ⟨failure.property, rfl, rfl⟩
  case h_2 c t hok =>
    split
    · exact .inl ⟨rfl, rfl, rfl⟩
    case isFalse hlen =>
      exact .inr ⟨c, t, hvalid, hkeys, (unlessFailed_eq_ok.1 hok).2, not_not.1 hlen,
        finishProtect_writes hmax _⟩

/-- The octets of CBC padding behind a plaintext of `n` octets, the length octet not counted. -/
def cbcPaddingLength (n : ℕ) : ℕ := tlsAesCbcBlockLength - (n + 1) % tlsAesCbcBlockLength

def cbcPadded (fragment : Bytes) : Bytes :=
  fragment ++ List.replicate (cbcPaddingLength fragment.length + 1)
    (UInt8.ofNat (cbcPaddingLength fragment.length))

theorem protectAesCbc_cases (cng : Cng) (w : CngAnswers) (p : TlsPlaintextRecord)
    (s : TlsAeadCipherState) (capacity : ℕ) :
    (protectAesCbcEncryptThenMac cng w p s capacity).Fails s ∨
      ∃ c mac, validPlaintextRecord p = true ∧
        ¬ (¬ s.encryptThenMac = true ∨ s.key.length = 0 ∨ s.macKey.length = 0 ∨
          s.macKey.length ≠ hashDigestLength s.macAlgorithm) ∧
        p.fragment.length + cbcPaddingLength p.fragment.length + 1 ≤
          tlsMaxPlaintextLength + tlsAesCbcBlockLength ∧
        cng.aesCbcEncrypt s.key w.iv (cbcPadded p.fragment) = .ok c ∧
        c.length = p.fragment.length + cbcPaddingLength p.fragment.length + 1 ∧
        cng.hmac s.macAlgorithm s.macKey
          (buildAad s.sequenceNumber p.contentType p.version (tlsAesCbcBlockLength + c.length) ++
            (w.iv ++ c)) = .ok mac ∧
        mac.length = s.macKey.length ∧
        (protectAesCbcEncryptThenMac cng w p s capacity).Writes s
          (recordHeader p.contentType p.version
            (tlsAesCbcBlockLength + c.length + s.macKey.length) ++ (w.iv ++ c ++ mac)) := by
  rw [protectAesCbcEncryptThenMac]
  by_cases hvalid : validPlaintextRecord p = true
  case neg => rw [if_pos hvalid]; exact .inl ⟨rfl, rfl, rfl⟩
  rw [if_neg (not_not.2 hvalid)]
  by_cases hkeys : ¬ s.encryptThenMac = true ∨ s.key.length = 0 ∨ s.macKey.length = 0 ∨
      s.macKey.length ≠ hashDigestLength s.macAlgorithm
  case pos => rw [if_pos hkeys]; exact .inl ⟨rfl, rfl, rfl⟩
  rw [if_neg hkeys]
  by_cases hmax : s.sequenceNumber = tlsMaxRecordSequenceNumber
  case pos => rw [if_pos hmax]; exact .inl ⟨rfl, rfl, rfl⟩
  rw [if_neg hmax]
  extract_lets paddingLength paddedLength encryptedPartLength recordFragmentLength required padded
  split
  · exact .inl ⟨rfl, rfl, rfl⟩
  case isFalse hroom =>
    split
    · exact .inl ⟨rfl, rfl, rfl⟩
    split
    case isTrue hrandom => exact .inl ⟨by simpa using hrandom, rfl, rfl⟩
    split
    case h_1 failure _ => exact .inl ⟨failure.property, rfl, rfl⟩
    case h_2 c hok =>
      split
      · exact .inl ⟨rfl, rfl, rfl⟩
      case isFalse hlen =>
        have hlen : c.length = paddedLength := not_not.1 hlen
        split
        case h_1 failure _ => exact .inl ⟨failure.property, rfl, rfl⟩
        case h_2 mac hmac =>
          split
          · exact .inl ⟨rfl, rfl, rfl⟩
          case isFalse hmacLen =>
            refine .inr ⟨c, mac, hvalid, hkeys, not_lt.1 fun h => hroom (.inl h),
              (unlessFailed_eq_ok.1 hok).2, hlen, ?_, not_not.1 hmacLen, ?_⟩
            · rw [hlen]
              exact (unlessFailed_eq_ok.1 hmac).2
            · rw [hlen]
              exact finishProtect_writes hmax _

def innerPlaintext (p : TlsPlaintextRecord) : Bytes :=
  p.fragment ++ [p.contentType.octet] ++ List.replicate p.tls13PaddingLength 0

theorem innerPlaintext_length (p : TlsPlaintextRecord) :
    (innerPlaintext p).length = p.fragment.length + 1 + p.tls13PaddingLength := by
  simp only [innerPlaintext, List.length_append, List.length_replicate, List.length_singleton]

theorem protectAesGcm13_cases (cng : Cng) (w : CngAnswers) (p : TlsPlaintextRecord)
    (s : TlsAeadCipherState) (scratch capacity : ℕ) :
    (protectAesGcm13 cng w p s scratch capacity).Fails s ∨
      ∃ c t, validPlaintextRecord p = true ∧
        ¬ (s.key.length = 0 ∨ s.key.length > 32 ∨ s.fixedIv.length ≠ tlsAesGcmTls13IvLength) ∧
        p.tls13PaddingLength ≤ tlsMaxPlaintextLength - p.fragment.length ∧
        cng.aeadEncrypt s.algorithm s.key (buildTls13Nonce s)
          (buildTls13Aad ((innerPlaintext p).length + tlsAesGcmTagLength)) (innerPlaintext p) =
            .ok (c, t) ∧
        c.length = (innerPlaintext p).length ∧
        (protectAesGcm13 cng w p s scratch capacity).Writes s
          (buildTls13Aad ((innerPlaintext p).length + tlsAesGcmTagLength) ++ (c ++ t)) := by
  rw [protectAesGcm13]
  by_cases hvalid : validPlaintextRecord p = true
  case neg => rw [if_pos hvalid]; exact .inl ⟨rfl, rfl, rfl⟩
  rw [if_neg (not_not.2 hvalid)]
  split
  · exact .inl ⟨rfl, rfl, rfl⟩
  case isFalse hkeys =>
    by_cases hmax : s.sequenceNumber = tlsMaxRecordSequenceNumber
    case pos => rw [if_pos hmax]; exact .inl ⟨rfl, rfl, rfl⟩
    rw [if_neg hmax]
    extract_lets innerPlaintextLength encryptedFragmentLength required inner
    have hinner : innerPlaintextLength = (innerPlaintext p).length :=
      (innerPlaintext_length p).symm
    split
    · exact .inl ⟨rfl, rfl, rfl⟩
    split
    · exact .inl ⟨rfl, rfl, rfl⟩
    split
    · exact .inl ⟨rfl, rfl, rfl⟩
    split
    case h_1 failure _ => exact .inl ⟨failure.property, rfl, rfl⟩
    case h_2 c t hok =>
      split
      · exact .inl ⟨rfl, rfl, rfl⟩
      case isFalse hlen =>
        push Not at hkeys
        rw [← hinner]
        refine .inr ⟨c, t, hvalid, ?_, hkeys.2.2.2.2, (unlessFailed_eq_ok.1 hok).2,
          not_not.1 hlen, finishProtect_writes hmax _⟩
        rintro (h | h | h)
        · exact hkeys.1 h
        · exact absurd hkeys.2.1 (not_le.2 h)
        · exact h hkeys.2.2.1

/-! ## What a successful `Unprotect` has done -/

theorem unprotectAesGcm_cases (cng : Cng) (w : CngAnswers) (e : TlsRecordView)
    (s : TlsAeadCipherState) (capacity : ℕ) :
    (unprotectAesGcm cng w e s capacity).Fails s ∨
      ∃ plaintext, cng.aeadDecrypt s.algorithm s.key
          (buildAesGcmNonce s (e.fragment.take tlsAesGcmExplicitNonceLength))
          (buildAad s.sequenceNumber e.contentType e.version
            (e.fragment.length - tlsAesGcmExplicitNonceLength - tlsAesGcmTagLength))
          ((e.fragment.drop tlsAesGcmExplicitNonceLength).take
            (e.fragment.length - tlsAesGcmExplicitNonceLength - tlsAesGcmTagLength))
          (e.fragment.drop (e.fragment.length - tlsAesGcmTagLength)) = .ok plaintext ∧
        (unprotectAesGcm cng w e s capacity).Opens s ⟨e.contentType, e.version, plaintext⟩ := by
  rw [unprotectAesGcm]
  split
  · exact .inl ⟨rfl, rfl, rfl⟩
  extract_lets plaintextLength explicitNonce ciphertext tag
  split
  · exact .inl ⟨rfl, rfl, rfl⟩
  split
  · exact .inl ⟨rfl, rfl, rfl⟩
  case isFalse hmax =>
    split
    case h_1 failure _ => exact .inl ⟨failure.property, rfl, rfl⟩
    case h_2 plaintext hok =>
      split
      · exact .inl ⟨rfl, rfl, rfl⟩
      · exact .inr ⟨plaintext, (unlessFailed_eq_ok.1 hok).2, finishUnprotect_opens hmax _⟩

theorem unprotectAesCbc_cases (cng : Cng) (w : CngAnswers) (e : TlsRecordView)
    (s : TlsAeadCipherState) (capacity : ℕ) :
    (unprotectAesCbcEncryptThenMac cng w e s capacity).Fails s ∨
      ∃ decrypted plaintext, cng.aesCbcDecrypt s.key (e.fragment.take tlsAesCbcBlockLength)
          ((e.fragment.drop tlsAesCbcBlockLength).take
            (e.fragment.length - s.macKey.length - tlsAesCbcBlockLength)) = .ok decrypted ∧
        removeCbcPadding decrypted = some plaintext ∧
        (unprotectAesCbcEncryptThenMac cng w e s capacity).Opens s
          ⟨e.contentType, e.version, plaintext⟩ := by
  rw [unprotectAesCbcEncryptThenMac]
  split
  · exact .inl ⟨rfl, rfl, rfl⟩
  split
  · exact .inl ⟨rfl, rfl, rfl⟩
  extract_lets encryptedPartLength ciphertextLength explicitIv ciphertext
  split
  · exact .inl ⟨rfl, rfl, rfl⟩
  split
  · exact .inl ⟨rfl, rfl, rfl⟩
  case isFalse hmax =>
    split
    · exact .inl ⟨rfl, rfl, rfl⟩
    split
    case h_1 failure _ => exact .inl ⟨failure.property, rfl, rfl⟩
    split
    · exact .inl ⟨rfl, rfl, rfl⟩
    split
    · exact .inl ⟨rfl, rfl, rfl⟩
    split
    case h_1 failure _ => exact .inl ⟨failure.property, rfl, rfl⟩
    case h_2 decrypted hok =>
      split
      · exact .inl ⟨rfl, rfl, rfl⟩
      split
      · exact .inl ⟨rfl, rfl, rfl⟩
      case h_2 plaintext hpadding =>
        exact .inr ⟨decrypted, plaintext, (unlessFailed_eq_ok.1 hok).2, hpadding,
          finishUnprotect_opens hmax _⟩

theorem unprotectAesGcm13_cases (cng : Cng) (w : CngAnswers) (e : TlsRecordView)
    (s : TlsAeadCipherState) (capacity : ℕ) :
    (unprotectAesGcm13 cng w e s capacity).Fails s ∨
      ∃ inner innerType fragment contentType,
        cng.aeadDecrypt s.algorithm s.key (buildTls13Nonce s) (buildTls13Aad e.fragment.length)
          (e.fragment.take (e.fragment.length - tlsAesGcmTagLength))
          (e.fragment.drop (e.fragment.length - tlsAesGcmTagLength)) = .ok inner ∧
        removeTls13Padding inner = some (innerType, fragment) ∧
        validContentType innerType = some contentType ∧
        (unprotectAesGcm13 cng w e s capacity).Opens s ⟨contentType, e.version, fragment⟩ := by
  rw [unprotectAesGcm13]
  split
  · exact .inl ⟨rfl, rfl, rfl⟩
  extract_lets innerPlaintextLength
  split
  · exact .inl ⟨rfl, rfl, rfl⟩
  split
  · exact .inl ⟨rfl, rfl, rfl⟩
  case isFalse hmax =>
    split
    case h_1 failure _ => exact .inl ⟨failure.property, rfl, rfl⟩
    case h_2 inner hok =>
      split
      · exact .inl ⟨rfl, rfl, rfl⟩
      split
      · exact .inl ⟨rfl, rfl, rfl⟩
      case h_2 innerType fragment hpadding =>
        split
        · exact .inl ⟨rfl, rfl, rfl⟩
        case h_2 contentType htype =>
          exact .inr ⟨inner, innerType, fragment, contentType, (unlessFailed_eq_ok.1 hok).2,
            hpadding, htype, finishUnprotect_opens hmax _⟩

theorem Protection.protect_outcome (cng : Cng) (call : ProtectCall) (s : TlsAeadCipherState)
    (π : Protection) :
    (π.protect cng call s).Fails s ∨ ∃ record, (π.protect cng call s).Writes s record := by
  cases π with
  | aesGcm =>
    exact (protectAesGcm_cases cng call.answers call.plaintext s call.destinationCapacity).imp_right
      fun ⟨_, _, _, _, _, _, h⟩ => ⟨_, h⟩
  | aesCbcEncryptThenMac =>
    exact (protectAesCbc_cases cng call.answers call.plaintext s
      call.destinationCapacity).imp_right fun ⟨_, _, _, _, _, _, _, _, _, h⟩ => ⟨_, h⟩
  | aesGcm13 =>
    exact (protectAesGcm13_cases cng call.answers call.plaintext s call.scratchCapacity
      call.destinationCapacity).imp_right fun ⟨_, _, _, _, _, _, _, h⟩ => ⟨_, h⟩

theorem Protection.unprotect_cases (cng : Cng) (w : CngAnswers) (e : TlsRecordView)
    (s : TlsAeadCipherState) (capacity : ℕ) (π : Protection) :
    (π.unprotect cng w e s capacity).Fails s ∨
      ∃ output, (π.unprotect cng w e s capacity).Opens s output := by
  cases π with
  | aesGcm => exact (unprotectAesGcm_cases cng w e s capacity).imp_right fun ⟨_, _, h⟩ => ⟨_, h⟩
  | aesCbcEncryptThenMac =>
    exact (unprotectAesCbc_cases cng w e s capacity).imp_right fun ⟨_, _, _, _, h⟩ => ⟨_, h⟩
  | aesGcm13 =>
    exact (unprotectAesGcm13_cases cng w e s capacity).imp_right
      fun ⟨_, _, _, _, _, _, _, h⟩ => ⟨_, h⟩

/-! ## Padding -/

theorem cbcPaddingLength_bounds (n : ℕ) : 1 ≤ cbcPaddingLength n ∧ cbcPaddingLength n ≤ 16 ∧
    (n + cbcPaddingLength n + 1) % tlsAesCbcBlockLength = 0 := by
  simp only [cbcPaddingLength, tlsAesCbcBlockLength]
  omega

theorem cbcPadded_length (fragment : Bytes) : (cbcPadded fragment).length =
    fragment.length + cbcPaddingLength fragment.length + 1 := by
  rw [cbcPadded, List.length_append, List.length_replicate, Nat.add_assoc]

theorem removeCbcPadding_cbcPadded (fragment : Bytes) :
    removeCbcPadding (cbcPadded fragment) = some fragment := by
  obtain ⟨-, hle, -⟩ := cbcPaddingLength_bounds fragment.length
  have hlen := cbcPadded_length fragment
  have hlast : (cbcPadded fragment).getLast? =
      some (UInt8.ofNat (cbcPaddingLength fragment.length)) := by
    rw [cbcPadded, List.getLast?_append, List.getLast?_replicate, if_neg (Nat.succ_ne_zero _),
      Option.some_or]
  have hvalue : (UInt8.ofNat (cbcPaddingLength fragment.length)).toNat =
      cbcPaddingLength fragment.length := by
    rw [UInt8.toNat_ofNat', Nat.mod_eq_of_lt (by omega)]
  have hcut : (cbcPadded fragment).length - (cbcPaddingLength fragment.length + 1) =
      fragment.length := by
    omega
  rw [removeCbcPadding, hlast]
  simp only [hvalue, hcut]
  rw [if_neg (by omega), cbcPadded, List.drop_left, List.take_left, if_pos]
  simp

theorem removeTls13Padding_innerPlaintext (p : TlsPlaintextRecord) :
    removeTls13Padding (innerPlaintext p) = some (p.contentType.octet, p.fragment) := by
  have hstrip : ∀ n, (p.fragment ++ [p.contentType.octet] ++ List.replicate n 0).rdropWhile
      (· == 0) = p.fragment ++ [p.contentType.octet] := by
    intro n
    induction n with
    | zero =>
      rw [List.replicate_zero, List.append_nil, List.rdropWhile_concat, if_neg]
      simpa using octet_ne_zero p.contentType
    | succ n ih =>
      rw [List.replicate_succ', ← List.append_assoc, List.rdropWhile_concat,
        if_pos (beq_self_eq_true 0), ih]
  simp only [removeTls13Padding, innerPlaintext, hstrip, List.getLast?_concat, Option.map_some,
    List.dropLast_concat]

/-! ## Each protection opens what it has written -/

/-- `Unprotect` makes of a record what `Protect` was given, if it succeeds, and it succeeds
where there is room and the platform refuses nothing. -/
structure Carries (cng : Cng) (π : Protection) (s : TlsAeadCipherState) (e : TlsRecordView)
    (p : TlsPlaintextRecord) : Prop where
  content : ∀ w capacity output, (π.unprotect cng w e s capacity).Opens s output →
    output.contentType = p.contentType ∧ output.fragment = p.fragment
  opens : ∀ w capacity, e.fragment.length ≤ capacity → w.Allow →
    ∃ output, (π.unprotect cng w e s capacity).Opens s output

@[simp] theorem UnprotectResult.Fails.not_opens {r : UnprotectResult}
    (h : r.Fails s) : ¬ r.Opens s output := by
  intro ho
  exact Bool.false_ne_true (h.status.symm.trans ho.status)

theorem writeSequenceNumber_length (n : UInt64) :
    (writeSequenceNumber n).length = tlsAesGcmExplicitNonceLength := bigEndian_length 8 _

theorem carries_aesGcm (hcng : cng.Inverts)
    (hkeys : ¬ (s.key.length = 0 ∨ s.key.length > 32 ∨ s.fixedIv.length ≠ tlsAesGcmFixedIvLength))
    (hmax : s.sequenceNumber ≠ tlsMaxRecordSequenceNumber)
    (henc : cng.aeadEncrypt s.algorithm s.key
      (buildAesGcmNonce s (writeSequenceNumber s.sequenceNumber))
      (buildAad s.sequenceNumber p.contentType p.version p.fragment.length) p.fragment =
        .ok (c, t))
    (hc : c.length = p.fragment.length) (n : ℕ) :
    Carries cng .aesGcm s
      ⟨p.contentType, p.version, writeSequenceNumber s.sequenceNumber ++ c ++ t, n⟩ p := by
  have hseq := writeSequenceNumber_length s.sequenceNumber
  have ht : t.length = tlsAesGcmTagLength := hcng.tag_length henc
  have hlen : (writeSequenceNumber s.sequenceNumber ++ c ++ t).length =
      tlsAesGcmExplicitNonceLength + p.fragment.length + tlsAesGcmTagLength := by
    rw [List.length_append, List.length_append, hseq, hc, ht]
  have hplain : (writeSequenceNumber s.sequenceNumber ++ c ++ t).length -
      tlsAesGcmExplicitNonceLength - tlsAesGcmTagLength = p.fragment.length := by omega
  have hnonce : (writeSequenceNumber s.sequenceNumber ++ c ++ t).take
      tlsAesGcmExplicitNonceLength = writeSequenceNumber s.sequenceNumber := by
    rw [List.append_assoc, List.take_left' hseq]
  have hcipher : ((writeSequenceNumber s.sequenceNumber ++ c ++ t).drop
      tlsAesGcmExplicitNonceLength).take p.fragment.length = c := by
    rw [List.append_assoc, List.drop_left' hseq, List.take_left' hc]
  have htag : (writeSequenceNumber s.sequenceNumber ++ c ++ t).drop
      ((writeSequenceNumber s.sequenceNumber ++ c ++ t).length - tlsAesGcmTagLength) = t := by
    apply List.drop_left'
    rw [hlen, List.length_append, hseq, hc]
    rfl
  have hdec := hcng.aead henc
  constructor
  · intro w capacity output hopen
    rcases unprotectAesGcm_cases cng w ⟨p.contentType, p.version,
      writeSequenceNumber s.sequenceNumber ++ c ++ t, n⟩ s capacity with hf | ⟨plain, hok, ho⟩
    · exact absurd hopen hf.not_opens
    · simp only [hplain, hnonce, hcipher, htag, hdec, Except.ok.injEq] at hok
      rw [← hopen.output, Protection.unprotect, ho.output, hok]
      exact ⟨rfl, rfl⟩
  · intro w capacity hroom hallow
    refine ⟨⟨p.contentType, p.version, p.fragment⟩, ?_⟩
    rw [Protection.unprotect, unprotectAesGcm]
    simp only [hplain, hnonce, hcipher, htag, unlessFailed_success hallow.cipher, hdec]
    rw [if_neg, if_neg (by simp only at hroom; omega), if_neg hmax, if_neg (not_not.2 rfl)]
    · exact finishUnprotect_opens hmax _
    · rintro (h | h)
      · omega
      · exact hkeys h

theorem carries_aesCbc (hcng : cng.Inverts) {mac : Bytes} (hvalid : validPlaintextRecord p = true)
    (hkeys : ¬ (¬ s.encryptThenMac = true ∨ s.key.length = 0 ∨ s.macKey.length = 0 ∨
      s.macKey.length ≠ hashDigestLength s.macAlgorithm))
    (hmax : s.sequenceNumber ≠ tlsMaxRecordSequenceNumber)
    (henc : cng.aesCbcEncrypt s.key w.iv (cbcPadded p.fragment) = .ok c)
    (hc : c.length = p.fragment.length + cbcPaddingLength p.fragment.length + 1)
    (hhmac : cng.hmac s.macAlgorithm s.macKey
      (buildAad s.sequenceNumber p.contentType p.version (tlsAesCbcBlockLength + c.length) ++
        (w.iv ++ c)) = .ok mac)
    (hmac : mac.length = s.macKey.length) (n : ℕ) :
    Carries cng .aesCbcEncryptThenMac s ⟨p.contentType, p.version, w.iv ++ c ++ mac, n⟩ p := by
  have hiv : w.iv.length = tlsAesCbcBlockLength := w.iv_length
  have hlen : (w.iv ++ c ++ mac).length =
      tlsAesCbcBlockLength + c.length + s.macKey.length := by
    rw [List.length_append, List.length_append, hiv, hmac]
  have hpart : (w.iv ++ c ++ mac).length - s.macKey.length = tlsAesCbcBlockLength + c.length := by
    omega
  have hexplicit : (w.iv ++ c ++ mac).take tlsAesCbcBlockLength = w.iv := by
    rw [List.append_assoc, List.take_left' hiv]
  have hcipher : ((w.iv ++ c ++ mac).drop tlsAesCbcBlockLength).take c.length = c := by
    rw [List.append_assoc, List.drop_left' hiv, List.take_left]
  have hcovered : (w.iv ++ c ++ mac).take (tlsAesCbcBlockLength + c.length) = w.iv ++ c := by
    rw [List.take_left' (by rw [List.length_append, hiv])]
  have hmacPart : (w.iv ++ c ++ mac).drop (tlsAesCbcBlockLength + c.length) = mac := by
    rw [List.drop_left' (by rw [List.length_append, hiv])]
  have hdec := hcng.aesCbc henc
  have hpadding := removeCbcPadding_cbcPadded p.fragment
  constructor
  · intro w' capacity output hopen
    rcases unprotectAesCbc_cases cng w' ⟨p.contentType, p.version, w.iv ++ c ++ mac, n⟩ s
      capacity with hf | ⟨decrypted, plain, hok, hpad, ho⟩
    · exact absurd hopen hf.not_opens
    · simp only [hpart, Nat.add_sub_cancel_left, hexplicit, hcipher, hdec, Except.ok.injEq] at hok
      rw [← hok, hpadding, Option.some.injEq] at hpad
      rw [← hopen.output, Protection.unprotect, ho.output, hpad]
      exact ⟨rfl, rfl⟩
  · intro w' capacity hroom hallow
    refine ⟨⟨p.contentType, p.version, p.fragment⟩, ?_⟩
    obtain ⟨-, hpaddingLength, hblocks⟩ := cbcPaddingLength_bounds p.fragment.length
    have hfragment : p.fragment.length ≤ tlsMaxPlaintextLength := by
      simp only [validPlaintextRecord, Bool.and_eq_true, decide_eq_true_eq] at hvalid
      exact hvalid.2
    have hdigest : s.macKey.length ≤ 64 := by
      push Not at hkeys
      rw [hkeys.2.2.2]
      cases s.macAlgorithm <;> decide
    rw [Protection.unprotect, unprotectAesCbcEncryptThenMac, if_neg hkeys]
    simp only [hpart, Nat.add_sub_cancel_left, hexplicit, hcipher, hcovered, hmacPart,
      unlessFailed_success hallow.hmac, unlessFailed_success hallow.cipher, hhmac, hdec, hpadding]
    have hlengths : ¬ ((w.iv ++ c ++ mac).length ≤ tlsAesCbcBlockLength + s.macKey.length ∨
        capacity < (w.iv ++ c ++ mac).length ∨
        (w.iv ++ c ++ mac).length > tlsMaxPlaintextLength + 2048) := by
      simp only [tlsMaxPlaintextLength, tlsAesCbcBlockLength] at hfragment hlen hroom ⊢
      omega
    have hcblocks : ¬ (c.length = 0 ∨ c.length % tlsAesCbcBlockLength ≠ 0) := by
      rw [hc]
      omega
    have hdecrypted : ¬ ((cbcPadded p.fragment).length = 0 ∨
        (cbcPadded p.fragment).length ≠ c.length) := by
      rw [cbcPadded_length]
      omega
    rw [if_neg hlengths, if_neg hcblocks, if_neg hmax, if_neg (not_not.2 hallow.memory),
      if_neg (not_not.2 hmac), if_neg (not_not.2 rfl), if_neg hdecrypted]
    exact finishUnprotect_opens hmax _

theorem carries_aesGcm13 (hcng : cng.Inverts)
    (hkeys : ¬ (s.key.length = 0 ∨ s.key.length > 32 ∨ s.fixedIv.length ≠ tlsAesGcmTls13IvLength))
    (hmax : s.sequenceNumber ≠ tlsMaxRecordSequenceNumber)
    (henc : cng.aeadEncrypt s.algorithm s.key (buildTls13Nonce s)
      (buildTls13Aad ((innerPlaintext p).length + tlsAesGcmTagLength)) (innerPlaintext p) =
        .ok (c, t))
    (hc : c.length = (innerPlaintext p).length) (n : ℕ) :
    Carries cng .aesGcm13 s ⟨.applicationData, ⟨3, 3⟩, c ++ t, n⟩ p := by
  have ht : t.length = tlsAesGcmTagLength := hcng.tag_length henc
  have hlen : (c ++ t).length = (innerPlaintext p).length + tlsAesGcmTagLength := by
    rw [List.length_append, hc, ht]
  have hinner : (c ++ t).length - tlsAesGcmTagLength = (innerPlaintext p).length := by omega
  have hcipher : (c ++ t).take (innerPlaintext p).length = c := List.take_left' hc
  have htag : (c ++ t).drop (innerPlaintext p).length = t := List.drop_left' hc
  have hdec := hcng.aead henc
  rw [← hlen] at hdec
  have hpadding := removeTls13Padding_innerPlaintext p
  have htype := validContentType_octet p.contentType
  constructor
  · intro w capacity output hopen
    rcases unprotectAesGcm13_cases cng w ⟨.applicationData, ⟨3, 3⟩, c ++ t, n⟩ s capacity with
      hf | ⟨inner, innerType, fragment, contentType, hok, hpad, hvalid, ho⟩
    · exact absurd hopen hf.not_opens
    · simp only [hinner, hcipher, htag, hdec, Except.ok.injEq] at hok
      rw [← hok, hpadding, Option.some.injEq, Prod.mk.injEq] at hpad
      rw [← hpad.1, htype, Option.some.injEq] at hvalid
      rw [← hopen.output, Protection.unprotect, ho.output, ← hvalid, hpad.2]
      exact ⟨rfl, rfl⟩
  · intro w capacity hroom hallow
    refine ⟨⟨p.contentType, ⟨3, 3⟩, p.fragment⟩, ?_⟩
    have hpos := innerPlaintext_length p
    rw [Protection.unprotect, unprotectAesGcm13]
    simp only [hinner, hcipher, htag, unlessFailed_success hallow.cipher, hdec, hpadding, htype]
    rw [if_neg, if_neg (by simp only at hroom; omega), if_neg hmax, if_neg (by omega)]
    · exact finishUnprotect_opens hmax _
    · rintro (h | h | h)
      · exact h rfl
      · omega
      · exact hkeys h

/-! ## Every protection -/

/-- What `Protect` writes: a record that `Unprotect` opens. -/
structure Protects (cng : Cng) (π : Protection) (call : ProtectCall) (s : TlsAeadCipherState)
    (e : TlsRecordView) : Prop where
  version : isSupportedVersion e.version = true
  length_le : e.fragment.length ≤ tlsMaxPlaintextLength + 2048
  carries : Carries cng π s e call.plaintext
  explicitIv : π = .aesCbcEncryptThenMac → e.fragment.take tlsAesCbcBlockLength = call.answers.iv
  fixedIv : π = .aesGcm13 → s.fixedIv.length = tlsAesGcmTls13IvLength

def TlsRecordView.wire (e : TlsRecordView) : Bytes :=
  wireRecord e.contentType e.version e.fragment

def wireView (contentType : TlsContentType) (version : TlsProtocolVersion) (fragment : Bytes) :
    TlsRecordView :=
  ⟨contentType, version, fragment, (wireRecord contentType version fragment).length⟩

theorem validPlaintextRecord_iff : validPlaintextRecord p = true ↔
    isSupportedVersion p.version = true ∧ p.fragment.length ≤ tlsMaxPlaintextLength := by
  simp only [validPlaintextRecord, Bool.and_eq_true, decide_eq_true_eq]

theorem Protection.protect_cases (hcng : cng.Inverts) (call : ProtectCall)
    (s : TlsAeadCipherState) (π : Protection) :
    (π.protect cng call s).Fails s ∨
      ∃ e, (π.protect cng call s).Writes s e.wire ∧ e.bytesConsumed = e.wire.length ∧
        Protects cng π call s e := by
  cases π with
  | aesGcm =>
    rcases protectAesGcm_cases cng call.answers call.plaintext s call.destinationCapacity with
      hf | ⟨c, t, hvalid, hkeys, henc, hc, hw⟩
    · exact .inl hf
    · obtain ⟨hversion, hfragment⟩ := validPlaintextRecord_iff.1 hvalid
      have hlen : (writeSequenceNumber s.sequenceNumber ++ c ++ t).length =
          tlsAesGcmExplicitNonceLength + call.plaintext.fragment.length + tlsAesGcmTagLength := by
        rw [List.length_append, List.length_append, writeSequenceNumber_length, hc,
          hcng.tag_length henc]
      refine .inr ⟨wireView call.plaintext.contentType call.plaintext.version _, ?_, rfl, hversion,
        ?_, carries_aesGcm hcng hkeys hw.below henc hc _, nofun, nofun⟩
      · rw [← hlen] at hw
        exact hw
      · show (_ ++ c ++ t).length ≤ _
        rw [hlen]
        simp only [tlsAesGcmExplicitNonceLength, tlsAesGcmTagLength]
        omega
  | aesCbcEncryptThenMac =>
    rcases protectAesCbc_cases cng call.answers call.plaintext s call.destinationCapacity with
      hf | ⟨c, mac, hvalid, hkeys, hpadded, henc, hc, hhmac, hmac, hw⟩
    · exact .inl hf
    · obtain ⟨hversion, hfragment⟩ := validPlaintextRecord_iff.1 hvalid
      have hdigest : s.macKey.length ≤ 64 := by
        push Not at hkeys
        rw [hkeys.2.2.2]
        cases s.macAlgorithm <;> decide
      have hlen : (call.answers.iv ++ c ++ mac).length =
          tlsAesCbcBlockLength + c.length + s.macKey.length := by
        rw [List.length_append, List.length_append, call.answers.iv_length, hmac]
        rfl
      refine .inr ⟨wireView call.plaintext.contentType call.plaintext.version _, ?_, rfl, hversion,
        ?_, carries_aesCbc hcng hvalid hkeys hw.below henc hc hhmac hmac _, fun _ => ?_, nofun⟩
      · rw [← hlen] at hw
        exact hw
      · show (call.answers.iv ++ c ++ mac).length ≤ _
        rw [hlen, hc]
        simp only [tlsMaxPlaintextLength, tlsAesCbcBlockLength] at hpadded ⊢
        omega
      · show (call.answers.iv ++ c ++ mac).take _ = _
        rw [List.append_assoc]
        exact List.take_left' call.answers.iv_length
  | aesGcm13 =>
    rcases protectAesGcm13_cases cng call.answers call.plaintext s call.scratchCapacity
      call.destinationCapacity with hf | ⟨c, t, hvalid, hkeys, hpadding, henc, hc, hw⟩
    · exact .inl hf
    · obtain ⟨-, hfragment⟩ := validPlaintextRecord_iff.1 hvalid
      have hlen : (c ++ t).length = (innerPlaintext call.plaintext).length + tlsAesGcmTagLength := by
        rw [List.length_append, hc, hcng.tag_length henc]
      refine .inr ⟨wireView .applicationData ⟨3, 3⟩ (c ++ t), ?_, rfl, rfl,
        ?_, carries_aesGcm13 hcng hkeys hw.below henc hc _, nofun, fun _ => ?_⟩
      · rw [← hlen] at hw
        exact hw
      · show (c ++ t).length ≤ _
        rw [hlen, innerPlaintext_length]
        simp only [tlsMaxPlaintextLength, tlsAesGcmTagLength] at hpadding hfragment ⊢
        omega
      · push Not at hkeys
        exact hkeys.2.2

/-! ## The writer's runs -/

/-- A state that is `n` records further. -/
structure TlsAeadCipherState.Advances (s : TlsAeadCipherState) (n : ℕ) (s' : TlsAeadCipherState) :
    Prop where
  keys : s' = { s with sequenceNumber := s'.sequenceNumber }
  sequenceNumber : s'.sequenceNumber.toNat = s.sequenceNumber.toNat + n

theorem TlsAeadCipherState.Advances.refl (s : TlsAeadCipherState) : s.Advances 0 s := ⟨rfl, rfl⟩

theorem TlsAeadCipherState.Advances.next
    (h : s.Advances n s') (hmax : s'.sequenceNumber ≠ tlsMaxRecordSequenceNumber) :
    s.Advances (n + 1) s'.next := by
  refine ⟨?_, ?_⟩
  · rw [TlsAeadCipherState.next, h.keys]
  · rw [TlsAeadCipherState.next, toNat_succ_of_ne hmax, h.sequenceNumber, Nat.add_assoc]

theorem TlsAeadCipherState.Advances.unique {a b : TlsAeadCipherState}
    (ha : s.Advances n a) (hb : s.Advances n b) : a = b := by
  have hseq : a.sequenceNumber = b.sequenceNumber :=
    UInt64.toNat_inj.1 (by rw [ha.sequenceNumber, hb.sequenceNumber])
  rw [ha.keys, hb.keys, hseq]

/-- A record that was written: the call, the state that it was protected with, and its octets. -/
structure ProducedRecord where
  call : ProtectCall
  state : TlsAeadCipherState
  octets : Bytes

/-- `Protect` calls one after the other: the records of those that succeed, and the state. -/
def protectAll (cng : Cng) (π : Protection) (s : TlsAeadCipherState) :
    List ProtectCall → List ProducedRecord × TlsAeadCipherState
  | [] => ([], s)
  | call :: calls =>
    let result := π.protect cng call s
    let (records, s') := protectAll cng π result.state calls
    if ntSuccess result.status then (⟨call, s, result.destination⟩ :: records, s')
    else (records, s')

/-- The nonce of a record; with CBC, which has none, the sequence number under the MAC. -/
def Protection.nonce (s : TlsAeadCipherState) : Protection → Bytes
  | .aesGcm => buildAesGcmNonce s (writeSequenceNumber s.sequenceNumber)
  | .aesCbcEncryptThenMac => writeSequenceNumber s.sequenceNumber
  | .aesGcm13 => buildTls13Nonce s

/-- A record that a writer with the state `s₀` produced as the one with the number `n`. -/
structure ProducedRecord.Lawful (cng : Cng) (π : Protection) (s₀ : TlsAeadCipherState) (n : ℕ)
    (r : ProducedRecord) : Prop where
  advances : s₀.Advances n r.state
  protects : ∃ e : TlsRecordView, r.octets = e.wire ∧ e.bytesConsumed = e.wire.length ∧
    Protects cng π r.call r.state e

theorem protectAll_spec (hcng : cng.Inverts) (π : Protection)
    (s₀ : TlsAeadCipherState) (calls : List ProtectCall) :
    ∀ (n : ℕ) (s : TlsAeadCipherState), s₀.Advances n s →
      s₀.Advances (n + (protectAll cng π s calls).1.length) (protectAll cng π s calls).2 ∧
        ∀ i (r : ProducedRecord), (protectAll cng π s calls).1[i]? = some r →
          r.Lawful cng π s₀ (n + i) := by
  induction calls with
  | nil => exact fun n s h => ⟨h, fun i r hr => absurd hr (by simp [protectAll])⟩
  | cons call calls ih =>
    intro n s h
    rw [protectAll]
    rcases Protection.protect_cases hcng call s π with hf | ⟨e, hw, hconsumed, hprotects⟩
    · have hstatus : ¬ ntSuccess (π.protect cng call s).status = true := by
        simp only [hf.status, Bool.false_eq_true, not_false_eq_true]
      simp only [if_neg hstatus, hf.state]
      exact ih n s h
    · obtain ⟨hend, hrecords⟩ := ih (n + 1) s.next (h.next hw.below)
      simp only [if_pos hw.status, hw.state, hw.destination, List.length_cons]
      refine ⟨by rwa [Nat.add_right_comm n 1, Nat.add_assoc] at hend, ?_⟩
      intro i r hr
      cases i with
      | zero =>
        obtain rfl : ⟨call, s, e.wire⟩ = r := by simpa using hr
        exact ⟨h, e, rfl, hconsumed, hprotects⟩
      | succ i =>
        rw [List.getElem?_cons_succ] at hr
        have := hrecords i r hr
        rwa [Nat.add_right_comm n 1, Nat.add_assoc] at this

theorem buildTls13Nonce_inj (hiv : s.fixedIv = s'.fixedIv)
    (hlen : s.fixedIv.length = tlsAesGcmTls13IvLength)
    (h : buildTls13Nonce s = buildTls13Nonce s') :
    writeSequenceNumber s.sequenceNumber = writeSequenceNumber s'.sequenceNumber := by
  rw [buildTls13Nonce, buildTls13Nonce, ← hiv] at h
  have hxor := List.append_cancel_left h
  have hmask : (s.fixedIv.drop 4).length = tlsAesGcmExplicitNonceLength := by
    rw [List.length_drop, hlen]
    rfl
  have ha := writeSequenceNumber_length s.sequenceNumber
  have hb := writeSequenceNumber_length s'.sequenceNumber
  apply List.ext_getElem (ha.trans hb.symm)
  intro i h₁ h₂
  have hi := congrArg (·[i]?) hxor
  simpa [List.getElem?_zipWith, hmask, ha, hb, ha ▸ h₁] using hi

theorem writeSequenceNumber_inj {a b : UInt64}
    (h : writeSequenceNumber a = writeSequenceNumber b) : a = b :=
  UInt64.toNat_inj.1 (bigEndian_inj a.toNat_lt b.toNat_lt h)

theorem ProducedRecord.Lawful.nonce_ne
    {m : ℕ} {a b : ProducedRecord} (ha : a.Lawful cng π s₀ m) (hb : b.Lawful cng π s₀ n)
    (hne : m ≠ n) : π.nonce a.state ≠ π.nonce b.state := by
  have hiv : a.state.fixedIv = b.state.fixedIv := by rw [ha.advances.keys, hb.advances.keys]
  have hsequence : a.state.sequenceNumber ≠ b.state.sequenceNumber := by
    intro h
    have := ha.advances.sequenceNumber
    rw [h, hb.advances.sequenceNumber] at this
    omega
  intro h
  apply hsequence
  cases π with
  | aesGcm =>
    rw [Protection.nonce, Protection.nonce, buildAesGcmNonce, buildAesGcmNonce, hiv] at h
    exact writeSequenceNumber_inj (List.append_cancel_left h)
  | aesCbcEncryptThenMac => exact writeSequenceNumber_inj h
  | aesGcm13 =>
    obtain ⟨e, -, -, hprotects⟩ := ha.protects
    exact writeSequenceNumber_inj (buildTls13Nonce_inj hiv (hprotects.fixedIv rfl) h)

/-! ## The reader's runs -/

/-- A reader: what it has not consumed of its input, its state, and what it has obtained. -/
structure Reader where
  stream : Bytes
  state : TlsAeadCipherState
  outputs : List TlsMutablePlaintextRecord := []

/-- The reader cuts off a record and unprotects it; if that succeeds, the record is consumed. -/
def Reader.next (cng : Cng) (π : Protection) (w : CngAnswers) (capacity : ℕ) (r : Reader) :
    Reader :=
  match parseRecord r.stream with
  | .error _ => r
  | .ok e =>
    let result := π.unprotect cng w e r.state capacity
    if ntSuccess result.status then
      { stream := r.stream.drop e.bytesConsumed, state := result.state,
        outputs := r.outputs ++ [result.output] }
    else { r with state := result.state }

/-- The readers that a reader may become, with any failing `Unprotect` calls in between. -/
inductive Reads (cng : Cng) (π : Protection) (start : Reader) : Reader → Prop where
  | start : Reads cng π start start
  | next {r : Reader} (w : CngAnswers) (capacity : ℕ) : Reads cng π start r →
      Reads cng π start (r.next cng π w capacity)
  | failing {r : Reader} (w : CngAnswers) (e : TlsRecordView) (capacity : ℕ) :
      Reads cng π start r → ntSuccess (π.unprotect cng w e r.state capacity).status = false →
      Reads cng π start { r with state := (π.unprotect cng w e r.state capacity).state }

/-- The first `n` records that `TlsRecordLayer::Parse` cuts off, and what follows them. -/
def cutRecords : ℕ → Bytes → Except NTSTATUS (List Bytes × Bytes)
  | 0, data => .ok ([], data)
  | n + 1, data => do
    let e ← parseRecord data
    let (records, rest) ← cutRecords n (data.drop e.bytesConsumed)
    pure (data.take e.bytesConsumed :: records, rest)

def ProducedRecord.content (r : ProducedRecord) : TlsContentType × Bytes :=
  (r.call.plaintext.contentType, r.call.plaintext.fragment)

def TlsMutablePlaintextRecord.content (r : TlsMutablePlaintextRecord) : TlsContentType × Bytes :=
  (r.contentType, r.fragment)

/-- The records as they stand in the output. -/
def concatenated (records : List ProducedRecord) : Bytes := (records.map (·.octets)).flatten

@[simp] theorem concatenated_cons (r : ProducedRecord) (records : List ProducedRecord) :
    concatenated (r :: records) = r.octets ++ concatenated records := rfl

/-- A list of records that a writer with the state `s` has produced in this order. -/
def LawfulRecords (cng : Cng) (π : Protection) (s : TlsAeadCipherState)
    (records : List ProducedRecord) : Prop :=
  ∀ i (r : ProducedRecord), records[i]? = some r → r.Lawful cng π s i

theorem ProducedRecord.Lawful.parse {r : ProducedRecord} (h : r.Lawful cng π s₀ n) (rest : Bytes) :
    ∃ e, parseRecord (r.octets ++ rest) = .ok e ∧ e.bytesConsumed = r.octets.length ∧
      Protects cng π r.call r.state e := by
  obtain ⟨e, hoctets, hconsumed, hprotects⟩ := h.protects
  refine ⟨e, ?_, by rw [hconsumed, hoctets], hprotects⟩
  rw [hoctets, TlsRecordView.wire,
    parseRecord_wireRecord e.contentType hprotects.version hprotects.length_le]
  exact congrArg (fun n => Except.ok (TlsRecordView.mk e.contentType e.version e.fragment n))
    hconsumed.symm

variable {records : List ProducedRecord}

theorem cutRecords_concatenated (h : ∀ r ∈ records, ∃ n, r.Lawful cng π s n) (rest : Bytes) :
    cutRecords records.length (concatenated records ++ rest) =
      .ok (records.map (·.octets), rest) := by
  induction records with
  | nil => rfl
  | cons r records ih =>
    obtain ⟨n, hr⟩ := h r List.mem_cons_self
    obtain ⟨e, hparse, hconsumed, -⟩ := hr.parse (concatenated records ++ rest)
    rw [concatenated_cons, List.length_cons, cutRecords, List.append_assoc, hparse]
    show (do
      let (records', rest') ← cutRecords records.length
        ((r.octets ++ (concatenated records ++ rest)).drop e.bytesConsumed)
      pure ((r.octets ++ (concatenated records ++ rest)).take e.bytesConsumed :: records', rest')) =
        _
    rw [hconsumed, List.drop_left, List.take_left,
      ih fun r' hr' => h r' (List.mem_cons_of_mem _ hr')]
    rfl

/-- What holds of a reader of lawful records: it is as many records further as it has obtained,
and up to the last of them it has obtained what the records were made of. -/
structure InLockStep (s : TlsAeadCipherState) (records : List ProducedRecord) (rest : Bytes)
    (r : Reader) : Prop where
  advances : s.Advances r.outputs.length r.state
  stream : r.outputs.length ≤ records.length →
    r.stream = concatenated (records.drop r.outputs.length) ++ rest
  outputs : (r.outputs.map TlsMutablePlaintextRecord.content).take records.length =
    (records.map ProducedRecord.content).take r.outputs.length

variable {r : Reader}

/-- The next record of a reader in lock step. -/
theorem InLockStep.parse
    (hrecords : LawfulRecords cng π s records) (h : InLockStep s records rest r)
    (hlt : r.outputs.length < records.length) :
    ∃ e, parseRecord r.stream = .ok e ∧
      r.stream.drop e.bytesConsumed =
        concatenated (records.drop (r.outputs.length + 1)) ++ rest ∧
      Protects cng π records[r.outputs.length].call r.state e := by
  have hlawful := hrecords _ _ (List.getElem?_eq_getElem hlt)
  obtain ⟨e, hparse, hconsumed, hprotects⟩ :=
    hlawful.parse (concatenated (records.drop (r.outputs.length + 1)) ++ rest)
  have hstream : r.stream = records[r.outputs.length].octets ++
      (concatenated (records.drop (r.outputs.length + 1)) ++ rest) := by
    rw [h.stream hlt.le, List.drop_eq_getElem_cons hlt, concatenated_cons, List.append_assoc]
  refine ⟨e, by rw [hstream, hparse], by rw [hstream, hconsumed, List.drop_left], ?_⟩
  rwa [hlawful.advances.unique h.advances] at hprotects

theorem InLockStep.opens
    (hrecords : LawfulRecords cng π s records) (h : InLockStep s records rest r)
    {capacity : ℕ} {e : TlsRecordView} (hparse : parseRecord r.stream = .ok e)
    (ho : (π.unprotect cng w e r.state capacity).Opens r.state output) :
    InLockStep s records rest
      ⟨r.stream.drop e.bytesConsumed, r.state.next, r.outputs ++ [output]⟩ := by
  have hlen : (r.outputs ++ [output]).length = r.outputs.length + 1 := by
    rw [List.length_append, List.length_singleton]
  refine ⟨?_, fun hle => ?_, ?_⟩
  · rw [hlen]
    exact h.advances.next ho.below
  · rw [hlen] at hle ⊢
    obtain ⟨e', hparse', hdrop, -⟩ := h.parse hrecords hle
    obtain rfl : e = e' := Except.ok.inj (hparse.symm.trans hparse')
    exact hdrop
  · rw [hlen, List.map_append, List.map_singleton]
    rcases lt_or_ge r.outputs.length records.length with hlt | hge
    · obtain ⟨e', hparse', -, hprotects⟩ := h.parse hrecords hlt
      obtain rfl : e = e' := Except.ok.inj (hparse.symm.trans hparse')
      obtain ⟨htype, hfragment⟩ := hprotects.carries.content w capacity output ho
      have houtputs := h.outputs
      rw [List.take_of_length_le (by rw [List.length_map]; exact hlt.le)] at houtputs
      rw [List.take_of_length_le (by simpa using hlt), houtputs, List.take_add_one,
        List.getElem?_map, List.getElem?_eq_getElem hlt]
      simp only [TlsMutablePlaintextRecord.content, ProducedRecord.content, htype, hfragment,
        Option.map_some, Option.toList_some]
    · rw [List.take_append_of_le_length (by rw [List.length_map]; exact hge), h.outputs,
        List.take_of_length_le (by rw [List.length_map]; exact hge),
        List.take_of_length_le (by rw [List.length_map]; omega)]

theorem InLockStep.next (hrecords : LawfulRecords cng π s records) (h : InLockStep s records rest r)
    (w : CngAnswers) (capacity : ℕ) :
    InLockStep s records rest (r.next cng π w capacity) := by
  rw [Reader.next]
  split
  · exact h
  case h_2 e hparse =>
    rcases Protection.unprotect_cases cng w e r.state capacity π with hf | ⟨output, ho⟩
    · have hstatus : ¬ ntSuccess (π.unprotect cng w e r.state capacity).status = true := by
        simp only [hf.status, Bool.false_eq_true, not_false_eq_true]
      simp only [if_neg hstatus, hf.state]
      exact h
    · simp only [if_pos ho.status, ho.state, ho.output]
      exact h.opens hrecords hparse ho

theorem Reads.inLockStep (hrecords : LawfulRecords cng π s records)
    (h : Reads cng π ⟨concatenated records ++ rest, s, []⟩ r) : InLockStep s records rest r := by
  induction h with
  | start => exact ⟨.refl s, fun _ => rfl, by simp⟩
  | next w capacity _ ih => exact ih.next hrecords w capacity
  | @failing r w e capacity _ hfail ih =>
    rcases Protection.unprotect_cases cng w e r.state capacity π with hf | ⟨output, ho⟩
    · rw [hf.state]
      exact ih
    · rw [ho.status] at hfail
      cases hfail

/-! ## The main result -/

/-- Records in lock step.  Every call fails and changes nothing, or succeeds and takes exactly one
sequence number.  The records of a run have distinct nonces; `Parse` cuts the output into them;
and a reader that starts in the writer's state obtains their content types and fragments in
order, one sequence number a record, and gets on wherever there is room. -/
theorem records_lockStep {cng : Cng} (hcng : cng.Inverts) (π : Protection) :
    (∀ call s, (π.protect cng call s).Fails s ∨
      ∃ record, (π.protect cng call s).Writes s record) ∧
    (∀ w e s capacity, (π.unprotect cng w e s capacity).Fails s ∨
      ∃ output, (π.unprotect cng w e s capacity).Opens s output) ∧
    ∀ (s s' : TlsAeadCipherState) (calls : List ProtectCall) (records : List ProducedRecord)
      (rest : Bytes), protectAll cng π s calls = (records, s') →
      s.Advances records.length s' ∧
      (records.map fun r => π.nonce r.state).Nodup ∧
      (π = .aesCbcEncryptThenMac → ∀ r ∈ records, (r.octets.drop tlsRecordHeaderLength).take
        tlsAesCbcBlockLength = r.call.answers.iv) ∧
      cutRecords records.length (concatenated records ++ rest) =
        .ok (records.map (·.octets), rest) ∧
      ∀ reader, Reads cng π ⟨concatenated records ++ rest, s, []⟩ reader →
        s.Advances reader.outputs.length reader.state ∧
        (reader.outputs.map TlsMutablePlaintextRecord.content).take records.length =
          (records.map ProducedRecord.content).take reader.outputs.length ∧
        (reader.outputs.length < records.length →
          ∀ w capacity, tlsMaxPlaintextLength + 2048 ≤ capacity → w.Allow →
            (reader.next cng π w capacity).outputs.length = reader.outputs.length + 1) := by
  refine ⟨fun call s => ?_, fun w e s capacity => Protection.unprotect_cases cng w e s capacity π,
    fun s s' calls records rest hrun => ?_⟩
  · exact (Protection.protect_cases hcng call s π).imp_right fun ⟨e, hw, _⟩ => ⟨_, hw⟩
  obtain ⟨hadvances, hall⟩ := protectAll_spec hcng π s calls 0 s (.refl s)
  simp only [hrun, Nat.zero_add] at hadvances hall
  have hmem : ∀ r ∈ records, ∃ n, r.Lawful cng π s n := by
    intro r hr
    obtain ⟨i, hi⟩ := List.mem_iff_getElem?.1 hr
    exact ⟨i, hall i r hi⟩
  refine ⟨hadvances, ?_, ?_, cutRecords_concatenated hmem rest, fun reader hreads => ?_⟩
  · rw [List.nodup_iff_getElem?_ne_getElem?]
    intro i j hij hj
    rw [List.length_map] at hj
    rw [List.getElem?_map, List.getElem?_map, List.getElem?_eq_getElem (hij.trans hj),
      List.getElem?_eq_getElem hj]
    intro h
    exact (hall i _ (List.getElem?_eq_getElem _)).nonce_ne (hall j _ (List.getElem?_eq_getElem _))
      hij.ne (Option.some.inj h)
  · intro hπ r hr
    obtain ⟨n, hlawful⟩ := hmem r hr
    obtain ⟨e, hoctets, -, hprotects⟩ := hlawful.protects
    rw [hoctets, TlsRecordView.wire, wireRecord, List.drop_left' (recordHeader_length _ _ _)]
    exact hprotects.explicitIv hπ
  · have h := hreads.inLockStep hall
    refine ⟨h.advances, h.outputs, fun hlt w capacity hroom hallow => ?_⟩
    obtain ⟨e, hparse, -, hprotects⟩ := h.parse hall hlt
    obtain ⟨output, ho⟩ := hprotects.carries.opens w capacity
      (hprotects.length_le.trans hroom) hallow
    rw [Reader.next, hparse]
    simp only [if_pos ho.status, List.length_append, List.length_singleton]

/-! ### A platform and a run -/

/-- A cipher that masks each octet with the first of the key. -/
def maskCng : Cng where
  aeadEncrypt _ key _ _ plaintext :=
    .ok (plaintext.map (· ^^^ key.headD 0), List.replicate 16 (key.headD 0))
  aeadDecrypt _ key _ _ ciphertext tag :=
    if tag = List.replicate 16 (key.headD 0) then .ok (ciphertext.map (· ^^^ key.headD 0))
    else .error ⟨statusInvalidSignature, ntSuccess_invalidSignature⟩
  aesCbcEncrypt key _ plaintext := .ok (plaintext.map (· ^^^ key.headD 0))
  aesCbcDecrypt key _ ciphertext := .ok (ciphertext.map (· ^^^ key.headD 0))
  hmac algorithm key _ := .ok (List.replicate (hashDigestLength algorithm) (key.headD 0))

theorem maskCng_inverts : maskCng.Inverts := by
  have hmask : ∀ (m : UInt8) (p : Bytes), (p.map (· ^^^ m)).map (· ^^^ m) = p := by
    intro m p
    simp [List.map_map, Function.comp_def]
  constructor
  · rintro a k n aad p c t h
    obtain ⟨-, rfl⟩ := Prod.mk.inj (Except.ok.inj h)
    exact List.length_replicate
  · rintro a k n aad p c t h
    obtain ⟨rfl, rfl⟩ := Prod.mk.inj (Except.ok.inj h)
    simp only [maskCng, if_true, hmask]
  · rintro k iv p c h
    obtain rfl := Except.ok.inj h
    exact congrArg Except.ok (hmask _ _)

/-- A TLS 1.3 state that is about to protect its third record. -/
def maskState : TlsAeadCipherState :=
  { key := [7, 7], fixedIv := List.replicate 12 1, sequenceNumber := 2 }

def quietAnswers : CngAnswers := { iv := List.replicate 16 0, iv_length := rfl }

/-- A fragment that ends in zeros, with padding; a call without room; an empty fragment. -/
def maskCalls : List ProtectCall :=
  [⟨{ contentType := .handshake, fragment := [1, 0, 0], tls13PaddingLength := 2 }, 100, 100,
      quietAnswers⟩,
    ⟨{ fragment := [1] }, 10, 100, quietAnswers⟩,
    ⟨{ contentType := .alert }, 100, 100, quietAnswers⟩]

/-- Of the three calls two produce records. -/
theorem records_lockStep_masked : maskCng.Inverts ∧
    (protectAll maskCng .aesGcm13 maskState maskCalls).1.length = 2 ∧
    (protectAll maskCng .aesGcm13 maskState maskCalls).2.sequenceNumber.toNat = 4 ∧
    cutRecords 2 (concatenated (protectAll maskCng .aesGcm13 maskState maskCalls).1 ++ [23]) =
      .ok ((protectAll maskCng .aesGcm13 maskState maskCalls).1.map (·.octets), [23]) := by
  have hrun := (records_lockStep maskCng_inverts .aesGcm13).2.2 maskState
    (protectAll maskCng .aesGcm13 maskState maskCalls).2 maskCalls
    (protectAll maskCng .aesGcm13 maskState maskCalls).1 [23] rfl
  have hlength : (protectAll maskCng .aesGcm13 maskState maskCalls).1.length = 2 := by
    decide +kernel
  obtain ⟨hadvances, -, -, hcut, -⟩ := hrun
  rw [hlength] at hadvances hcut
  exact ⟨maskCng_inverts, hlength, hadvances.sequenceNumber, hcut⟩

end KernelHttp.Tls
