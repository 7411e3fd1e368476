/-
  How long the fragments are that protected records deliver.

  The three `Unprotect` functions do not look at the length of what they deliver.
-/
import KernelHttp.Tls.RecordRoundTrip

namespace KernelHttp.Tls

/-- The arguments with which an `Unprotect` function comes to the cipher. -/
def Protection.Attempts (e : TlsRecordView) (s : TlsAeadCipherState) (plaintextCapacity : ℕ) :
    Protection → Prop
  | .aesGcm =>
    tlsAesGcmExplicitNonceLength + tlsAesGcmTagLength ≤ e.fragment.length ∧
      s.key.length ≠ 0 ∧ s.key.length ≤ 32 ∧ s.fixedIv.length = tlsAesGcmFixedIvLength ∧
      e.fragment.length - tlsAesGcmExplicitNonceLength - tlsAesGcmTagLength ≤ plaintextCapacity ∧
      s.sequenceNumber ≠ tlsMaxRecordSequenceNumber
  | .aesCbcEncryptThenMac =>
    s.encryptThenMac = true ∧ s.key.length ≠ 0 ∧ s.macKey.length ≠ 0 ∧
      s.macKey.length = hashDigestLength s.macAlgorithm ∧
      tlsAesCbcBlockLength + s.macKey.length < e.fragment.length ∧
      e.fragment.length ≤ plaintextCapacity ∧
      (e.fragment.length - s.macKey.length - tlsAesCbcBlockLength) % tlsAesCbcBlockLength = 0 ∧
      s.sequenceNumber ≠ tlsMaxRecordSequenceNumber
  | .aesGcm13 =>
    e.contentType = .applicationData ∧ 1 + tlsAesGcmTagLength ≤ e.fragment.length ∧
      s.key.length ≠ 0 ∧ s.key.length ≤ 32 ∧ s.fixedIv.length = tlsAesGcmTls13IvLength ∧
      e.fragment.length - tlsAesGcmTagLength ≤ plaintextCapacity ∧
      s.sequenceNumber ≠ tlsMaxRecordSequenceNumber

/-- The longest fragment that a record with `n` encrypted octets can deliver: without the nonce
and the tag; without the IV, the MAC and one octet of padding; without the tag and the type. -/
def Protection.longest (s : TlsAeadCipherState) (n : ℕ) : Protection → ℕ
  | .aesGcm => n - tlsAesGcmExplicitNonceLength - tlsAesGcmTagLength
  | .aesCbcEncryptThenMac => n - s.macKey.length - tlsAesCbcBlockLength - 1
  | .aesGcm13 => n - tlsAesGcmTagLength - 1

/-- What a successful call delivers is accepted as a plaintext record. -/
def DeliversPlaintext (r : UnprotectResult) : Prop :=
  ntSuccess r.status = true →
    r.output.fragment.length ≤ tlsMaxPlaintextLength ∧
      validPlaintextRecord
        { contentType := r.output.contentType, version := r.output.version,
          fragment := r.output.fragment } = true

/-! ## The bound -/

theorem removeCbcPadding_length {decrypted plaintext : Bytes}
    (h : removeCbcPadding decrypted = some plaintext) :
    plaintext.length ≤ decrypted.length - 1 := by
  rw [removeCbcPadding] at h
  split at h
  · cases h
  · simp only at h
    split_ifs at h
    rw [← Option.some.inj h, List.length_take]
    omega

theorem removeTls13Padding_length {inner fragment : Bytes} {type : UInt8}
    (h : removeTls13Padding inner = some (type, fragment)) :
    fragment.length ≤ inner.length - 1 := by
  simp only [removeTls13Padding, Option.map_eq_some_iff, Prod.mk.injEq] at h
  obtain ⟨_, -, -, rfl⟩ := h
  rw [List.length_dropLast]
  exact Nat.sub_le_sub_right (List.rdropWhile_prefix _ _).length_le 1

variable {cng : Cng} {w : CngAnswers} {π : Protection} {s : TlsAeadCipherState}
    {e : TlsRecordView} {capacity : ℕ}

theorem finishUnprotect_success {output : TlsMutablePlaintextRecord}
    (h : ntSuccess (finishUnprotect s output).status = true) :
    (finishUnprotect s output).output = output := by
  rw [finishUnprotect] at h ⊢
  split at h
  case h_1 failure _ => exact absurd h (by simp [failure.property])
  case h_2 => rfl

theorem unprotectAesGcm_longest (h : ntSuccess (unprotectAesGcm cng w e s capacity).status = true) :
    Protection.aesGcm.Attempts e s capacity ∧
      (unprotectAesGcm cng w e s capacity).output.fragment.length ≤
        Protection.aesGcm.longest s e.fragment.length ∧
      (unprotectAesGcm cng w e s capacity).output.version = e.version := by
  rw [unprotectAesGcm] at h ⊢
  split at h
  · cases h
  case isFalse hargs =>
    rw [if_neg hargs]
    simp only at h ⊢
    split at h
    · cases h
    case isFalse hroom =>
      rw [if_neg hroom]
      split at h
      · cases h
      case isFalse hseq =>
        rw [if_neg hseq]
        push Not at hargs hroom
        refine ⟨⟨hargs.1, hargs.2.1, hargs.2.2.1, hargs.2.2.2, hroom, hseq⟩, ?_⟩
        split at h
        case h_1 failure _ => exact absurd h (by simp [failure.property])
        case h_2 plaintext hok =>
          split at h
          · cases h
          case isFalse hlen =>
            rw [if_neg hlen, finishUnprotect_success h]
            exact ⟨(not_not.1 hlen).le, rfl⟩

theorem unprotectAesCbc_longest
    (h : ntSuccess (unprotectAesCbcEncryptThenMac cng w e s capacity).status = true) :
    Protection.aesCbcEncryptThenMac.Attempts e s capacity ∧
      (unprotectAesCbcEncryptThenMac cng w e s capacity).output.fragment.length ≤
        Protection.aesCbcEncryptThenMac.longest s e.fragment.length ∧
      (unprotectAesCbcEncryptThenMac cng w e s capacity).output.version = e.version := by
  rw [unprotectAesCbcEncryptThenMac] at h ⊢
  split at h
  · cases h
  case isFalse hkeys =>
    rw [if_neg hkeys]
    split at h
    · cases h
    case isFalse hlength =>
      rw [if_neg hlength]
      simp only at h ⊢
      split at h
      · cases h
      case isFalse hblocks =>
        rw [if_neg hblocks]
        split at h
        · cases h
        case isFalse hseq =>
          rw [if_neg hseq]
          push Not at hkeys hlength hblocks
          refine ⟨⟨hkeys.1, hkeys.2.1, hkeys.2.2.1, hkeys.2.2.2, hlength.1, hlength.2.1,
            hblocks.2, hseq⟩, ?_⟩
          split at h
          · cases h
          case isFalse hmemory =>
            rw [if_neg hmemory]
            split at h
            case h_1 failure _ => exact absurd h (by simp [failure.property])
            split at h
            · cases h
            case isFalse hmacLength =>
              rw [if_neg hmacLength]
              split at h
              · cases h
              case isFalse hmac =>
                rw [if_neg hmac]
                split at h
                case h_1 failure _ => exact absurd h (by simp [failure.property])
                case h_2 decrypted hok =>
                  split at h
                  · cases h
                  case isFalse hlen =>
                    rw [if_neg hlen]
                    rw [not_or, not_not] at hlen
                    split at h
                    · cases h
                    case h_2 plaintext hpadding =>
                      rw [finishUnprotect_success h]
                      refine ⟨?_, rfl⟩
                      have := removeCbcPadding_length hpadding
                      rwa [hlen.2] at this

theorem unprotectAesGcm13_longest
    (h : ntSuccess (unprotectAesGcm13 cng w e s capacity).status = true) :
    Protection.aesGcm13.Attempts e s capacity ∧
      (unprotectAesGcm13 cng w e s capacity).output.fragment.length ≤
        Protection.aesGcm13.longest s e.fragment.length ∧
      (unprotectAesGcm13 cng w e s capacity).output.version = e.version := by
  rw [unprotectAesGcm13] at h ⊢
  split at h
  · cases h
  case isFalse hargs =>
    rw [if_neg hargs]
    simp only at h ⊢
    split at h
    · cases h
    case isFalse hroom =>
      rw [if_neg hroom]
      split at h
      · cases h
      case isFalse hseq =>
        rw [if_neg hseq]
        push Not at hargs hroom
        refine ⟨⟨hargs.1, hargs.2.1, hargs.2.2.1, hargs.2.2.2.1, hargs.2.2.2.2, hroom, hseq⟩, ?_⟩
        split at h
        case h_1 failure _ => exact absurd h (by simp [failure.property])
        case h_2 inner hok =>
          split at h
          · cases h
          case isFalse hlen =>
            rw [if_neg hlen]
            rw [not_or, not_not] at hlen
            split at h
            · cases h
            case h_2 innerType fragment hpadding =>
              split at h
              · cases h
              case h_2 contentType htype =>
                rw [finishUnprotect_success h]
                refine ⟨?_, rfl⟩
                have := removeTls13Padding_length hpadding
                rwa [hlen.2] at this

theorem Protection.unprotect_longest
    (h : ntSuccess (π.unprotect cng w e s capacity).status = true) :
    π.Attempts e s capacity ∧
      (π.unprotect cng w e s capacity).output.fragment.length ≤ π.longest s e.fragment.length ∧
      (π.unprotect cng w e s capacity).output.version = e.version := by
  cases π with
  | aesGcm => exact unprotectAesGcm_longest h
  | aesCbcEncryptThenMac => exact unprotectAesCbc_longest h
  | aesGcm13 => exact unprotectAesGcm13_longest h

/-! ## A peer that reaches it -/

def maskWith (pad t : Bytes) : Bytes := t.mapIdx fun i c => c ^^^ pad.getD i 0

/-- A platform whose ciphers mask with a pad, with one tag and one MAC. -/
def padCng (pad tag mac : Bytes) : Cng where
  aeadEncrypt _ _ _ _ plaintext := .ok (maskWith pad plaintext, tag)
  aeadDecrypt _ _ _ _ ciphertext tag' :=
    if tag' = tag then .ok (maskWith pad ciphertext)
    else .error ⟨statusInvalidSignature, ntSuccess_invalidSignature⟩
  aesCbcEncrypt _ _ plaintext := .ok (maskWith pad plaintext)
  aesCbcDecrypt _ _ ciphertext := .ok (maskWith pad ciphertext)
  hmac _ _ _ := .ok mac

@[simp] theorem maskWith_length (pad t : Bytes) : (maskWith pad t).length = t.length :=
  List.length_mapIdx

theorem maskWith_maskWith (pad t : Bytes) : maskWith pad (maskWith pad t) = t := by
  apply List.ext_getElem
  · simp
  · intro i h₁ h₂
    simp [maskWith]

/-- A pad that decrypts to one octet, repeated. -/
theorem maskWith_map (c : UInt8) (t : Bytes) :
    maskWith (t.map (· ^^^ c)) t = List.replicate t.length c := by
  apply List.ext_getElem
  · simp
  · intro i h₁ h₂
    have hi : i < t.length := by simpa using h₁
    simp [maskWith, List.getElem?_eq_getElem hi]

theorem padCng_inverts {pad tag mac : Bytes} (htag : tag.length = tlsAesGcmTagLength) :
    (padCng pad tag mac).Inverts := by
  constructor
  · rintro a k n aad p c t h
    obtain ⟨-, rfl⟩ := Prod.mk.inj (Except.ok.inj h)
    exact htag
  · rintro a k n aad p c t h
    obtain ⟨rfl, rfl⟩ := Prod.mk.inj (Except.ok.inj h)
    simp only [padCng, if_true, maskWith_maskWith]
  · rintro k iv p c h
    obtain rfl := Except.ok.inj h
    exact congrArg Except.ok (maskWith_maskWith _ _)

theorem removeCbcPadding_zeros (n : ℕ) :
    removeCbcPadding (List.replicate (n + 1) 0) = some (List.replicate n 0) := by
  rw [removeCbcPadding, List.getLast?_replicate, if_neg (Nat.succ_ne_zero n)]
  simp

theorem removeTls13Padding_types (n : ℕ) :
    removeTls13Padding (List.replicate (n + 1) 23) = some (23, List.replicate n 23) := by
  have hstrip : (List.replicate (n + 1) (23 : UInt8)).rdropWhile (· == 0) =
      List.replicate (n + 1) 23 := by
    rw [List.replicate_succ', List.rdropWhile_concat, if_neg (by decide)]
  rw [removeTls13Padding, hstrip, List.getLast?_replicate, if_neg (Nat.succ_ne_zero n)]
  simp

theorem finishUnprotect_delivers (output : TlsMutablePlaintextRecord)
    (h : s.sequenceNumber ≠ tlsMaxRecordSequenceNumber) :
    ntSuccess (finishUnprotect s output).status = true ∧
      (finishUnprotect s output).output = output :=
  ⟨(finishUnprotect_opens h output).status, (finishUnprotect_opens h output).output⟩

theorem unprotectAesGcm_delivers (h : Protection.aesGcm.Attempts e s capacity) :
    ∃ cng : Cng, cng.Inverts ∧
      ntSuccess (unprotectAesGcm cng quietAnswers e s capacity).status = true ∧
      (unprotectAesGcm cng quietAnswers e s capacity).output.fragment.length =
        Protection.aesGcm.longest s e.fragment.length := by
  obtain ⟨hlength, hkey, hkey', hiv, hroom, hseq⟩ := h
  have htag : (e.fragment.drop (e.fragment.length - tlsAesGcmTagLength)).length =
      tlsAesGcmTagLength := by
    rw [List.length_drop]
    omega
  refine ⟨padCng [] (e.fragment.drop (e.fragment.length - tlsAesGcmTagLength)) [],
    padCng_inverts htag, ?_⟩
  rw [unprotectAesGcm, if_neg (by omega)]
  extract_lets plaintextLength explicitNonce ciphertext tag
  have hciphertext : (maskWith [] ciphertext).length = plaintextLength := by
    rw [maskWith_length, List.length_take_of_le]
    rw [List.length_drop]
    omega
  rw [if_neg (not_lt.2 hroom), if_neg hseq, unlessFailed_success rfl]
  simp only [padCng, tag, if_true]
  rw [if_neg (not_not.2 hciphertext)]
  obtain ⟨hstatus, houtput⟩ := finishUnprotect_delivers
    ⟨e.contentType, e.version, maskWith [] ciphertext⟩ hseq
  exact ⟨hstatus, by rw [houtput]; exact hciphertext⟩

theorem unprotectAesCbc_delivers (h : Protection.aesCbcEncryptThenMac.Attempts e s capacity)
    (hparse : e.fragment.length ≤ tlsMaxPlaintextLength + 2048) :
    ∃ cng : Cng, cng.Inverts ∧
      ntSuccess (unprotectAesCbcEncryptThenMac cng quietAnswers e s capacity).status = true ∧
      (unprotectAesCbcEncryptThenMac cng quietAnswers e s capacity).output.fragment.length =
        Protection.aesCbcEncryptThenMac.longest s e.fragment.length := by
  obtain ⟨hetm, hkey, hmacKey, hmacKey', hlength, hroom, hblocks, hseq⟩ := h
  obtain ⟨n, hn⟩ : ∃ n, e.fragment.length - s.macKey.length - tlsAesCbcBlockLength = n + 1 :=
    ⟨e.fragment.length - s.macKey.length - tlsAesCbcBlockLength - 1, by omega⟩
  have hciphertext : ((e.fragment.drop tlsAesCbcBlockLength).take (n + 1)).length = n + 1 := by
    rw [List.length_take_of_le]
    rw [List.length_drop]
    omega
  have hmac : (e.fragment.drop (e.fragment.length - s.macKey.length)).length =
      s.macKey.length := by
    rw [List.length_drop]
    omega
  refine ⟨padCng (((e.fragment.drop tlsAesCbcBlockLength).take (n + 1)).map (· ^^^ 0))
    (List.replicate 16 0) (e.fragment.drop (e.fragment.length - s.macKey.length)),
    padCng_inverts rfl, ?_⟩
  rw [unprotectAesCbcEncryptThenMac, if_neg (by push Not; exact ⟨hetm, hkey, hmacKey, hmacKey'⟩),
    if_neg (by omega)]
  extract_lets encryptedPartLength ciphertextLength explicitIv ciphertext
  have hcut : ciphertextLength = n + 1 := hn
  have hdecrypted : maskWith (((e.fragment.drop tlsAesCbcBlockLength).take (n + 1)).map (· ^^^ 0))
      ciphertext = List.replicate (n + 1) 0 := by
    have := maskWith_map 0 ((e.fragment.drop tlsAesCbcBlockLength).take (n + 1))
    rw [hciphertext] at this
    show maskWith _ ((e.fragment.drop tlsAesCbcBlockLength).take ciphertextLength) = _
    rw [hcut]
    exact this
  rw [if_neg (by rw [not_or, not_not]; exact ⟨by omega, hblocks⟩), if_neg hseq,
    if_neg (by simp [quietAnswers]), unlessFailed_success rfl]
  simp only [padCng]
  rw [if_neg (not_not.2 hmac), if_neg (not_not.2 rfl), unlessFailed_success rfl]
  simp only [hdecrypted, List.length_replicate]
  rw [if_neg (by omega), removeCbcPadding_zeros]
  obtain ⟨hstatus, houtput⟩ := finishUnprotect_delivers
    ⟨e.contentType, e.version, List.replicate n 0⟩ hseq
  refine ⟨hstatus, ?_⟩
  simp only [houtput, List.length_replicate, Protection.longest, hn, Nat.add_sub_cancel]

theorem unprotectAesGcm13_delivers (h : Protection.aesGcm13.Attempts e s capacity) :
    ∃ cng : Cng, cng.Inverts ∧
      ntSuccess (unprotectAesGcm13 cng quietAnswers e s capacity).status = true ∧
      (unprotectAesGcm13 cng quietAnswers e s capacity).output.fragment.length =
        Protection.aesGcm13.longest s e.fragment.length := by
  obtain ⟨htype, hlength, hkey, hkey', hiv, hroom, hseq⟩ := h
  obtain ⟨n, hn⟩ : ∃ n, e.fragment.length - tlsAesGcmTagLength = n + 1 :=
    ⟨e.fragment.length - tlsAesGcmTagLength - 1, by omega⟩
  have htag : (e.fragment.drop (e.fragment.length - tlsAesGcmTagLength)).length =
      tlsAesGcmTagLength := by
    rw [List.length_drop]
    omega
  have hdecrypted : maskWith ((e.fragment.take (n + 1)).map (· ^^^ 23)) (e.fragment.take (n + 1)) =
      List.replicate (n + 1) 23 := by
    have hlength : (e.fragment.take (n + 1)).length = n + 1 := by
      rw [List.length_take_of_le]
      omega
    have := maskWith_map 23 (e.fragment.take (n + 1))
    rwa [hlength] at this
  refine ⟨padCng ((e.fragment.take (n + 1)).map (· ^^^ 23))
    (e.fragment.drop (e.fragment.length - tlsAesGcmTagLength)) [], padCng_inverts htag, ?_⟩
  rw [unprotectAesGcm13, if_neg (by simp only [htype, ne_eq, not_true_eq_false, false_or]; omega)]
  extract_lets innerPlaintextLength
  have hcut : innerPlaintextLength = n + 1 := hn
  rw [if_neg (not_lt.2 hroom), if_neg hseq, unlessFailed_success rfl, hcut]
  simp only [padCng, if_true, hdecrypted, List.length_replicate]
  rw [if_neg (by omega), removeTls13Padding_types]
  obtain ⟨hstatus, houtput⟩ := finishUnprotect_delivers
    ⟨.applicationData, e.version, List.replicate n 23⟩ hseq
  refine ⟨hstatus, ?_⟩
  show (finishUnprotect s ⟨.applicationData, e.version, List.replicate n 23⟩).output.fragment.length =
    _
  simp only [houtput, List.length_replicate, Protection.longest, hn, Nat.add_sub_cancel]

theorem Protection.unprotect_delivers (h : π.Attempts e s capacity)
    (hparse : e.fragment.length ≤ tlsMaxPlaintextLength + 2048) :
    ∃ cng : Cng, cng.Inverts ∧
      ntSuccess (π.unprotect cng quietAnswers e s capacity).status = true ∧
      (π.unprotect cng quietAnswers e s capacity).output.fragment.length =
        π.longest s e.fragment.length := by
  cases π with
  | aesGcm => exact unprotectAesGcm_delivers h
  | aesCbcEncryptThenMac => exact unprotectAesCbc_delivers h hparse
  | aesGcm13 => exact unprotectAesGcm13_delivers h

/-! ## Record overflow -/

theorem parseRecord_ok {data : Bytes} (h : parseRecord data = .ok e) :
    isSupportedVersion e.version = true ∧ e.fragment.length ≤ tlsMaxPlaintextLength + 2048 := by
  unfold parseRecord at h
  split at h
  case h_2 => cases h
  case h_1 =>
    split at h
    · cases h
    split at h
    · cases h
    case isFalse hversion =>
      simp only at h
      split_ifs at h with hlength hrest
      obtain rfl := Except.ok.inj h
      refine ⟨not_not.1 hversion, ?_⟩
      rw [List.length_take]
      omega

/-- A peer with the keys has a record deliver what the protection leaves of it. -/
theorem overflow_reached (hparse : e.fragment.length ≤ tlsMaxPlaintextLength + 2048)
    (h : π.Attempts e s capacity) (hlong : tlsMaxPlaintextLength < π.longest s e.fragment.length) :
    ∃ cng : Cng, cng.Inverts ∧
      ¬ DeliversPlaintext (π.unprotect cng quietAnswers e s capacity) := by
  obtain ⟨cng, hinverts, hstatus, houtput⟩ := Protection.unprotect_delivers h hparse
  refine ⟨cng, hinverts, fun hdelivers => ?_⟩
  have := (hdelivers hstatus).1
  omega

def zeroRecord (n : ℕ) : TlsRecordView :=
  { fragment := List.replicate n 0, bytesConsumed := tlsRecordHeaderLength + n }

theorem parseRecord_zeros {n : ℕ} (h : n ≤ tlsMaxPlaintextLength + 2048) :
    parseRecord (wireRecord .applicationData {} (List.replicate n 0)) = .ok (zeroRecord n) := by
  have hversion : isSupportedVersion {} = true := rfl
  have hlength : (List.replicate n (0 : UInt8)).length ≤ tlsMaxPlaintextLength + 2048 := by
    rw [List.length_replicate]
    exact h
  have hparse := parseRecord_wireRecord .applicationData hversion hlength []
  rwa [List.append_nil, wireRecord_length, List.length_replicate] at hparse

/-- A call delivers at most `2 ^ 14` octets, whatever the platform makes of the record, exactly
when it does not come to the cipher or the protection leaves no more of the record.  Otherwise a
peer with the keys has it deliver more. -/
theorem overflow_rejected_iff {data : Bytes} {e : TlsRecordView} (hparse : parseRecord data = .ok e)
    (π : Protection) (s : TlsAeadCipherState) (capacity : ℕ) :
    ((∀ cng w, DeliversPlaintext (π.unprotect cng w e s capacity)) ↔
      (π.Attempts e s capacity → π.longest s e.fragment.length ≤ tlsMaxPlaintextLength)) ∧
    (¬ (π.Attempts e s capacity → π.longest s e.fragment.length ≤ tlsMaxPlaintextLength) →
      ∃ cng w, cng.Inverts ∧ ¬ DeliversPlaintext (π.unprotect cng w e s capacity)) := by
  obtain ⟨hversion, hlength⟩ := parseRecord_ok hparse
  refine ⟨⟨fun hall hattempts => ?_, fun hcond cng w hstatus => ?_⟩, fun h => ?_⟩
  · by_contra hlong
    obtain ⟨cng, -, hoverflow⟩ := overflow_reached hlength hattempts (not_le.1 hlong)
    exact hoverflow (hall cng quietAnswers)
  · obtain ⟨hattempts, hle, hv⟩ := Protection.unprotect_longest hstatus
    have hshort := hle.trans (hcond hattempts)
    refine ⟨hshort, ?_⟩
    simp only [validPlaintextRecord, hv, hversion, Bool.true_and]
    exact decide_eq_true hshort
  · push Not at h
    obtain ⟨cng, hinverts, hoverflow⟩ := overflow_reached hlength h.1 h.2
    exact ⟨cng, quietAnswers, hinverts, hoverflow⟩

/-- A record of twenty octets. -/
theorem overflow_rejected_short :
    (∀ cng w, DeliversPlaintext
      (Protection.aesGcm13.unprotect cng w (zeroRecord 20) maskState 100)) ∧
      parseRecord (wireRecord .applicationData {} (List.replicate 20 0)) = .ok (zeroRecord 20) := by
  have hparse := parseRecord_zeros (n := 20) (by decide)
  exact ⟨(overflow_rejected_iff hparse .aesGcm13 maskState 100).1.2 fun _ => by decide, hparse⟩

def gcmState : TlsAeadCipherState :=
  { key := List.replicate 16 1, fixedIv := List.replicate 4 1 }

/-- With AES-GCM, 16409 encrypted octets are accepted and deliver 16385. -/
theorem overflow_delivered :
    parseRecord (wireRecord .applicationData {} (List.replicate 16409 0)) =
        .ok (zeroRecord 16409) ∧
      ∃ cng : Cng, cng.Inverts ∧ ¬ DeliversPlaintext
        (Protection.aesGcm.unprotect cng quietAnswers (zeroRecord 16409) gcmState 16385) := by
  have hlength : (zeroRecord 16409).fragment.length = 16409 := List.length_replicate
  refine ⟨parseRecord_zeros (by decide), overflow_reached (by rw [hlength]; decide) ?_ ?_⟩
  · simp only [Protection.Attempts, hlength]
    decide
  · simp only [Protection.longest, hlength]
    decide

end KernelHttp.Tls
