/-
  What a failed decryption leaves in the plaintext buffer (`crypto/Aead.cpp`).

  ChaCha20-Poly1305 compares the tag first; AES-CCM wipes the plaintext where the tag differs, but
  not where `CcmComputeMac` refuses the lengths.
-/
import KernelHttp.Crypto.CcmAgreement

namespace KernelHttp.Crypto

open Tls

/-- The algorithms that are not the platform's. -/
def implementedInSoftware (algorithm : AeadAlgorithm) : Bool :=
  match algorithm with
  | .aes128Gcm | .aes256Gcm => false
  | .chaCha20Poly1305 | .aes128Ccm | .aes128Ccm8 => true

/-- A failure that leaves nothing of the plaintext. -/
def Withheld (plaintext : Bytes) (r : Decrypted) : Prop :=
  r.bytesWritten = 0 ∧
    (r.plaintext = plaintext ∨ r.plaintext = List.replicate plaintext.length 0)

/-- A call of CCM whose lengths `CcmComputeMac` refuses, with a ciphertext to decrypt. -/
def RefusedLate (algorithm : AeadAlgorithm) (key : Bytes) (parameters : AeadParameters)
    (ciphertext : Bytes) : Prop :=
  ((algorithm = .aes128Ccm ∧ parameters.tag.length = 16) ∨
    (algorithm = .aes128Ccm8 ∧ parameters.tag.length = 8)) ∧
  key.length = 16 ∧ (7 ≤ parameters.nonce.length ∧ parameters.nonce.length ≤ 13) ∧
  ciphertext ≠ [] ∧
  (0xff00 ≤ parameters.aad.length ∨ 256 ^ (15 - parameters.nonce.length) ≤ ciphertext.length)

/-- What a call of CCM leaves when it fails. -/
def ccmRemains (key : Bytes) (parameters : AeadParameters) (ciphertext plaintext : Bytes) : Bytes :=
  if ¬ validAesCcm key parameters.nonce parameters.tag.length ∨
      plaintext.length < ciphertext.length ∨ 0xff00 ≤ parameters.aad.length ∨
      256 ^ (15 - parameters.nonce.length) ≤ ciphertext.length then plaintext
  else List.replicate plaintext.length 0

variable {algorithm : AeadAlgorithm} {tagLength : ℕ}

theorem validAesCcm_iff {key nonce : Bytes} :
    validAesCcm key nonce tagLength = true ↔ key.length = 16 ∧
      (7 ≤ nonce.length ∧ nonce.length ≤ 13) ∧ (tagLength = 8 ∨ tagLength = 16) := by
  simp [validAesCcm, and_assoc]

variable {key : Bytes} {parameters : AeadParameters} {ciphertext : Bytes}

/-- **A failed call of CCM**, unless the lengths are refused late. -/
theorem aesCcmDecrypt_failure (hsize : ciphertext.length ≤ maxSizeT)
    (hlate : ¬ (validAesCcm key parameters.nonce parameters.tag.length = true ∧ ciphertext ≠ [] ∧
      (0xff00 ≤ parameters.aad.length ∨
        256 ^ (15 - parameters.nonce.length) ≤ ciphertext.length)))
    (plaintext : Bytes)
    (hfail : ntSuccess (aesCcmDecrypt key parameters ciphertext plaintext).status = false) :
    (aesCcmDecrypt key parameters ciphertext plaintext).bytesWritten = 0 ∧
      (aesCcmDecrypt key parameters ciphertext plaintext).plaintext =
        ccmRemains key parameters ciphertext plaintext := by
  by_cases hguard : ¬ validAesCcm key parameters.nonce parameters.tag.length ∨
      plaintext.length < ciphertext.length
  · have hremains : ccmRemains key parameters ciphertext plaintext = plaintext := by
      rw [ccmRemains, if_pos]
      rcases hguard with h | h
      · exact Or.inl h
      · exact Or.inr (Or.inl h)
    rw [aesCcmDecrypt, if_pos hguard, hremains]
    exact ⟨rfl, rfl⟩
  · rw [not_or, not_not, not_lt] at hguard
    obtain ⟨hvalid, hroom⟩ := hguard
    obtain ⟨hkey, hnonce, htag⟩ := validAesCcm_iff.1 hvalid
    by_cases hrefused : 0xff00 ≤ parameters.aad.length ∨
        256 ^ (15 - parameters.nonce.length) ≤ ciphertext.length
    · obtain rfl : ciphertext = [] := by
        by_contra hne
        exact hlate ⟨hvalid, hne, hrefused⟩
      have hremains : ccmRemains key parameters [] plaintext = plaintext := by
        rw [ccmRemains, if_pos (Or.inr (Or.inr hrefused))]
      have hrefuse := aesCcmDecrypt_of_refused hkey hnonce htag hrefused hsize hroom rfl
      rw [hrefuse, hremains]
      exact ⟨rfl, rfl⟩
    · have hremains : ccmRemains key parameters ciphertext plaintext =
          List.replicate plaintext.length 0 := by
        rw [ccmRemains, if_neg]
        rintro (h | h | h)
        · exact h hvalid
        · omega
        · exact hrefused h
      rw [not_or, not_le, not_le] at hrefused
      have hdecrypt := aesCcmDecrypt_eq hkey hnonce htag hrefused.1 hrefused.2 hsize hroom rfl
      rw [hdecrypt] at hfail ⊢
      rw [hremains]
      split_ifs at hfail ⊢ with h
      · simp at hfail
      · exact ⟨rfl, rfl⟩

theorem ccmRemains_withheld (key : Bytes) (parameters : AeadParameters)
    (ciphertext plaintext : Bytes) :
    ccmRemains key parameters ciphertext plaintext = plaintext ∨
      ccmRemains key parameters ciphertext plaintext = List.replicate plaintext.length 0 := by
  rw [ccmRemains]
  split_ifs
  · exact Or.inl rfl
  · exact Or.inr rfl

theorem ccmRemains_congr {key' : Bytes} (hlen : key'.length = key.length) (plaintext : Bytes) :
    ccmRemains key' parameters ciphertext plaintext = ccmRemains key parameters ciphertext plaintext := by
  have hvalid : validAesCcm key' parameters.nonce parameters.tag.length =
      validAesCcm key parameters.nonce parameters.tag.length := by
    rw [validAesCcm, validAesCcm, hlen]
  simp only [ccmRemains, hvalid]

/-- **A failed call of ChaCha20-Poly1305** leaves the buffer as it is. -/
theorem chaCha20Poly1305Decrypt_failure (key : Bytes) (parameters : AeadParameters)
    (ciphertext plaintext : Bytes) :
    ∃ r, chaCha20Poly1305Decrypt key parameters ciphertext plaintext = some r ∧
      (ntSuccess r.status = false → r.bytesWritten = 0 ∧ r.plaintext = plaintext) := by
  by_cases hguard : ¬ validChaCha20Poly1305 key parameters.nonce ∨
      plaintext.length < ciphertext.length ∨ parameters.tag.length ≠ aeadChaCha20Poly1305TagLength
  · exact ⟨_, if_pos hguard, fun _ => ⟨rfl, rfl⟩⟩
  · rw [not_or, not_not, not_or, not_lt, ne_eq, not_not] at hguard
    obtain ⟨hvalid, hroom, htag⟩ := hguard
    refine ⟨_, chaCha20Poly1305Decrypt_eq hvalid hroom htag, fun hfail => ?_⟩
    split_ifs at hfail ⊢ with h
    · simp at hfail
    · exact ⟨rfl, rfl⟩

/-! ## Every algorithm of the source -/

/-- **No unverified plaintext is released**: a failed call leaves nothing of it in the buffer,
    and with another key of the same length it leaves the same. -/
def WithholdsPlaintext (decryptAesGcm : Bytes → AeadParameters → Bytes → Bytes → Decrypted)
    (algorithm : AeadAlgorithm) (key : Bytes) (parameters : AeadParameters) (ciphertext : Bytes) :
    Prop :=
  ∀ plaintext, ∃ r, aeadDecrypt decryptAesGcm algorithm key parameters ciphertext plaintext = some r ∧
    (ntSuccess r.status = false → Withheld plaintext r ∧ ∀ key' r', key'.length = key.length →
      aeadDecrypt decryptAesGcm algorithm key' parameters ciphertext plaintext = some r' →
      ntSuccess r'.status = false → r'.plaintext = r.plaintext)

variable (decryptAesGcm : Bytes → AeadParameters → Bytes → Bytes → Decrypted)

theorem withholds_ccm
    (hcall : ∀ key plaintext, aeadDecrypt decryptAesGcm algorithm key parameters ciphertext plaintext =
      if parameters.tag.length ≠ tagLength then some ⟨statusInvalidParameter, plaintext, 0⟩
      else some (aesCcmDecrypt key parameters ciphertext plaintext))
    (hsize : ciphertext.length ≤ maxSizeT)
    (hlate : ¬ (parameters.tag.length = tagLength ∧
      validAesCcm key parameters.nonce parameters.tag.length = true ∧ ciphertext ≠ [] ∧
      (0xff00 ≤ parameters.aad.length ∨
        256 ^ (15 - parameters.nonce.length) ≤ ciphertext.length))) :
    WithholdsPlaintext decryptAesGcm algorithm key parameters ciphertext := by
  intro plaintext
  by_cases htag : parameters.tag.length = tagLength
  · have hvalid (key' : Bytes) (hlen : key'.length = key.length) :
        ¬ (validAesCcm key' parameters.nonce parameters.tag.length = true ∧ ciphertext ≠ [] ∧
          (0xff00 ≤ parameters.aad.length ∨
            256 ^ (15 - parameters.nonce.length) ≤ ciphertext.length)) := by
      have hsame : validAesCcm key' parameters.nonce parameters.tag.length =
          validAesCcm key parameters.nonce parameters.tag.length := by
        rw [validAesCcm, validAesCcm, hlen]
      rw [hsame]
      exact fun h => hlate ⟨htag, h⟩
    refine ⟨_, by rw [hcall, if_neg (not_not.2 htag)], fun hfail => ?_⟩
    obtain ⟨hwritten, hplaintext⟩ := aesCcmDecrypt_failure hsize (hvalid key rfl) plaintext hfail
    refine ⟨⟨hwritten, hplaintext ▸ ccmRemains_withheld key parameters ciphertext plaintext⟩, ?_⟩
    intro key' r' hlen hcall' hfail'
    rw [hcall, if_neg (not_not.2 htag), Option.some.injEq] at hcall'
    subst hcall'
    rw [(aesCcmDecrypt_failure hsize (hvalid key' hlen) plaintext hfail').2, hplaintext,
      ccmRemains_congr hlen]
  · refine ⟨_, by rw [hcall, if_pos htag], fun _ => ⟨⟨rfl, Or.inl rfl⟩, ?_⟩⟩
    intro key' r' _ hcall' _
    rw [hcall, if_pos htag, Option.some.injEq] at hcall'
    rw [← hcall']

theorem not_withholds_of_refusedLate
    (hlate : RefusedLate algorithm key parameters ciphertext) (hsize : ciphertext.length ≤ maxSizeT) :
    ¬ WithholdsPlaintext decryptAesGcm algorithm key parameters ciphertext := by
  obtain ⟨halgorithm, hkey, hnonce, hne, hrefused⟩ := hlate
  have hcall (plaintext : Bytes) :
      aeadDecrypt decryptAesGcm algorithm key parameters ciphertext plaintext =
        some (aesCcmDecrypt key parameters ciphertext plaintext) := by
    rcases halgorithm with ⟨rfl, htag⟩ | ⟨rfl, htag⟩
    · exact if_neg (not_not.2 htag)
    · exact if_neg (not_not.2 htag)
  have htag : parameters.tag.length = 8 ∨ parameters.tag.length = 16 := by
    rcases halgorithm with ⟨-, htag⟩ | ⟨-, htag⟩
    · exact Or.inr htag
    · exact Or.inl htag
  obtain ⟨text, htext⟩ : ∃ text, text =
    Rfc3610.crypt (Fips197.cipher key) parameters.nonce ciphertext := ⟨_, rfl⟩
  have hlen : text.length = ciphertext.length :=
    htext ▸ crypt_length key parameters.nonce ciphertext
  -- A buffer that differs from the plaintext, with an octet behind it that is not zero.
  obtain ⟨buffer, hbuffer⟩ : ∃ buffer, buffer = text.map (· + 1) ++ [1] := ⟨_, rfl⟩
  have hroom : ciphertext.length ≤ buffer.length := by simp [hbuffer, hlen]
  have hdrop : buffer.drop ciphertext.length = [1] := by
    rw [hbuffer, List.drop_left' (by rw [List.length_map, hlen])]
  have hrefuse := aesCcmDecrypt_of_refused hkey hnonce htag hrefused hsize hroom rfl
  rw [← htext, hdrop] at hrefuse
  intro hwithholds
  obtain ⟨r, hr, hfailure⟩ := hwithholds buffer
  rw [hcall, Option.some.injEq, hrefuse] at hr
  subst hr
  obtain ⟨⟨-, hsame | hzero⟩, -⟩ := hfailure rfl
  · have hmap := List.append_cancel_right (hsame.trans hbuffer)
    match text, hlen, hmap with
    | [], hlen, _ => exact hne (List.length_eq_zero_iff.1 hlen.symm)
    | c :: _, _, hmap =>
      rw [List.map_cons, List.cons.injEq] at hmap
      simp at hmap
  · have hmem : (1 : UInt8) ∈ List.replicate buffer.length (0 : UInt8) := by
      rw [← hzero]
      simp
    have hone := List.eq_of_mem_replicate hmem
    simp at hone

/-- **`Aead::Decrypt` releases no unverified plaintext** exactly where no call of CCM has its
    lengths refused late. -/
theorem aeadDecrypt_withholds_iff {algorithm : AeadAlgorithm}
    (hsoftware : implementedInSoftware algorithm = true) (key : Bytes) (parameters : AeadParameters)
    {ciphertext : Bytes} (hsize : ciphertext.length ≤ maxSizeT) :
    WithholdsPlaintext decryptAesGcm algorithm key parameters ciphertext ↔
      ¬ RefusedLate algorithm key parameters ciphertext := by
  constructor
  · intro hwithholds hlate
    exact not_withholds_of_refusedLate decryptAesGcm hlate hsize hwithholds
  · intro hlate
    cases algorithm with
    | aes128Gcm => simp [implementedInSoftware] at hsoftware
    | aes256Gcm => simp [implementedInSoftware] at hsoftware
    | chaCha20Poly1305 =>
      intro plaintext
      obtain ⟨r, hr, hfailure⟩ := chaCha20Poly1305Decrypt_failure key parameters ciphertext plaintext
      refine ⟨r, hr, fun hfail => ?_⟩
      obtain ⟨hwritten, hsame⟩ := hfailure hfail
      refine ⟨⟨hwritten, Or.inl hsame⟩, fun key' r' _ hr' hfail' => ?_⟩
      obtain ⟨r'', hr'', hfailure'⟩ :=
        chaCha20Poly1305Decrypt_failure key' parameters ciphertext plaintext
      obtain rfl : r' = r'' := Option.some.inj (hr'.symm.trans hr'')
      rw [hsame, (hfailure' hfail').2]
    | aes128Ccm =>
      refine withholds_ccm decryptAesGcm (fun _ _ => rfl) hsize ?_
      rintro ⟨htag, hvalid, hne, hrefused⟩
      obtain ⟨hkey, hnonce, -⟩ := validAesCcm_iff.1 hvalid
      exact hlate ⟨Or.inl ⟨rfl, htag⟩, hkey, hnonce, hne, hrefused⟩
    | aes128Ccm8 =>
      refine withholds_ccm decryptAesGcm (fun _ _ => rfl) hsize ?_
      rintro ⟨htag, hvalid, hne, hrefused⟩
      obtain ⟨hkey, hnonce, -⟩ := validAesCcm_iff.1 hvalid
      exact hlate ⟨Or.inr ⟨rfl, htag⟩, hkey, hnonce, hne, hrefused⟩

/-- A short ciphertext with little additional data. -/
theorem aeadDecrypt_withholds_iff_short :
    WithholdsPlaintext (fun _ _ _ plaintext => ⟨statusNotSupported, plaintext, 0⟩) .aes128Ccm8
      (List.replicate 16 0) { nonce := List.replicate 12 0, aad := [1], tag := List.replicate 8 0 }
      [1, 2, 3] := by
  refine (aeadDecrypt_withholds_iff _ (by decide) _ _ (by decide)).2 ?_
  rintro ⟨-, -, -, -, hrefused⟩
  simp at hrefused

/-- **Additional data of 0xff00 octets**: the call fails, and two octets of the plaintext are in
    the buffer. -/
theorem aeadDecrypt_releases : ∃ r, aeadDecrypt (fun _ _ _ plaintext => ⟨statusNotSupported,
      plaintext, 0⟩) .aes128Ccm (List.replicate 16 0) { nonce := List.replicate 12 0
                                                        aad := List.replicate 0xff00 0
                                                        tag := List.replicate 16 0 }
      [0, 0] [7, 7, 7] = some r ∧
    ntSuccess r.status = false ∧ r.plaintext = [110, 199, 7] ∧ ¬ Withheld [7, 7, 7] r := by
  have hkey : (List.replicate 16 0 : Bytes).length = 16 := List.length_replicate
  have hnonce : 7 ≤ (List.replicate 12 0 : Bytes).length ∧
      (List.replicate 12 0 : Bytes).length ≤ 13 := ⟨by decide, by decide⟩
  have hlong : 0xff00 ≤ (List.replicate 0xff00 0 : Bytes).length := List.length_replicate.ge
  have hstream : (Fips197.cipher (List.replicate 16 0)
      (Rfc3610.counterBlock (List.replicate 12 0) 1)).take 2 = [110, 199] := by
    have hexpand := aes128Expand_eq (List.replicate 16 0) 40 (le_refl 4) (by norm_num)
    rw [scheduled_four hkey] at hexpand
    rw [← streamBlock_eq _ hnonce, ← hexpand]
    decide +kernel
  have hcrypt : Rfc3610.crypt (Fips197.cipher (List.replicate 16 0)) (List.replicate 12 0) [0, 0] =
      [110, 199] := by
    rw [Rfc3610.crypt, zipWith_flatMap_succ _ _ (cipher_length _ _), ← zipWith_take_right]
    exact congrArg (fun t => List.zipWith (· ^^^ ·) [0, 0] t ++ []) hstream
  have hsize : ([0, 0] : Bytes).length ≤ maxSizeT := by decide
  have hroom : ([0, 0] : Bytes).length ≤ ([7, 7, 7] : Bytes).length := by decide
  have hrefuse := aesCcmDecrypt_of_refused hkey hnonce (Or.inr rfl) (Or.inl hlong) hsize hroom hkey
  rw [hcrypt] at hrefuse
  have htag : ¬ (List.replicate 16 0 : Bytes).length ≠ 16 := not_not.2 hkey
  refine ⟨⟨statusInvalidParameter, [110, 199, 7], 0⟩, ?_, rfl, rfl, ?_⟩
  · rw [aeadDecrypt, if_neg htag, hrefuse]
    rfl
  · rintro ⟨-, h | h⟩ <;> simp at h

end KernelHttp.Crypto
