/-
  AES-128-CCM is RFC 3610 (`crypto/Aead.cpp`).

  The loop over the additional data works on a block that is filled from the left: what is in
  it, followed by what is still to come, stays the same (`ccmAadLoop_eq`).
-/
import KernelHttp.Crypto.AesAgreement
import KernelHttp.Crypto.ChaChaPoly
import KernelHttp.Crypto.Rfc3610

namespace KernelHttp.Crypto

open BigEndian Tls

/-! ## Blocks -/

variable {t : Bytes}

/-- Octets that one block holds. -/
theorem blocks_padded_short (ht : t ≠ []) (hlen : t.length ≤ 16) :
    blocks (padded t) = [zeroFilled t] := by
  have hpos := List.length_pos_iff.2 ht
  have hpad : padded t = zeroFilled t := by
    rw [padded, zeroFilled, aesBlockLength, show (16 - t.length % 16) % 16 = 16 - t.length by omega]
  have hfull : (zeroFilled t).length = 16 := by
    rw [zeroFilled, aesBlockLength, List.length_append, List.length_replicate]
    omega
  rw [hpad]
  obtain ⟨c, z, hz⟩ := List.exists_cons_of_length_eq_add_one hfull
  rw [hz] at hfull ⊢
  rw [blocks, List.take_of_length_le hfull.le, List.drop_eq_nil_of_le hfull.le, blocks]

/-- A whole block in front. -/
theorem blocks_padded_append {b : Bytes} (hb : b.length = 16) (t : Bytes) :
    blocks (padded (b ++ t)) = b :: blocks (padded t) := by
  have hpad : padded (b ++ t) = b ++ padded t := by
    rw [padded, padded, List.append_assoc, List.length_append, hb, Nat.add_comm,
      Nat.add_mod_right]
  rw [hpad]
  obtain ⟨c, b, rfl⟩ := List.exists_cons_of_length_eq_add_one hb
  rw [List.cons_append, blocks, ← List.cons_append, List.take_left' hb, List.drop_left' hb]

theorem length_of_mem_blocks (ht : t.length % 16 = 0) : ∀ b ∈ blocks t, b.length = 16 := by
  induction t using blocks.induct with
  | case1 => simp [blocks]
  | case2 c t ih =>
    have hpos : 0 < (c :: t).length := Nat.succ_pos _
    intro b hb
    rw [blocks, List.mem_cons] at hb
    rcases hb with rfl | hb
    · rw [List.length_take]
      omega
    · refine ih ?_ b hb
      rw [List.length_drop]
      omega

theorem length_of_mem_padded (t : Bytes) : ∀ b ∈ blocks (padded t), b.length = 16 := by
  apply length_of_mem_blocks
  rw [padded, List.length_append, List.length_replicate]
  omega

/-! ## The loops -/

/-- **The additional data is packed into blocks**, with the octets that are in the block. -/
theorem ccmAadLoop_eq (roundKeys aad : Bytes) {used : Bytes} {blockOffset : Fin 16}
    (hused : used.length = blockOffset) (mac : Bytes) :
    ccmAadLoop roundKeys (zeroFilled used) blockOffset mac aad =
      (blocks (padded (used ++ aad))).foldl (fun mac block => ccmMacBlock roundKeys block mac) mac := by
  induction hn : aad.length using Nat.strong_induction_on generalizing aad used blockOffset mac with
  | _ n ih =>
    subst hn
    have hoff := blockOffset.isLt
    rw [ccmAadLoop]
    rcases Nat.eq_zero_or_pos aad.length with hempty | hpos
    · obtain rfl : aad = [] := List.length_eq_zero_iff.1 hempty
      rw [if_neg (by simp), List.append_nil]
      rcases eq_or_ne used [] with rfl | hne
      · rw [if_neg (by simpa using hused.symm)]
        simp [padded, blocks]
      · have hlen := List.length_pos_iff.2 hne
        rw [if_pos (by omega), blocks_padded_short hne (by omega), List.foldl_cons, List.foldl_nil]
    · obtain ⟨chunk, hchunk⟩ : ∃ chunk, chunk = min aad.length (aesBlockLength - blockOffset) :=
        ⟨_, rfl⟩
      have hlen : (used ++ aad.take chunk).length = blockOffset + chunk := by
        rw [List.length_append, List.length_take, hused, hchunk]
        omega
      have hblock : (zeroFilled used).take blockOffset ++ aad.take chunk ++
          (zeroFilled used).drop (blockOffset + chunk) = zeroFilled (used ++ aad.take chunk) := by
        rw [zeroFilled, zeroFilled, List.take_left' hused, hlen, ← List.drop_drop,
          List.drop_left' hused, List.drop_replicate, hused, Nat.sub_sub]
      have hsplit : used ++ aad = (used ++ aad.take chunk) ++ aad.drop chunk := by
        rw [List.append_assoc, List.take_append_drop]
      simp only [if_pos hpos, ← hchunk, hblock]
      have h16 : aesBlockLength = 16 := rfl
      by_cases hfull : blockOffset + chunk = aesBlockLength
      · -- The block is full.
        rw [dif_pos hfull]
        have hnext := @ih _ (by rw [List.length_drop]; omega) (aad.drop chunk) [] 0 rfl
          (ccmMacBlock roundKeys (zeroFilled (used ++ aad.take chunk)) mac) rfl
        have hzero : zeroFilled (used ++ aad.take chunk) = used ++ aad.take chunk := by
          rw [zeroFilled, hlen, hfull, Nat.sub_self, List.replicate_zero, List.append_nil]
        rw [hnext, List.nil_append, hsplit, blocks_padded_append (hlen.trans hfull),
          List.foldl_cons, hzero]
      · -- The additional data ends in the block.
        rw [dif_neg hfull, ih _ (by rw [List.length_drop]; omega) (aad.drop chunk) hlen mac rfl, ← hsplit]

theorem ccmTextLoop_eq (roundKeys mac text : Bytes) :
    ccmTextLoop roundKeys mac text =
      (blocks (padded text)).foldl (fun mac block => ccmMacBlock roundKeys block mac) mac := by
  induction hn : text.length using Nat.strong_induction_on generalizing text mac with
  | _ n ih =>
    subst hn
    rw [ccmTextLoop]
    rcases Nat.eq_zero_or_pos text.length with hempty | hpos
    · obtain rfl : text = [] := List.length_eq_zero_iff.1 hempty
      simp [padded, blocks]
    · rw [if_pos hpos, aesBlockLength, ih _ (by rw [List.length_drop]; omega) _ _ rfl]
      rcases Nat.lt_or_ge text.length 16 with hshort | hlong
      · rw [List.drop_eq_nil_of_le hshort.le, List.take_of_length_le hshort.le,
          blocks_padded_short (List.length_pos_iff.1 hpos) hshort.le]
        simp [padded, blocks]
      · have htake : (text.take 16).length = 16 := by
          rw [List.length_take]
          omega
        have hzero : zeroFilled (text.take 16) = text.take 16 := by
          rw [zeroFilled, htake, aesBlockLength, Nat.sub_self, List.replicate_zero, List.append_nil]
        conv_rhs => rw [← List.take_append_drop 16 text, blocks_padded_append htake]
        rw [List.foldl_cons, hzero]

/-! ## The blocks that are made -/

section blocksMade

variable {nonce : Bytes} (hnonce : 7 ≤ nonce.length ∧ nonce.length ≤ 13)

/-- What the length field is for. -/
theorem lengthFieldLength_eq (nonce : Bytes) :
    aesBlockLength - 1 - nonce.length = Rfc3610.lengthOctets nonce := rfl

theorem buildCcmCounterBlock_eq (nonce : Bytes) (i : ℕ) :
    buildCcmCounterBlock nonce i = Rfc3610.counterBlock nonce i := by
  rw [buildCcmCounterBlock, Rfc3610.counterBlock, writeBigEndianLength_eq, lengthFieldLength_eq]

include hnonce

theorem counterBlock_length (i : ℕ) : (Rfc3610.counterBlock nonce i).length = 16 := by
  simp only [Rfc3610.counterBlock, Rfc3610.lengthOctets, List.length_cons, List.length_append,
    bigEndian_length]
  omega

variable {tagLength : ℕ}

/-- The flags are added, as their bits do not overlap. -/
theorem ccmFirstBlock_eq (htag : tagLength = 8 ∨ tagLength = 16) (aad text : Bytes) :
    ccmFirstBlock nonce aad.length text.length tagLength =
      Rfc3610.firstBlock tagLength nonce aad text := by
  have hflags : (if aad.length ≠ 0 then 0x40 else 0) ||| ((tagLength - 2) / 2) <<< 3 |||
      (Rfc3610.lengthOctets nonce - 1) = 64 * (if aad = [] then 0 else 1) +
        8 * ((tagLength - 2) / 2) + (Rfc3610.lengthOctets nonce - 1) := by
    have hsmall : Rfc3610.lengthOctets nonce - 1 < 8 := by
      rw [Rfc3610.lengthOctets]
      omega
    have hempty : aad.length = 0 ↔ aad = [] := List.length_eq_zero_iff
    generalize Rfc3610.lengthOctets nonce - 1 = l at hsmall
    rcases eq_or_ne aad [] with rfl | hne
    · rcases htag with rfl | rfl <;> interval_cases l <;> rfl
    · rw [if_pos (mt hempty.1 hne), if_neg hne]
      rcases htag with rfl | rfl <;> interval_cases l <;> rfl
  rw [ccmFirstBlock, Rfc3610.firstBlock, writeBigEndianLength_eq, lengthFieldLength_eq, hflags]

theorem firstBlock_length (tagLength : ℕ) (aad text : Bytes) :
    (Rfc3610.firstBlock tagLength nonce aad text).length = 16 := by
  simp only [Rfc3610.firstBlock, Rfc3610.lengthOctets, List.length_cons, List.length_append,
    bigEndian_length]
  omega

omit hnonce in
/-- **No counter block is the first block of the authentication**, by its flags. -/
theorem counterBlock_ne_firstBlock (htag : tagLength = 8 ∨ tagLength = 16)
    (aad text : Bytes) (i : ℕ) :
    Rfc3610.counterBlock nonce i ≠ Rfc3610.firstBlock tagLength nonce aad text := by
  intro heq
  have hhead := List.head_eq_of_cons_eq heq
  have htoNat := congrArg UInt8.toNat hhead
  rw [UInt8.toNat_ofNat', UInt8.toNat_ofNat', Rfc3610.lengthOctets] at htoNat
  rcases htag with rfl | rfl <;> split_ifs at htoNat <;> omega

omit hnonce in
/-- **Counter blocks are distinct** while the counter fits. -/
theorem counterBlock_inj {i j : ℕ} (hi : i < 256 ^ Rfc3610.lengthOctets nonce)
    (hj : j < 256 ^ Rfc3610.lengthOctets nonce)
    (heq : Rfc3610.counterBlock nonce i = Rfc3610.counterBlock nonce j) : i = j := by
  have htail := List.append_cancel_left (List.tail_eq_of_cons_eq heq)
  exact bigEndian_inj hi hj htail

end blocksMade

/-! ## The cipher in its mode -/

section mode

variable (key : Bytes)

variable {mac aad : Bytes} {tagLength : ℕ}

theorem ccmMacBlock_eq {block : Bytes} (hmac : mac.length = 16) (hblock : block.length = 16) :
    ccmMacBlock (scheduled key 44) block mac = Rfc3610.chain (Fips197.cipher key) mac block := by
  rw [ccmMacBlock, aes128EncryptBlock_eq _ (by simp [hmac, hblock]), Rfc3610.chain]

theorem foldl_ccmMacBlock {bs : List Bytes} (hbs : ∀ b ∈ bs, b.length = 16)
    (hmac : mac.length = 16) :
    (bs.foldl (fun mac block => ccmMacBlock (scheduled key 44) block mac) mac).length = 16 ∧
      bs.foldl (fun mac block => ccmMacBlock (scheduled key 44) block mac) mac =
        bs.foldl (Rfc3610.chain (Fips197.cipher key)) mac := by
  induction bs generalizing mac with
  | nil =>
    rw [List.foldl_nil, List.foldl_nil]
    exact ⟨hmac, rfl⟩
  | cons b bs ih =>
    have hb := ccmMacBlock_eq key hmac (hbs b (by simp))
    rw [List.foldl_cons, List.foldl_cons, hb]
    exact ih (fun c hc => hbs c (by simp [hc])) (cipher_length _ _)

theorem ccmAad_eq (haad : aad.length < 0xff00) (hmac : mac.length = 16) :
    (if aad.length ≠ 0 then
      ccmAadLoop (scheduled key 44) (zeroFilled [UInt8.ofNat (aad.length >>> 8 &&& 0xff),
        UInt8.ofNat (aad.length &&& 0xff)]) 2 mac aad
      else mac).length = 16 ∧
    (if aad.length ≠ 0 then
      ccmAadLoop (scheduled key 44) (zeroFilled [UInt8.ofNat (aad.length >>> 8 &&& 0xff),
        UInt8.ofNat (aad.length &&& 0xff)]) 2 mac aad
      else mac) =
      (if aad = [] then [] else blocks (padded (Rfc3610.encodedLength aad.length ++ aad))).foldl
        (Rfc3610.chain (Fips197.cipher key)) mac := by
  rcases eq_or_ne aad [] with rfl | hne
  · rw [if_neg (by simp), if_pos rfl, List.foldl_nil]
    exact ⟨hmac, rfl⟩
  · have hfront : [UInt8.ofNat (aad.length >>> 8 &&& 0xff), UInt8.ofNat (aad.length &&& 0xff)] =
        Rfc3610.encodedLength aad.length := by
      rw [Rfc3610.encodedLength, if_pos (by omega), ← writeBigEndianLength_eq]
      rfl
    rw [if_pos (mt List.length_eq_zero_iff.1 hne), if_neg hne, hfront,
      ccmAadLoop_eq (scheduled key 44) aad (by rw [← hfront]; rfl)]
    exact foldl_ccmMacBlock key (length_of_mem_padded _) hmac

variable {nonce : Bytes} (hnonce : 7 ≤ nonce.length ∧ nonce.length ≤ 13)

include hnonce

theorem ccmPayloadLengthFits_iff {l : ℕ} (hl : l ≤ maxSizeT) :
    ccmPayloadLengthFits l (Rfc3610.lengthOctets nonce) = true ↔
      l < 256 ^ Rfc3610.lengthOctets nonce := by
  have hrange : 2 ≤ Rfc3610.lengthOctets nonce ∧ Rfc3610.lengthOctets nonce ≤ 8 := by
    rw [Rfc3610.lengthOctets]
    omega
  obtain ⟨hlow, hhigh⟩ := hrange
  have hpow : 1 <<< (Rfc3610.lengthOctets nonce * 8) = 256 ^ Rfc3610.lengthOctets nonce := by
    rw [Nat.one_shiftLeft, Nat.mul_comm, Nat.pow_mul]
  have hpos : 0 < 256 ^ Rfc3610.lengthOctets nonce := Nat.pow_pos (by norm_num)
  rw [ccmPayloadLengthFits, hpow, Bool.or_eq_true, decide_eq_true_iff, decide_eq_true_iff]
  constructor
  · rintro (hlong | hle)
    · rw [show Rfc3610.lengthOctets nonce = 8 by omega]
      exact hl.trans_lt (by norm_num [maxSizeT])
    · omega
  · intro hlt
    omega

/-- **`CcmComputeMac` is the authentication**, where it takes the lengths. -/
theorem ccmComputeMac_eq (htag : tagLength = 8 ∨ tagLength = 16) {text : Bytes}
    (haad : aad.length < 0xff00) (hfits : text.length < 256 ^ Rfc3610.lengthOctets nonce)
    (hsize : text.length ≤ maxSizeT) :
    ∃ mac, ccmComputeMac (scheduled key 44) nonce aad text tagLength (zeroFilled []) = .ok mac ∧
      mac.length = 16 ∧ mac.take tagLength = Rfc3610.authenticator (Fips197.cipher key) tagLength nonce aad text := by
  have hguard : ¬ (¬ ccmPayloadLengthFits text.length (aesBlockLength - 1 - nonce.length) ∨
      0xff00 ≤ aad.length) := by
    rintro (h | h)
    · exact h ((ccmPayloadLengthFits_iff hnonce hsize).2 hfits)
    · omega
  have hfirst : ccmMacBlock (scheduled key 44) (ccmFirstBlock nonce aad.length text.length tagLength)
      (zeroFilled []) = Fips197.cipher key (Rfc3610.firstBlock tagLength nonce aad text) := by
    have hlen := firstBlock_length hnonce tagLength aad text
    have hzero (t : Bytes) : List.zipWith (· ^^^ ·) (List.replicate t.length (0 : UInt8)) t = t := by
      induction t with
      | nil => rfl
      | cons c t ih => simp [List.replicate_succ, ih]
    rw [ccmFirstBlock_eq hnonce htag, ccmMacBlock, zeroFilled, List.nil_append, List.length_nil,
      Nat.sub_zero, aesBlockLength, ← hlen, hzero, aes128EncryptBlock_eq _ hlen]
  obtain ⟨hlen, haadLoop⟩ :=
    ccmAad_eq key haad (cipher_length key (Rfc3610.firstBlock tagLength nonce aad text))
  obtain ⟨hmac, htextLoop⟩ := foldl_ccmMacBlock key (length_of_mem_padded text) hlen
  refine ⟨_, by rw [ccmComputeMac, if_neg hguard], ?_⟩
  rw [hfirst, ccmTextLoop_eq]
  refine ⟨hmac, ?_⟩
  rw [htextLoop, haadLoop, Rfc3610.authenticator, Rfc3610.authenticationBlocks, List.foldl_append]

omit hnonce in
theorem crypt_length (nonce text : Bytes) :
    (Rfc3610.crypt (Fips197.cipher key) nonce text).length = text.length := by
  rw [Rfc3610.crypt, List.length_zipWith, List.length_flatMap]
  simp only [cipher_length, List.map_const', List.sum_replicate, List.length_range, smul_eq_mul]
  omega

omit hnonce in
/-- **Encrypting twice** yields the text again. -/
theorem crypt_crypt (nonce text : Bytes) :
    Rfc3610.crypt (Fips197.cipher key) nonce (Rfc3610.crypt (Fips197.cipher key) nonce text) =
      text := by
  have htwice (t x : Bytes) (hlen : t.length ≤ x.length) :
      List.zipWith (· ^^^ ·) (List.zipWith (· ^^^ ·) t x) x = t := by
    induction t generalizing x with
    | nil => rfl
    | cons c t ih =>
      match x, hlen with
      | d :: x, hlen =>
        rw [List.zipWith_cons_cons, List.zipWith_cons_cons, UInt8.xor_assoc, UInt8.xor_self,
          UInt8.xor_zero, ih x (by simpa using hlen)]
  have hlen := crypt_length key nonce text
  rw [Rfc3610.crypt, hlen, Rfc3610.crypt]
  apply htwice
  rw [List.length_flatMap]
  simp only [cipher_length, List.map_const', List.sum_replicate, List.length_range, smul_eq_mul]
  omega

/-- A counter block under the cipher. -/
theorem streamBlock_eq (i : ℕ) :
    aes128EncryptBlock (scheduled key 44) (buildCcmCounterBlock nonce i) =
      Fips197.cipher key (Rfc3610.counterBlock nonce i) := by
  rw [buildCcmCounterBlock_eq, aes128EncryptBlock_eq _ (counterBlock_length hnonce i)]

theorem ccmCryptLoop_eq (written input : Bytes) {counterValue m : ℕ} (hm : input.length ≤ 16 * m)
    (hcounter : counterValue + (input.length + 15) / 16 ≤ maxSizeT) :
    ccmCryptLoop (scheduled key 44) nonce counterValue written input = (statusSuccess, written ++
      List.zipWith (· ^^^ ·) input ((List.range m).flatMap fun i =>
        Fips197.cipher key (Rfc3610.counterBlock nonce (counterValue + i)))) := by
  induction m generalizing counterValue written input with
  | zero =>
    obtain rfl : input = [] := List.length_eq_zero_iff.1 (by omega)
    rw [ccmCryptLoop, if_neg (by simp), List.zipWith_nil_left, List.append_nil]
  | succ m ih =>
    rcases Nat.eq_zero_or_pos input.length with hempty | hpos
    · obtain rfl : input = [] := List.length_eq_zero_iff.1 hempty
      rw [ccmCryptLoop, if_neg (by simp), List.zipWith_nil_left, List.append_nil]
    · have hrest : (input.drop 16).length ≤ 16 * m := by
        rw [List.length_drop]
        omega
      have hnext : counterValue + 1 + ((input.drop 16).length + 15) / 16 ≤ maxSizeT := by
        rw [List.length_drop]
        omega
      rw [ccmCryptLoop, if_pos hpos]
      simp only [streamBlock_eq key hnonce, aesBlockLength]
      rw [if_neg (by omega), ih _ _ hrest hnext,
        zipWith_flatMap_succ _ _ (cipher_length key (Rfc3610.counterBlock nonce (counterValue + 0))),
        List.append_assoc]
      simp only [Nat.add_assoc, Nat.add_comm 1, Nat.add_zero]

/-- **`CcmCrypt` is the encryption**, with room for its output. -/
theorem ccmCrypt_eq {input output : Bytes} (hroom : input.length ≤ output.length)
    (hsize : input.length ≤ maxSizeT) :
    ccmCrypt (scheduled key 44) nonce input output = (statusSuccess,
      Rfc3610.crypt (Fips197.cipher key) nonce input ++ output.drop input.length) := by
  have hcounter : 1 + (input.length + 15) / 16 ≤ maxSizeT := by
    simp only [maxSizeT] at hsize ⊢
    omega
  have hloop := ccmCryptLoop_eq key hnonce [] input (m := input.length / 16 + 1) (by omega) hcounter
  rw [ccmCrypt, if_neg (by omega), hloop]
  simp only [List.nil_append, Nat.add_comm 1]
  rw [← Rfc3610.crypt, crypt_length]

/-- The tag that either direction computes. -/
theorem ccmTag_eq {text : Bytes} (hmac : mac.take tagLength =
      Rfc3610.authenticator (Fips197.cipher key) tagLength nonce aad text)
    (hfits : text.length < 256 ^ Rfc3610.lengthOctets nonce) :
    Rfc3610.tag (Fips197.cipher key) tagLength nonce aad text =
      some (ccmTag (scheduled key 44) nonce mac tagLength) := by
  rw [Rfc3610.tag, if_pos hfits, ccmTag, hmac, streamBlock_eq key hnonce]

end mode

/-! ## The two directions -/

section directions

variable {key : Bytes} (hkey : key.length = 16) {nonce : Bytes}
  (hnonce : 7 ≤ nonce.length ∧ nonce.length ≤ 13) {tagLength : ℕ}
  (htagLength : tagLength = 8 ∨ tagLength = 16)

include hkey hnonce htagLength

theorem validAesCcm_of : validAesCcm key nonce tagLength = true := by
  rcases htagLength with rfl | rfl <;> simp [validAesCcm, hkey, hnonce.1, hnonce.2]

variable {aad ciphertext tag plaintext : Bytes}

/-- **Encrypting** yields the ciphertext and the tag. -/
theorem aesCcmEncrypt_eq {text : Bytes} (haad : aad.length < 0xff00)
    (hfits : text.length < 256 ^ Rfc3610.lengthOctets nonce) (hsize : text.length ≤ maxSizeT)
    (hroom : text.length ≤ ciphertext.length) (htag : tag.length = tagLength) :
    ∃ t, Rfc3610.tag (Fips197.cipher key) tagLength nonce aad text = some t ∧
      aesCcmEncrypt key { nonce := nonce, aad := aad } text ciphertext tag =
        { status := statusSuccess
          ciphertext := Rfc3610.crypt (Fips197.cipher key) nonce text ++ ciphertext.drop text.length
          tag := t
          bytesWritten := text.length } := by
  obtain ⟨mac, hcompute, -, hmac⟩ := ccmComputeMac_eq key hnonce htagLength haad hfits hsize
  refine ⟨_, ccmTag_eq key hnonce hmac hfits, ?_⟩
  have hguard : ¬ (¬ validAesCcm key nonce tag.length ∨ ciphertext.length < text.length) := by
    rintro (h | h)
    · exact h (htag ▸ validAesCcm_of hkey hnonce htagLength)
    · omega
  rw [aesCcmEncrypt, if_neg hguard, aes128Initialize_eq hkey]
  simp only [htag, hcompute, ccmCrypt_eq key hnonce hroom hsize]
  rfl

/-- **Decrypting**: the plaintext is there, and the tag says whether it stays. -/
theorem aesCcmDecrypt_eq (haad : aad.length < 0xff00)
    (hfits : ciphertext.length < 256 ^ Rfc3610.lengthOctets nonce)
    (hsize : ciphertext.length ≤ maxSizeT) (hroom : ciphertext.length ≤ plaintext.length)
    (htag : tag.length = tagLength) :
    aesCcmDecrypt key { nonce := nonce, aad := aad, tag := tag } ciphertext plaintext =
      if Rfc3610.tag (Fips197.cipher key) tagLength nonce aad
          (Rfc3610.crypt (Fips197.cipher key) nonce ciphertext) = some tag then
        { status := statusSuccess
          plaintext := Rfc3610.crypt (Fips197.cipher key) nonce ciphertext ++
            plaintext.drop ciphertext.length
          bytesWritten := ciphertext.length }
      else
        { status := statusInvalidSignature
          plaintext := List.replicate plaintext.length 0
          bytesWritten := 0 } := by
  have hlen := crypt_length key nonce ciphertext
  have hfits' : (Rfc3610.crypt (Fips197.cipher key) nonce ciphertext).length <
      256 ^ Rfc3610.lengthOctets nonce := hlen ▸ hfits
  obtain ⟨mac, hcompute, hmacLength, hmac⟩ :=
    ccmComputeMac_eq key hnonce htagLength haad hfits' (by rwa [hlen])
  have hguard : ¬ (¬ validAesCcm key nonce tag.length ∨ plaintext.length < ciphertext.length) := by
    rintro (h | h)
    · exact h (htag ▸ validAesCcm_of hkey hnonce htagLength)
    · omega
  have hexpected : (ccmTag (scheduled key 44) nonce mac tagLength).length = tag.length := by
    rw [ccmTag, streamBlock_eq key hnonce, List.length_zipWith, List.length_take, hmacLength,
      cipher_length, htag]
    omega
  rw [aesCcmDecrypt, if_neg hguard, aes128Initialize_eq hkey]
  simp only [htag, ccmCrypt_eq key hnonce hroom hsize, List.take_left' hlen, hcompute,
    memoryEquals_iff hexpected, ccmTag_eq key hnonce hmac hfits', Option.some.injEq]
  have hwhole : (Rfc3610.crypt (Fips197.cipher key) nonce ciphertext ++
      plaintext.drop ciphertext.length).length = plaintext.length := by
    rw [List.length_append, hlen, List.length_drop]
    omega
  rw [if_neg (by simp), hwhole, ite_not]

/-- **Lengths that `CcmComputeMac` refuses** are refused when the plaintext is there. -/
theorem aesCcmDecrypt_of_refused
    (hrefused : 0xff00 ≤ aad.length ∨ 256 ^ Rfc3610.lengthOctets nonce ≤ ciphertext.length)
    (hsize : ciphertext.length ≤ maxSizeT) (hroom : ciphertext.length ≤ plaintext.length)
    (htag : tag.length = tagLength) :
    aesCcmDecrypt key { nonce := nonce, aad := aad, tag := tag } ciphertext plaintext =
      { status := statusInvalidParameter
        plaintext := Rfc3610.crypt (Fips197.cipher key) nonce ciphertext ++
          plaintext.drop ciphertext.length
        bytesWritten := 0 } := by
  have hguard : ¬ (¬ validAesCcm key nonce tag.length ∨ plaintext.length < ciphertext.length) := by
    rintro (h | h)
    · exact h (htag ▸ validAesCcm_of hkey hnonce htagLength)
    · omega
  have htake : (Rfc3610.crypt (Fips197.cipher key) nonce ciphertext ++
      plaintext.drop ciphertext.length).take ciphertext.length =
      Rfc3610.crypt (Fips197.cipher key) nonce ciphertext :=
    List.take_left' (crypt_length key nonce ciphertext)
  have hrefuse : ¬ ccmPayloadLengthFits ciphertext.length (aesBlockLength - 1 - nonce.length) ∨
      0xff00 ≤ aad.length := by
    rcases hrefused with h | h
    · exact Or.inr h
    · rw [lengthFieldLength_eq, ccmPayloadLengthFits_iff hnonce hsize]
      omega
  rw [aesCcmDecrypt, if_neg hguard, aes128Initialize_eq hkey]
  simp only [ccmCrypt_eq key hnonce hroom hsize, htake, ccmComputeMac, crypt_length, if_pos hrefuse]
  rfl

end directions

/-- **AES-128-CCM is RFC 3610**: encrypting yields its ciphertext and tag; decrypting succeeds
    exactly for the tag of the decrypted text, and then encrypting again yields the ciphertext
    and the tag; the blocks that are ciphered for a message are distinct. -/
theorem aesCcm_agrees {key nonce aad : Bytes} {tagLength : ℕ} (hkey : key.length = 16)
    (hnonce : 7 ≤ nonce.length ∧ nonce.length ≤ 13) (htagLength : tagLength = 8 ∨ tagLength = 16)
    (haad : aad.length < 0xff00) :
    (∀ text ciphertext tag : Bytes, text.length < 256 ^ Rfc3610.lengthOctets nonce →
      text.length ≤ ciphertext.length → tag.length = tagLength →
      ∃ t, Rfc3610.tag (Fips197.cipher key) tagLength nonce aad text = some t ∧
        aesCcmEncrypt key { nonce := nonce, aad := aad } text ciphertext tag =
          { status := statusSuccess
            ciphertext := Rfc3610.crypt (Fips197.cipher key) nonce text ++
              ciphertext.drop text.length
            tag := t
            bytesWritten := text.length }) ∧
    (∀ ciphertext plaintext tag : Bytes, ciphertext.length ≤ maxSizeT →
      ciphertext.length ≤ plaintext.length → tag.length = tagLength →
      let text := Rfc3610.crypt (Fips197.cipher key) nonce ciphertext
      let r := aesCcmDecrypt key { nonce := nonce, aad := aad, tag := tag } ciphertext plaintext
      (ntSuccess r.status = true ↔
        Rfc3610.tag (Fips197.cipher key) tagLength nonce aad text = some tag) ∧
      (ntSuccess r.status = true →
        r.plaintext = text ++ plaintext.drop ciphertext.length ∧
        r.bytesWritten = ciphertext.length ∧
        ∀ again tag' : Bytes, text.length ≤ again.length → tag'.length = tagLength →
          aesCcmEncrypt key { nonce := nonce, aad := aad } text again tag' =
            { status := statusSuccess
              ciphertext := ciphertext ++ again.drop ciphertext.length
              tag := tag
              bytesWritten := ciphertext.length })) ∧
    (∀ text : Bytes, text.length < 256 ^ Rfc3610.lengthOctets nonce →
      (∀ i ≤ (text.length + 15) / 16, ∀ j ≤ (text.length + 15) / 16,
        buildCcmCounterBlock nonce i = buildCcmCounterBlock nonce j → i = j) ∧
      ∀ i, buildCcmCounterBlock nonce i ≠
        ccmFirstBlock nonce aad.length text.length tagLength) := by
  have hoctets : 256 ^ Rfc3610.lengthOctets nonce ≤ 256 ^ 8 := by
    apply Nat.pow_le_pow_right (by norm_num)
    rw [Rfc3610.lengthOctets]
    omega
  have hmax : maxSizeT = 256 ^ 8 - 1 := by norm_num [maxSizeT]
  refine ⟨?_, ?_, ?_⟩
  · intro text ciphertext tag hfits hroom htag
    exact aesCcmEncrypt_eq hkey hnonce htagLength haad hfits (by omega) hroom htag
  · intro ciphertext plaintext tag hsize hroom htag text r
    have hlen : text.length = ciphertext.length := crypt_length key nonce ciphertext
    rcases Nat.lt_or_ge ciphertext.length (256 ^ Rfc3610.lengthOctets nonce) with hfits | hlong
    · have hdecrypt : r = _ := aesCcmDecrypt_eq hkey hnonce htagLength haad hfits hsize hroom htag
      rw [hdecrypt]
      split_ifs with h
      · refine ⟨iff_of_true rfl h, fun _ => ⟨rfl, rfl, ?_⟩⟩
        intro again tag' hroom' htag'
        have hfits' : text.length < 256 ^ Rfc3610.lengthOctets nonce := hlen ▸ hfits
        obtain ⟨t, ht, hencrypt⟩ :=
          aesCcmEncrypt_eq hkey hnonce htagLength haad hfits' (by omega) hroom' htag'
        obtain rfl : tag = t := Option.some.inj (h.symm.trans ht)
        rw [hencrypt, hlen, crypt_crypt]
      · refine ⟨iff_of_false (by simp) h, fun hsuccess => ?_⟩
        simp at hsuccess
    · have hfail : ntSuccess r.status = false := congrArg (fun r => ntSuccess r.status)
        (aesCcmDecrypt_of_refused hkey hnonce htagLength (Or.inr hlong) hsize hroom htag)
      have hnone : Rfc3610.tag (Fips197.cipher key) tagLength nonce aad text = none :=
        if_neg (by omega)
      refine ⟨iff_of_false (by simp [hfail]) (by simp [hnone]), fun hsuccess => ?_⟩
      simp [hfail] at hsuccess
  · intro text hfits
    simp only [buildCcmCounterBlock_eq, ccmFirstBlock_eq hnonce htagLength]
    refine ⟨fun i hi j hj heq => ?_, counterBlock_ne_firstBlock htagLength aad text⟩
    exact counterBlock_inj (by omega) (by omega) heq

/-- The agreement for a key and a nonce of zeros, three octets of associated data and a tag of eight
octets: what is encrypted is RFC 3610's, and so is what is decrypted. -/
theorem aesCcm_agrees_zeros :
    let key : Bytes := List.replicate 16 0
    let nonce : Bytes := List.replicate 13 0
    let aad : Bytes := [10, 20, 30]
    let zeros : Bytes := List.replicate 8 0
    (∃ t, Rfc3610.tag (Fips197.cipher key) 8 nonce aad [1, 2, 3] = some t ∧
      aesCcmEncrypt key { nonce := nonce, aad := aad } [1, 2, 3] [0, 0, 0, 0] zeros =
        { status := statusSuccess
          ciphertext := Rfc3610.crypt (Fips197.cipher key) nonce [1, 2, 3] ++ [0]
          tag := t
          bytesWritten := 3 }) ∧
    (ntSuccess (aesCcmDecrypt key { nonce := nonce, aad := aad, tag := zeros } [1, 2, 3]
        [0, 0, 0]).status = true ↔
      Rfc3610.tag (Fips197.cipher key) 8 nonce aad
        (Rfc3610.crypt (Fips197.cipher key) nonce [1, 2, 3]) = some zeros) ∧
    buildCcmCounterBlock nonce 0 ≠ ccmFirstBlock nonce 3 3 8 := by
  intro key nonce aad zeros
  obtain ⟨hencrypt, hdecrypt, hblocks⟩ := @aesCcm_agrees key nonce aad 8 List.length_replicate
    ⟨by decide, by decide⟩ (Or.inl rfl) (by decide)
  exact ⟨hencrypt [1, 2, 3] [0, 0, 0, 0] zeros (by decide) (by decide) rfl,
    (hdecrypt [1, 2, 3] [0, 0, 0] zeros (by decide) (by decide) rfl).1,
    (hblocks [1, 2, 3] (by decide)).2 0⟩

end KernelHttp.Crypto
