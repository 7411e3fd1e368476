/-
  ChaCha20-Poly1305 is RFC 8439 (`crypto/Aead.cpp`).
-/
import KernelHttp.Crypto.Aead
import KernelHttp.Crypto.ChaChaStream

namespace KernelHttp.Crypto

open BigEndian Checked Tls

/-! ## Octets of lengths -/

/-- Shifting out octets spells a number, lowest octet first. -/
theorem littleEndian_shifts (n v : ℕ) :
    ((List.range n).map fun index => UInt8.ofNat (v >>> (index * 8) &&& 0xff)) =
      (bigEndian n v).reverse := by
  induction n generalizing v with
  | zero => rfl
  | succ n ih =>
    rw [List.range_succ_eq_map, List.map_cons, List.map_map, littleEndian_succ, ← ih]
    congr 1
    · rw [Nat.zero_mul, Nat.shiftRight_zero, show 0xff = 2 ^ 8 - 1 by norm_num,
        Nat.and_two_pow_sub_one_eq_mod]
    · apply List.map_congr_left
      intro i _
      rw [Function.comp_apply, Nat.succ_mul, Nat.add_comm (i * 8), Nat.shiftRight_add,
        Nat.shiftRight_eq_div_pow v 8]

theorem writeLittleEndian64_eq (value : ℕ) :
    writeLittleEndian64 value = (bigEndian 8 value).reverse :=
  littleEndian_shifts 8 value

/-- Shifting out octets spells a number, highest octet first. -/
theorem writeBigEndianLength_eq (value length : ℕ) :
    writeBigEndianLength value length = bigEndian length value := by
  rw [← List.reverse_reverse (bigEndian length value), ← littleEndian_shifts, writeBigEndianLength]
  apply List.ext_getElem
  · simp
  · intro i h₁ h₂
    simp

/-! ## The comparison of tags -/

theorem foldl_or_eq_zero (t : Bytes) (diff : UInt8) :
    t.foldl (· ||| ·) diff = 0 ↔ diff = 0 ∧ ∀ c ∈ t, c = 0 := by
  have hor (c d : UInt8) : c ||| d = 0 ↔ c = 0 ∧ d = 0 := UInt8.or_eq_zero_iff
  induction t generalizing diff with
  | nil => simp
  | cons c t ih => simp [ih, hor, and_assoc]

theorem memoryEquals_iff {left right : Bytes} (hlen : left.length = right.length) :
    memoryEquals left right = true ↔ left = right := by
  have hxor (c d : UInt8) : c ^^^ d = 0 ↔ c = d := UInt8.xor_eq_zero_iff
  rw [memoryEquals, beq_iff_eq, foldl_or_eq_zero]
  constructor
  · rintro ⟨-, hzero⟩
    apply List.ext_getElem hlen
    intro i hl hr
    have hi : i < (List.zipWith (· ^^^ ·) left right).length := by
      rw [List.length_zipWith]
      omega
    have hmem := hzero _ (List.getElem_mem hi)
    rwa [List.getElem_zipWith, hxor] at hmem
  · rintro rfl
    refine ⟨rfl, fun c hc => ?_⟩
    rw [List.zipWith_self, List.mem_map] at hc
    obtain ⟨d, -, rfl⟩ := hc
    exact (hxor d d).2 rfl

/-! ## The input of the authenticator -/

theorem buildChaCha20Poly1305MacInput_eq (aad ciphertext : Bytes) :
    buildChaCha20Poly1305MacInput aad ciphertext = Rfc8439.macData aad ciphertext := by
  simp only [buildChaCha20Poly1305MacInput, Rfc8439.macData, padded, writeLittleEndian64_eq,
    List.append_assoc]

theorem polyKeyOf_eq (key nonce : Bytes) :
    polyKeyOf key nonce = (Rfc8439.block key 0 nonce).take 32 := by
  rw [polyKeyOf, ← chaCha20Block_eq]
  rfl

/-- The tag of a ciphertext, as either direction computes it. -/
theorem chaCha20Poly1305_tag (key nonce aad ciphertext : Bytes) :
    poly1305 (polyKeyOf key nonce) (buildChaCha20Poly1305MacInput aad ciphertext) =
      some (Rfc8439.tag key nonce aad ciphertext) := by
  rw [poly1305_eq, polyKeyOf_eq, buildChaCha20Poly1305MacInput_eq, Rfc8439.tag]

theorem encrypt_length (key nonce text : Bytes) (counter : ℕ) :
    (Rfc8439.encrypt key counter nonce text).length = text.length := by
  have hstream : (Rfc8439.keyStream key counter nonce text.length).length = text.length := by
    rw [Rfc8439.keyStream, List.length_take, List.length_flatMap]
    simp only [block_length, List.map_const', List.sum_replicate, List.length_range, smul_eq_mul]
    omega
  rw [Rfc8439.encrypt, List.length_zipWith, hstream, Nat.min_self]

/-- `ChaCha20Xor` with room for its output. -/
theorem chaCha20Xor_eq {input output : Bytes} (hroom : input.length ≤ output.length)
    (key nonce : Bytes) :
    chaCha20Xor key 1 nonce input output =
      .ok (Rfc8439.encrypt key 1 nonce input ++ output.drop input.length) := by
  rw [chaCha20Xor, if_neg (by omega), ← chaCha20XorLoop_encrypt]
  rfl

/-- A call that decrypts with room for the plaintext and a tag of sixteen octets. -/
theorem chaCha20Poly1305Decrypt_eq {key : Bytes} {parameters : AeadParameters}
    {ciphertext plaintext : Bytes} (hvalid : validChaCha20Poly1305 key parameters.nonce = true)
    (hroom : ciphertext.length ≤ plaintext.length) (htag : parameters.tag.length = 16) :
    chaCha20Poly1305Decrypt key parameters ciphertext plaintext = some
      (if Rfc8439.tag key parameters.nonce parameters.aad ciphertext = parameters.tag then
        ⟨statusSuccess, Rfc8439.encrypt key 1 parameters.nonce ciphertext ++
          plaintext.drop ciphertext.length, ciphertext.length⟩
      else ⟨statusInvalidSignature, plaintext, 0⟩) := by
  have hguard : ¬ (¬ validChaCha20Poly1305 key parameters.nonce = true ∨
      plaintext.length < ciphertext.length ∨
      parameters.tag.length ≠ aeadChaCha20Poly1305TagLength) := by
    rintro (h | h | h)
    · exact h hvalid
    · omega
    · exact h htag
  have hlen : (Rfc8439.tag key parameters.nonce parameters.aad ciphertext).length =
      parameters.tag.length := by
    rw [htag, Rfc8439.tag, Rfc8439.mac, List.length_reverse, bigEndian_length]
  rw [chaCha20Poly1305Decrypt, if_neg hguard,
    bind_of_some (chaCha20Poly1305_tag key parameters.nonce parameters.aad ciphertext)]
  simp only [memoryEquals_iff hlen, chaCha20Xor_eq hroom]
  split_ifs <;> rfl

/-- **ChaCha20-Poly1305 is RFC 8439**: encrypting yields its ciphertext and tag, decrypting
    succeeds exactly for its tag and yields the text combined with the key stream.  The
    authenticator is computed for every key and message, so no limb or carry loses a bit. -/
theorem chaCha20Poly1305_agrees (key nonce aad text : Bytes) (hkey : key.length = 32)
    (hnonce : nonce.length = 12) :
    (∀ ciphertext tag : Bytes, text.length ≤ ciphertext.length → tag.length = 16 →
      chaCha20Poly1305Encrypt key { nonce := nonce, aad := aad } text ciphertext tag =
        some { status := statusSuccess
               ciphertext := Rfc8439.encrypt key 1 nonce text ++ ciphertext.drop text.length
               tag := Rfc8439.tag key nonce aad (Rfc8439.encrypt key 1 nonce text)
               bytesWritten := text.length }) ∧
    (∀ tag plaintext : Bytes, text.length ≤ plaintext.length → tag.length = 16 →
      ∃ r, chaCha20Poly1305Decrypt key { nonce := nonce, aad := aad, tag := tag } text plaintext =
          some r ∧
        (ntSuccess r.status = true ↔ tag = Rfc8439.tag key nonce aad text) ∧
        (ntSuccess r.status = true →
          r.plaintext = Rfc8439.encrypt key 1 nonce text ++ plaintext.drop text.length ∧
          r.bytesWritten = text.length)) ∧
    ∀ oneTimeKey message : Bytes,
      poly1305 oneTimeKey message = some (Rfc8439.mac oneTimeKey message) := by
  have hvalid : validChaCha20Poly1305 key nonce = true := by
    simp [validChaCha20Poly1305, hkey, hnonce]
  refine ⟨fun ciphertext tag hroom htag => ?_, fun tag plaintext hroom htag => ?_, poly1305_eq⟩
  · have hguard : ¬ (¬ validChaCha20Poly1305 key nonce = true ∨
        ciphertext.length < text.length ∨ tag.length ≠ aeadChaCha20Poly1305TagLength) := by
      rintro (h | h | h)
      · exact h hvalid
      · omega
      · exact h htag
    have htake : (Rfc8439.encrypt key 1 nonce text ++ ciphertext.drop text.length).take text.length =
        Rfc8439.encrypt key 1 nonce text := List.take_left' (encrypt_length key nonce text 1)
    rw [chaCha20Poly1305Encrypt, if_neg hguard]
    simp only [chaCha20Xor_eq hroom, htake]
    exact bind_of_some (chaCha20Poly1305_tag key nonce aad _) _
  · refine ⟨_, chaCha20Poly1305Decrypt_eq hvalid hroom htag, ?_⟩
    split_ifs with h
    · exact ⟨iff_of_true rfl h.symm, fun _ => ⟨rfl, rfl⟩⟩
    · refine ⟨iff_of_false (by simp) fun heq => h heq.symm, fun hsuccess => ?_⟩
      simp at hsuccess

/-- The agreement for keys, nonces and texts of zeros. -/
theorem chaCha20Poly1305_agrees_zeros :
    ∃ r, chaCha20Poly1305Encrypt (List.replicate 32 0) { nonce := List.replicate 12 0, aad := [] }
      [1, 2, 3] [0, 0, 0] (List.replicate 16 0) = some r ∧ r.bytesWritten = 3 := by
  have h := chaCha20Poly1305_agrees (List.replicate 32 0) (List.replicate 12 0) [] [1, 2, 3]
    List.length_replicate List.length_replicate
  exact ⟨_, h.1 [0, 0, 0] (List.replicate 16 0) (by decide) (by decide), rfl⟩

end KernelHttp.Crypto
