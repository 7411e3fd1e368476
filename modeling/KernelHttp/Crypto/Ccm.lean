/-
  The mode CCM (`crypto/Aead.cpp`).

  The block cipher is used through its round keys.  A `SIZE_T` has 64 bits.
-/
import KernelHttp.Crypto.Aes

namespace KernelHttp.Crypto

def writeBigEndianLength (value length : ℕ) : Bytes :=
  (List.range length).map fun index => UInt8.ofNat (value >>> ((length - 1 - index) * 8) &&& 0xff)

/-- The octets of a block that are given, the others zero. -/
def zeroFilled (t : Bytes) : Bytes := t ++ List.replicate (aesBlockLength - t.length) 0

def ccmPayloadLengthFits (payloadLength lengthFieldLength : ℕ) : Bool :=
  8 ≤ lengthFieldLength || payloadLength ≤ 1 <<< (lengthFieldLength * 8) - 1

def buildCcmCounterBlock (nonce : Bytes) (counterValue : ℕ) : Bytes :=
  let lengthFieldLength := aesBlockLength - 1 - nonce.length
  UInt8.ofNat (lengthFieldLength - 1) ::
    (nonce ++ writeBigEndianLength counterValue lengthFieldLength)

def ccmMacBlock (roundKeys block mac : Bytes) : Bytes :=
  aes128EncryptBlock roundKeys (List.zipWith (· ^^^ ·) mac block)

/-- The first block in `CcmComputeMac`. -/
def ccmFirstBlock (nonce : Bytes) (aadLength plaintextLength tagLength : ℕ) : Bytes :=
  let lengthFieldLength := aesBlockLength - 1 - nonce.length
  UInt8.ofNat ((if aadLength ≠ 0 then 0x40 else 0) ||| ((tagLength - 2) / 2) <<< 3 |||
    (lengthFieldLength - 1)) :: (nonce ++ writeBigEndianLength plaintextLength lengthFieldLength)

/-- The loop of `CcmComputeMac` over the additional data.  In the block, `blockOffset` octets
    are used. -/
def ccmAadLoop (roundKeys block : Bytes) (blockOffset : Fin 16) (mac aad : Bytes) : Bytes :=
  if 0 < aad.length then
    let chunk := min aad.length (aesBlockLength - blockOffset)
    let block := block.take blockOffset ++ aad.take chunk ++ block.drop (blockOffset + chunk)
    if h : blockOffset + chunk = aesBlockLength then
      ccmAadLoop roundKeys (zeroFilled []) 0 (ccmMacBlock roundKeys block mac) (aad.drop chunk)
    else
      have hlt : blockOffset + chunk < 16 := by
        have hle : chunk ≤ aesBlockLength - blockOffset := Nat.min_le_right _ _
        have h16 : aesBlockLength = 16 := rfl
        omega
      ccmAadLoop roundKeys block ⟨blockOffset + chunk, hlt⟩ mac (aad.drop chunk)
  else if blockOffset.val ≠ 0 then ccmMacBlock roundKeys block mac
  else mac
termination_by aad.length
decreasing_by
  all_goals
    have h16 : aesBlockLength = 16 := rfl
    simp only [List.length_drop]
    omega

/-- The loop of `CcmComputeMac` over the plaintext. -/
def ccmTextLoop (roundKeys mac plaintext : Bytes) : Bytes :=
  if 0 < plaintext.length then
    ccmTextLoop roundKeys
      (ccmMacBlock roundKeys (zeroFilled (plaintext.take aesBlockLength)) mac)
      (plaintext.drop aesBlockLength)
  else mac
termination_by plaintext.length
decreasing_by
  simp only [List.length_drop, aesBlockLength]
  omega

def ccmComputeMac (roundKeys nonce aad plaintext : Bytes) (tagLength : ℕ) (mac : Bytes) :
    Except NTSTATUS Bytes :=
  if ¬ ccmPayloadLengthFits plaintext.length (aesBlockLength - 1 - nonce.length) ∨
      0xff00 ≤ aad.length then .error statusInvalidParameter
  else
    let mac := ccmMacBlock roundKeys (ccmFirstBlock nonce aad.length plaintext.length tagLength) mac
    let mac :=
      if aad.length ≠ 0 then
        ccmAadLoop roundKeys
          (zeroFilled [UInt8.ofNat (aad.length >>> 8 &&& 0xff), UInt8.ofNat (aad.length &&& 0xff)])
          2 mac aad
      else mac
    .ok (ccmTextLoop roundKeys mac plaintext)

/-- The loop of `CcmCrypt`, with what it has written. -/
def ccmCryptLoop (roundKeys nonce : Bytes) (counterValue : ℕ) (written input : Bytes) :
    NTSTATUS × Bytes :=
  if 0 < input.length then
    let stream := aes128EncryptBlock roundKeys (buildCcmCounterBlock nonce counterValue)
    let written := written ++ List.zipWith (· ^^^ ·) (input.take aesBlockLength) stream
    if counterValue = maxSizeT then (statusIntegerOverflow, written)
    else ccmCryptLoop roundKeys nonce (counterValue + 1) written (input.drop aesBlockLength)
  else (statusSuccess, written)
termination_by input.length
decreasing_by
  simp only [List.length_drop, aesBlockLength]
  omega

/-- `CcmCrypt`: the status and the output buffer. -/
def ccmCrypt (roundKeys nonce input output : Bytes) : NTSTATUS × Bytes :=
  if output.length < input.length then (statusInvalidParameter, output)
  else
    let (status, written) := ccmCryptLoop roundKeys nonce 1 [] input
    (status, written ++ output.drop written.length)

end KernelHttp.Crypto
