/-
  Authenticated encryption (`crypto/Aead.cpp`).

  An output buffer is given with what it holds before the call.  `Poly1305` is checked, so a
  call of ChaCha20-Poly1305 has no outcome where it loses a bit.
-/
import KernelHttp.Crypto.Ccm
import KernelHttp.Crypto.Poly1305
import KernelHttp.Tls.CipherSuites

namespace KernelHttp.Crypto

open Tls

def aeadChaCha20Poly1305TagLength : ℕ := 16

structure AeadParameters where
  nonce : Bytes
  aad : Bytes
  tag : Bytes := []

/-- What a call that encrypts leaves. -/
structure Encrypted where
  status : NTSTATUS
  ciphertext : Bytes
  tag : Bytes
  bytesWritten : ℕ
deriving DecidableEq

/-- What a call that decrypts leaves. -/
structure Decrypted where
  status : NTSTATUS
  plaintext : Bytes
  bytesWritten : ℕ
deriving DecidableEq

/-- `MemoryEquals`: the differences are collected. -/
def memoryEquals (left right : Bytes) : Bool :=
  (List.zipWith (· ^^^ ·) left right).foldl (· ||| ·) 0 == 0

/-! ## ChaCha20-Poly1305 -/

def writeLittleEndian64 (value : ℕ) : Bytes :=
  (List.range 8).map fun index => UInt8.ofNat (value >>> (index * 8) &&& 0xff)

def buildChaCha20Poly1305MacInput (aad ciphertext : Bytes) : Bytes :=
  let aadPadding := (16 - aad.length % 16) % 16
  let ciphertextPadding := (16 - ciphertext.length % 16) % 16
  aad ++ List.replicate aadPadding 0 ++ ciphertext ++ List.replicate ciphertextPadding 0 ++
    writeLittleEndian64 aad.length ++ writeLittleEndian64 ciphertext.length

def polyKeyOf (key nonce : Bytes) : Bytes := (chaCha20Block key 0 nonce).take 32

def chaCha20Poly1305Encrypt (key : Bytes) (parameters : AeadParameters)
    (plaintext ciphertext tag : Bytes) : Option Encrypted :=
  if ¬ validChaCha20Poly1305 key parameters.nonce ∨ ciphertext.length < plaintext.length ∨
      tag.length ≠ aeadChaCha20Poly1305TagLength then
    some ⟨statusInvalidParameter, ciphertext, tag, 0⟩
  else
    match chaCha20Xor key 1 parameters.nonce plaintext ciphertext with
    | .error status => some ⟨status, ciphertext, tag, 0⟩
    | .ok ciphertext => do
      let macInput := buildChaCha20Poly1305MacInput parameters.aad (ciphertext.take plaintext.length)
      let tag ← poly1305 (polyKeyOf key parameters.nonce) macInput
      some ⟨statusSuccess, ciphertext, tag, plaintext.length⟩

def chaCha20Poly1305Decrypt (key : Bytes) (parameters : AeadParameters)
    (ciphertext plaintext : Bytes) : Option Decrypted :=
  if ¬ validChaCha20Poly1305 key parameters.nonce ∨ plaintext.length < ciphertext.length ∨
      parameters.tag.length ≠ aeadChaCha20Poly1305TagLength then
    some ⟨statusInvalidParameter, plaintext, 0⟩
  else do
    let macInput := buildChaCha20Poly1305MacInput parameters.aad ciphertext
    let expectedTag ← poly1305 (polyKeyOf key parameters.nonce) macInput
    if ¬ memoryEquals expectedTag parameters.tag then some ⟨statusInvalidSignature, plaintext, 0⟩
    else
      match chaCha20Xor key 1 parameters.nonce ciphertext plaintext with
      | .error status => some ⟨status, plaintext, 0⟩
      | .ok plaintext => some ⟨statusSuccess, plaintext, ciphertext.length⟩

/-! ## AES-128-CCM -/

/-- The tag: the MAC and the block of the stream for the counter zero. -/
def ccmTag (roundKeys nonce mac : Bytes) (tagLength : ℕ) : Bytes :=
  List.zipWith (· ^^^ ·) (mac.take tagLength)
    (aes128EncryptBlock roundKeys (buildCcmCounterBlock nonce 0))

def aesCcmEncrypt (key : Bytes) (parameters : AeadParameters) (plaintext ciphertext tag : Bytes) :
    Encrypted :=
  if ¬ validAesCcm key parameters.nonce tag.length ∨ ciphertext.length < plaintext.length then
    ⟨statusInvalidParameter, ciphertext, tag, 0⟩
  else
    match aes128Initialize key with
    | .error status => ⟨status, ciphertext, tag, 0⟩
    | .ok roundKeys =>
      match ccmComputeMac roundKeys parameters.nonce parameters.aad plaintext tag.length
          (zeroFilled []) with
      | .error status => ⟨status, ciphertext, tag, 0⟩
      | .ok mac =>
        let (status, ciphertext) := ccmCrypt roundKeys parameters.nonce plaintext ciphertext
        if ¬ ntSuccess status then ⟨status, ciphertext, tag, 0⟩
        else
          ⟨status, ciphertext, ccmTag roundKeys parameters.nonce mac tag.length, plaintext.length⟩

/-- `AesCcmDecrypt`: the plaintext is there before the tag is compared. -/
def aesCcmDecrypt (key : Bytes) (parameters : AeadParameters) (ciphertext plaintext : Bytes) :
    Decrypted :=
  if ¬ validAesCcm key parameters.nonce parameters.tag.length ∨
      plaintext.length < ciphertext.length then
    ⟨statusInvalidParameter, plaintext, 0⟩
  else
    match aes128Initialize key with
    | .error status => ⟨status, plaintext, 0⟩
    | .ok roundKeys =>
      let (status, plaintext) := ccmCrypt roundKeys parameters.nonce ciphertext plaintext
      if ¬ ntSuccess status then ⟨status, plaintext, 0⟩
      else
        match ccmComputeMac roundKeys parameters.nonce parameters.aad
            (plaintext.take ciphertext.length) parameters.tag.length (zeroFilled []) with
        | .error status => ⟨status, plaintext, 0⟩
        | .ok mac =>
          let expectedTag := ccmTag roundKeys parameters.nonce mac parameters.tag.length
          if ¬ memoryEquals expectedTag parameters.tag then
            ⟨statusInvalidSignature, List.replicate plaintext.length 0, 0⟩
          else ⟨status, plaintext, ciphertext.length⟩

/-! ## The choice of the algorithm -/

/-- `Aead::Decrypt`; AES-GCM is the platform's. -/
def aeadDecrypt (decryptAesGcm : Bytes → AeadParameters → Bytes → Bytes → Decrypted)
    (algorithm : AeadAlgorithm) (key : Bytes) (parameters : AeadParameters)
    (ciphertext plaintext : Bytes) : Option Decrypted :=
  match algorithm with
  | .aes128Gcm =>
    if key.length ≠ 16 then some ⟨statusInvalidParameter, plaintext, 0⟩
    else some (decryptAesGcm key parameters ciphertext plaintext)
  | .aes256Gcm =>
    if key.length ≠ 32 then some ⟨statusInvalidParameter, plaintext, 0⟩
    else some (decryptAesGcm key parameters ciphertext plaintext)
  | .chaCha20Poly1305 => chaCha20Poly1305Decrypt key parameters ciphertext plaintext
  | .aes128Ccm =>
    if parameters.tag.length ≠ 16 then some ⟨statusInvalidParameter, plaintext, 0⟩
    else some (aesCcmDecrypt key parameters ciphertext plaintext)
  | .aes128Ccm8 =>
    if parameters.tag.length ≠ 8 then some ⟨statusInvalidParameter, plaintext, 0⟩
    else some (aesCcmDecrypt key parameters ciphertext plaintext)

end KernelHttp.Crypto
