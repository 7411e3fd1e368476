/-
  The stream cipher ChaCha20 (`crypto/Aead.cpp`).
-/
import KernelHttp.Crypto.Montgomery

namespace KernelHttp.Crypto

def chaChaBlockLength : ℕ := 64

def readLittleEndian32 (data : Bytes) : UInt32 := limbOfBytes data

def writeLittleEndian32 (value : UInt32) : Bytes := bytesOfLimb value

def rotateLeft32 (value bits : UInt32) : UInt32 := (value <<< bits) ||| (value >>> (32 - bits))

/-- `QuarterRound`, on the words at four places. -/
def quarterRound (working : List UInt32) (i j k l : ℕ) : List UInt32 :=
  let a := working.getD i 0
  let b := working.getD j 0
  let c := working.getD k 0
  let d := working.getD l 0
  let a := a + b
  let d := rotateLeft32 (d ^^^ a) 16
  let c := c + d
  let b := rotateLeft32 (b ^^^ c) 12
  let a := a + b
  let d := rotateLeft32 (d ^^^ a) 8
  let c := c + d
  let b := rotateLeft32 (b ^^^ c) 7
  (((working.set i a).set j b).set k c).set l d

/-- The body of the loop of `ChaCha20Block`. -/
def chaCha20Rounds (working : List UInt32) : List UInt32 :=
  let working := quarterRound working 0 4 8 12
  let working := quarterRound working 1 5 9 13
  let working := quarterRound working 2 6 10 14
  let working := quarterRound working 3 7 11 15
  let working := quarterRound working 0 5 10 15
  let working := quarterRound working 1 6 11 12
  let working := quarterRound working 2 7 8 13
  quarterRound working 3 4 9 14

/-- The state of `ChaCha20Block` before the rounds. -/
def chaCha20State (key : Bytes) (counter : UInt32) (nonce : Bytes) : List UInt32 :=
  [0x61707865, 0x3320646e, 0x79622d32, 0x6b206574,
    readLittleEndian32 key, readLittleEndian32 (key.drop 4),
    readLittleEndian32 (key.drop 8), readLittleEndian32 (key.drop 12),
    readLittleEndian32 (key.drop 16), readLittleEndian32 (key.drop 20),
    readLittleEndian32 (key.drop 24), readLittleEndian32 (key.drop 28),
    counter, readLittleEndian32 nonce, readLittleEndian32 (nonce.drop 4),
    readLittleEndian32 (nonce.drop 8)]

def chaCha20Block (key : Bytes) (counter : UInt32) (nonce : Bytes) : Bytes :=
  let state := chaCha20State key counter nonce
  let working := chaCha20Rounds^[10] state
  (List.zipWith (· + ·) working state).flatMap writeLittleEndian32

/-- The loop of `ChaCha20Xor`. -/
def chaCha20XorLoop (key : Bytes) (counter : UInt32) (nonce input : Bytes) : Bytes :=
  if 0 < input.length then
    List.zipWith (· ^^^ ·) (input.take chaChaBlockLength) (chaCha20Block key counter nonce) ++
      chaCha20XorLoop key (counter + 1) nonce (input.drop chaChaBlockLength)
  else []
termination_by input.length
decreasing_by
  simp only [List.length_drop, chaChaBlockLength]
  omega

/-- `ChaCha20Xor`: the output behind the input's length stays as it is. -/
def chaCha20Xor (key : Bytes) (counter : UInt32) (nonce input output : Bytes) :
    Except NTSTATUS Bytes :=
  if output.length < input.length then .error statusInvalidParameter
  else .ok (chaCha20XorLoop key counter nonce input ++ output.drop input.length)

end KernelHttp.Crypto
