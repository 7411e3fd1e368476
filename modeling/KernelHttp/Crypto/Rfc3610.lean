/-
  The mode CCM (RFC 3610).

  This states what the mode of the source is for; the program's own code is in
  `Crypto.Ccm`.  The block cipher under the key is given.
-/
import KernelHttp.Crypto.Blocks
import KernelHttp.Lib.BigEndian

namespace KernelHttp.Crypto.Rfc3610

open BigEndian

variable (E : Bytes → Bytes)

/-- `L`, the octets of the length field. -/
def lengthOctets (nonce : Bytes) : ℕ := 15 - nonce.length

/-! ## Authentication (section 2.2) -/

/-- `B_0`. -/
def firstBlock (M : ℕ) (nonce aad text : Bytes) : Bytes :=
  UInt8.ofNat (64 * (if aad = [] then 0 else 1) + 8 * ((M - 2) / 2) + (lengthOctets nonce - 1)) ::
    (nonce ++ bigEndian (lengthOctets nonce) text.length)

/-- The octets that say how long the additional data is. -/
def encodedLength (l : ℕ) : Bytes :=
  if l < 2 ^ 16 - 2 ^ 8 then bigEndian 2 l
  else if l < 2 ^ 32 then 0xff :: 0xfe :: bigEndian 4 l
  else 0xff :: 0xff :: bigEndian 8 l

/-- The blocks behind `B_0`: the additional data with its length, then the text. -/
def authenticationBlocks (aad text : Bytes) : List Bytes :=
  (if aad = [] then [] else blocks (padded (encodedLength aad.length ++ aad))) ++
    blocks (padded text)

/-- `X_{i+1}` from `X_i` and `B_i`. -/
def chain (x b : Bytes) : Bytes := E (List.zipWith (· ^^^ ·) x b)

/-- `T`. -/
def authenticator (M : ℕ) (nonce aad text : Bytes) : Bytes :=
  ((authenticationBlocks aad text).foldl (chain E) (E (firstBlock M nonce aad text))).take M

/-! ## Encryption (section 2.3) -/

/-- `A_i`. -/
def counterBlock (nonce : Bytes) (i : ℕ) : Bytes :=
  UInt8.ofNat (lengthOctets nonce - 1) :: (nonce ++ bigEndian (lengthOctets nonce) i)

/-- The text and the octets of `S_1`, `S_2` and so on. -/
def crypt (nonce text : Bytes) : Bytes :=
  List.zipWith (· ^^^ ·) text
    ((List.range (text.length / 16 + 1)).flatMap fun i => E (counterBlock nonce (i + 1)))

/-- `U`, for a text whose length the length field holds. -/
def tag (M : ℕ) (nonce aad text : Bytes) : Option Bytes :=
  if text.length < 256 ^ lengthOctets nonce then
    some (List.zipWith (· ^^^ ·) (authenticator E M nonce aad text) (E (counterBlock nonce 0)))
  else none

end KernelHttp.Crypto.Rfc3610
