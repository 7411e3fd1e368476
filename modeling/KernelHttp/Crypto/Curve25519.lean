/-
  The function X25519 (RFC 7748, section 5).

  This states what the key exchange is for; the program's own code is in
  `Crypto.X25519`.
-/
import KernelHttp.Crypto.LittleEndian
import KernelHttp.Lib.MontgomeryLadder

namespace KernelHttp.Crypto

open BigEndian MontgomeryLadder

/-- The prime of the field. -/
def p25519 : ℕ := 2 ^ 255 - 19

/-- The integers modulo the prime. -/
abbrev Field25519 := ZMod p25519

instance : NeZero p25519 := ⟨by decide +kernel⟩

/-- `decodeUCoordinate`: the top bit of the last octet is left out. -/
def decodeUCoordinate (u : Bytes) : Field25519 := (decodeLittleEndian u % 2 ^ 255 : ℕ)

/-- `encodeUCoordinate`: the octets of the least residue. -/
def encodeUCoordinate (u : Field25519) : Bytes := (bigEndian 32 u.val).reverse

/-- `decodeScalar25519`: bits 0, 1, 2 and 255 are cleared, and bit 254 is set. -/
def decodeScalar25519 (k : Bytes) : ℕ := 2 ^ 254 + 8 * (decodeLittleEndian k / 8 % 2 ^ 251)

def scalarBits (k : ℕ) : List Bool := (List.range 255).reverse.map k.testBit

/-- The ladder: the `u` coordinate of `k` times a point. -/
def ladder (k : ℕ) (u : Field25519) : Field25519 :=
  let s := (scalarBits k).foldl (deferred 121665 u) (⟨1, 0, u, 1⟩, false)
  let s := s.1.cswap s.2
  s.x₂ * s.z₂ ^ (p25519 - 2)

/-- `X25519`. -/
def x25519Function (k u : Bytes) : Bytes :=
  encodeUCoordinate (ladder (decodeScalar25519 k) (decodeUCoordinate u))

end KernelHttp.Crypto
