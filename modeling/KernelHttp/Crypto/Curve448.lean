/-
  The function X448 (RFC 7748, section 5).

  This states what the key exchange is for; the program's own code is in `Crypto.X448`.
-/
import KernelHttp.Crypto.LittleEndian
import KernelHttp.Lib.MontgomeryLadder
import KernelHttp.Lib.Powering

namespace KernelHttp.Crypto

open BigEndian MontgomeryLadder Powering

/-- The prime of the field. -/
def p448 : ℕ := (2 ^ 224) ^ 2 - 2 ^ 224 - 1

/-- The integers modulo the prime. -/
abbrev Field448 := ZMod p448

instance : NeZero p448 := ⟨by decide +kernel⟩

/-- `encodeUCoordinate`: the octets of the least residue. -/
def encodeUCoordinate448 (u : Field448) : Bytes := (bigEndian 56 u.val).reverse

/-- `decodeScalar448`: bits 0 and 1 are cleared, and bit 447 is set. -/
def decodeScalar448 (k : Bytes) : ℕ := 2 ^ 447 + 4 * (decodeLittleEndian k / 4 % 2 ^ 445)

/-- The ladder: the `u` coordinate of `k` times a point. -/
def ladder448 (k : ℕ) (u : Field448) : Field448 :=
  let s := (bitsFrom 448 k).foldl (deferred 39081 u) (⟨1, 0, u, 1⟩, false)
  let s := s.1.cswap s.2
  s.x₂ * s.z₂ ^ (p448 - 2)

/-- `X448`. -/
def x448Function (k u : Bytes) : Bytes :=
  encodeUCoordinate448 (ladder448 (decodeScalar448 k) (decodeLittleEndian u : ℕ))

end KernelHttp.Crypto
