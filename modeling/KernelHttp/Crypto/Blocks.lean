/-
  Octets as blocks of sixteen.
-/
import KernelHttp.Core.Types

namespace KernelHttp.Crypto

/-- The blocks of a message: of sixteen octets, the last may be shorter. -/
def blocks : Bytes → List Bytes
  | [] => []
  | c :: t => (c :: t).take 16 :: blocks ((c :: t).drop 16)
termination_by t => t.length
decreasing_by simp

/-- Zeros up to a multiple of sixteen octets. -/
def padded (t : Bytes) : Bytes := t ++ List.replicate ((16 - t.length % 16) % 16) 0

end KernelHttp.Crypto
