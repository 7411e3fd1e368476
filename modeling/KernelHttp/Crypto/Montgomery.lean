/-
  Arithmetic on limbs of 32 bits (`crypto/KeyExchange.cpp`).

  Numbers are arrays of `ULONG`, lowest limb first; three loops are shared by the functions.
-/
import KernelHttp.Core.Types

namespace KernelHttp.Crypto

/-- An array of `ULONG`. -/
abbrev Limbs32 := List UInt32

def limbCountForBytes (byteLength : ℕ) : ℕ := (byteLength + 4 - 1) / 4

/-- The limb of (up to) four octets. -/
def limbOfBytes (source : Bytes) : UInt32 :=
  (source.getD 0 0).toUInt32 ||| (source.getD 1 0).toUInt32 <<< 8 |||
    (source.getD 2 0).toUInt32 <<< 16 ||| (source.getD 3 0).toUInt32 <<< 24

def littleEndianToLimbs : ℕ → Bytes → Limbs32
  | 0, _ => []
  | limbCount + 1, source =>
    limbOfBytes (source.take 4) :: littleEndianToLimbs limbCount (source.drop 4)

def bigEndianToLimbs (limbCount : ℕ) (source : Bytes) : Limbs32 :=
  littleEndianToLimbs limbCount source.reverse

def bytesOfLimb (v : UInt32) : Bytes :=
  [v.toUInt8, (v >>> 8).toUInt8, (v >>> 16).toUInt8, (v >>> 24).toUInt8]

/-- `LimbsToLittleEndian`; what the limbs do not cover stays zero. -/
def limbsToLittleEndian (limbs : Limbs32) (destinationLength : ℕ) : Bytes :=
  (limbs.flatMap bytesOfLimb ++ List.replicate destinationLength 0).take destinationLength

def limbsToBigEndian (limbs : Limbs32) (destinationLength : ℕ) : Bytes :=
  (limbsToLittleEndian limbs destinationLength).reverse

/-- `CompareLimbs`: the highest limbs that differ decide. -/
def compareLimbs : Limbs32 → Limbs32 → ℤ
  | l :: left, r :: right =>
    let higher := compareLimbs left right
    if higher ≠ 0 then higher
    else if l < r then -1
    else if l > r then 1
    else 0
  | _, _ => 0

/-- The loop of `SubtractLimbsInPlace`, `SubtractModulusFromCandidate` and
    `SubtractLimbsModulo`, with the borrow that it ends with. -/
def subtractLoop (borrow : UInt64) : Limbs32 → Limbs32 → Limbs32 × UInt64
  | l :: left, r :: right =>
    let subtrahend := r.toUInt64 + borrow
    let minuend := l.toUInt64
    let (output, last) := subtractLoop (if minuend < subtrahend then 1 else 0) left right
    ((minuend - subtrahend).toUInt32 :: output, last)
  | _, _ => ([], borrow)

/-- The loop of `AddModulusToLimbsInPlace` and `AddLimbsModulo`, with the carry that it
    ends with. -/
def addLoop (carry : UInt64) : Limbs32 → Limbs32 → Limbs32 × UInt64
  | l :: left, r :: right =>
    let sum := l.toUInt64 + r.toUInt64 + carry
    let (output, last) := addLoop (sum >>> 32) left right
    (sum.toUInt32 :: output, last)
  | _, _ => ([], carry)

def subtractLimbsInPlace (left right : Limbs32) : Limbs32 := (subtractLoop 0 left right).1

/-- The loop of `LeftShiftOneModulo`, with the carry that it ends with. -/
def shiftLoop (carry : UInt32) : Limbs32 → Limbs32 × UInt32
  | [] => ([], carry)
  | v :: value =>
    let (output, last) := shiftLoop ((v >>> 31) &&& 1) value
    (((v <<< 1) ||| carry) :: output, last)

def leftShiftOneModulo (modulus value : Limbs32) : Limbs32 :=
  let (value, carry) := shiftLoop 0 value
  if carry ≠ 0 ∨ compareLimbs value modulus ≥ 0 then subtractLimbsInPlace value modulus
  else value

def montgomeryN0Prime (modulusLow : UInt32) : UInt32 :=
  0 - (List.range 5).foldl (fun inverse _ => inverse * (2 - modulusLow * inverse)) 1

/-- The carry behind a row, for as long as there is one and a limb to take it. -/
def propagateCarry (carry : UInt64) : Limbs32 → Limbs32 × UInt64
  | [] => ([], carry)
  | p :: product =>
    if carry = 0 then (p :: product, carry)
    else
      let value := p.toUInt64 + carry
      let (product, last) := propagateCarry (value >>> 32) product
      (value.toUInt32 :: product, last)

/-- A row of `MultiplyLimbs` and of `MontgomeryReduce`: `factor` times the limbs is added
    in place. -/
def accumulateRow (factor : UInt32) (carry : UInt64) : Limbs32 → Limbs32 → Limbs32 × UInt64
  | r :: right, p :: product =>
    let value := factor.toUInt64 * r.toUInt64 + p.toUInt64 + carry
    let (product, last) := accumulateRow factor (value >>> 32) right product
    (value.toUInt32 :: product, last)
  | _, product => propagateCarry carry product

/-- The rows of `MultiplyLimbs`, each one limb further on. -/
def multiplyRows (left right product : Limbs32) : Limbs32 :=
  match left with
  | [] => product
  | l :: left =>
    match (accumulateRow l 0 right product).1 with
    | [] => []
    | p :: product => p :: multiplyRows left right product

def multiplyLimbs (left right : Limbs32) (productCount : ℕ) : Limbs32 :=
  multiplyRows left right (List.replicate productCount 0)

def compareCandidateToModulus (candidate modulus : Limbs32) : ℤ :=
  if candidate.length ≠ modulus.length + 1 then 1
  else if candidate.getD modulus.length 0 ≠ 0 then 1
  else compareLimbs (candidate.take modulus.length) modulus

def subtractModulusFromCandidate (candidate modulus : Limbs32) : Limbs32 :=
  let (low, borrow) := subtractLoop 0 (candidate.take modulus.length) modulus
  low ++ [((candidate.getD modulus.length 0).toUInt64 - borrow).toUInt32]

/-- The end of `MontgomeryReduce` and of `AddLimbsModulo`. -/
def reduceCandidate (candidate modulus : Limbs32) : Limbs32 :=
  let candidate :=
    if compareCandidateToModulus candidate modulus ≥ 0 then
      subtractModulusFromCandidate candidate modulus
    else candidate
  candidate.take modulus.length

/-- The rows of `MontgomeryReduce`; each leaves its lowest limb behind. -/
def reduceRows (modulus : Limbs32) (n0Prime : UInt32) : ℕ → Limbs32 → Except NTSTATUS Limbs32
  | 0, product => .ok product
  | index + 1, product =>
    let factor := product.headD 0 * n0Prime
    let (product, carry) := accumulateRow factor 0 modulus product
    if carry ≠ 0 then .error statusIntegerOverflow
    else reduceRows modulus n0Prime index product.tail

def montgomeryReduce (product modulus : Limbs32) (n0Prime : UInt32) :
    Except NTSTATUS Limbs32 :=
  if product.length < modulus.length * 2 + 1 ∨ modulus.length = 0 then
    .error statusInvalidParameter
  else do
    let candidate ← reduceRows modulus n0Prime modulus.length product
    .ok (reduceCandidate (candidate.take (modulus.length + 1)) modulus)

def montgomeryMultiply (left right modulus : Limbs32) (n0Prime : UInt32) (productCount : ℕ) :
    Except NTSTATUS Limbs32 :=
  montgomeryReduce (multiplyLimbs left right productCount) modulus n0Prime

def convertToMontgomery (modulus regular : Limbs32) : Limbs32 :=
  (leftShiftOneModulo modulus)^[modulus.length * 32] regular

def exponentBitIsSet (exponent : Bytes) (bitIndexFromLeastSignificant : ℕ) : Bool :=
  let byteIndexFromEnd := bitIndexFromLeastSignificant / 8
  if byteIndexFromEnd ≥ exponent.length then false
  else
    let byteIndex := exponent.length - 1 - byteIndexFromEnd
    let mask := UInt8.ofNat (1 <<< (bitIndexFromLeastSignificant % 8))
    exponent.getD byteIndex 0 &&& mask != 0

def selectLimbs (destination candidate : Limbs32) (useCandidate : Bool) : Limbs32 :=
  let mask : UInt32 := if useCandidate then 0xffffffff else 0
  List.zipWith (fun d c => (d &&& ~~~ mask) ||| (c &&& mask)) destination candidate

def swapLimbsConditional (left right : Limbs32) (swap : UInt32) : Limbs32 × Limbs32 :=
  let mask := 0 - (swap &&& 1)
  ((left.zip right).map fun l =>
    (l.1 ^^^ (mask &&& (l.1 ^^^ l.2)), l.2 ^^^ (mask &&& (l.1 ^^^ l.2)))).unzip

def setSmallLimbs (limbCount : ℕ) (smallValue : UInt32) : Limbs32 :=
  (List.replicate limbCount 0).set 0 smallValue

def addModulusToLimbsInPlace (value modulus : Limbs32) : Limbs32 := (addLoop 0 value modulus).1

def addLimbsModulo (left right modulus : Limbs32) : Limbs32 :=
  let (candidate, carry) := addLoop 0 left right
  reduceCandidate (candidate ++ [carry.toUInt32]) modulus

def subtractLimbsModulo (left right modulus : Limbs32) : Limbs32 :=
  let (output, borrow) := subtractLoop 0 left right
  if borrow ≠ 0 then addModulusToLimbsInPlace output modulus else output

end KernelHttp.Crypto
