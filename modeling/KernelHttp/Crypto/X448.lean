/-
  The key exchange X448 (`crypto/KeyExchange.cpp`).

  A fixed program of operations on blocks of limbs, one for each call of the source.
-/
import KernelHttp.Crypto.Hex
import KernelHttp.Crypto.Montgomery
import KernelHttp.Crypto.X25519

namespace KernelHttp.Crypto

def x448KeyLength : ℕ := 56
def x448LimbCount : ℕ := x448KeyLength / 4
def x448ProductCount : ℕ := x448LimbCount * 2 + 1
def x448A24 : UInt32 := 39081

def x448PrimeHex : Bytes :=
  [0xFFFFFFFFFFFFFFFFFFFFFFFFFFFFFFFFFFFFFFFFFFFFFFFFFFFFFFFE,
    0xFFFFFFFFFFFFFFFFFFFFFFFFFFFFFFFFFFFFFFFFFFFFFFFFFFFFFFFF].flatMap (hexText 56)

def x448PrimeMinusTwoHex : Bytes :=
  [0xFFFFFFFFFFFFFFFFFFFFFFFFFFFFFFFFFFFFFFFFFFFFFFFFFFFFFFFE,
    0xFFFFFFFFFFFFFFFFFFFFFFFFFFFFFFFFFFFFFFFFFFFFFFFFFFFFFFFD].flatMap (hexText 56)

/-- The blocks of `X448`, but for the modulus. -/
inductive X448Block
  | x1 | x2 | z2 | x3 | z3 | a | aa | b | bb | e | c | d | da | cb | temp1 | temp2
  | oneMontgomery | a24Montgomery | oneRegular | inverse | resultMontgomery | resultRegular
deriving DecidableEq, Repr

abbrev X448Blocks := X448Block → Limbs32

/-- An operation on the blocks; the last block named is the one written. -/
inductive X448Operation
  /-- `SetSmallLimbs`. -/
  | setSmall (smallValue : UInt32) (value : X448Block)
  /-- `RtlZeroMemory`. -/
  | zero (value : X448Block)
  /-- `RtlCopyMemory`. -/
  | copy (source destination : X448Block)
  /-- `ConvertToMontgomery`, in place. -/
  | convert (value : X448Block)
  /-- `SwapLimbsConditional`, which writes both. -/
  | swap (swap : UInt32) (left right : X448Block)
  /-- `AddLimbsModulo`. -/
  | add (left right output : X448Block)
  /-- `SubtractLimbsModulo`. -/
  | subtract (left right output : X448Block)
  /-- `X448FieldMultiply`. -/
  | multiply (left right output : X448Block)
deriving DecidableEq, Repr

/-- `X448FieldSquare`. -/
def X448Operation.square (value output : X448Block) : X448Operation :=
  .multiply value value output

def X448Operation.exec (modulus : Limbs32) (n0Prime : UInt32) (blocks : X448Blocks) :
    X448Operation → Except NTSTATUS X448Blocks
  | .setSmall smallValue value =>
    .ok (Function.update blocks value (setSmallLimbs x448LimbCount smallValue))
  | .zero value => .ok (Function.update blocks value (List.replicate x448LimbCount 0))
  | .copy source destination => .ok (Function.update blocks destination (blocks source))
  | .convert value =>
    .ok (Function.update blocks value (convertToMontgomery modulus (blocks value)))
  | .swap k left right =>
    let (l, r) := swapLimbsConditional (blocks left) (blocks right) k
    .ok (Function.update (Function.update blocks left l) right r)
  | .add left right output =>
    .ok (Function.update blocks output (addLimbsModulo (blocks left) (blocks right) modulus))
  | .subtract left right output =>
    .ok (Function.update blocks output (subtractLimbsModulo (blocks left) (blocks right) modulus))
  | .multiply left right output => do
    let product ←
      montgomeryMultiply (blocks left) (blocks right) modulus n0Prime x448ProductCount
    .ok (Function.update blocks output product)

def x448Run (modulus : Limbs32) (n0Prime : UInt32) (program : List X448Operation)
    (blocks : X448Blocks) : Except NTSTATUS X448Blocks :=
  program.foldlM (X448Operation.exec modulus n0Prime) blocks

def montgomeryExponentiatePublic (baseMontgomery : X448Block) (exponent : Bytes)
    (outputMontgomery scratch : X448Block) : List X448Operation :=
  [.setSmall 1 outputMontgomery, .convert outputMontgomery] ++
    (List.range (exponent.length * 8)).reverse.flatMap fun remaining =>
      [.square outputMontgomery scratch, .copy scratch outputMontgomery] ++
        if exponentBitIsSet exponent remaining then
          [.multiply outputMontgomery baseMontgomery scratch, .copy scratch outputMontgomery]
        else []

def clampX448Scalar (scalar : Bytes) : Bytes :=
  (scalar.modify 0 (· &&& 252)).modify 55 (· ||| 128)

def x448ScalarBit (scalar : Bytes) (bit : ℕ) : UInt32 :=
  UInt32.ofNat ((scalar.getD (bit >>> 3) 0).toNat >>> (bit &&& 7) &&& 1)

/-- The operations of `X448` before the ladder. -/
def x448Setup : List X448Operation :=
  [.convert .x1,
    .setSmall 1 .oneRegular, .copy .oneRegular .oneMontgomery, .convert .oneMontgomery,
    .setSmall x448A24 .a24Montgomery, .convert .a24Montgomery,
    .copy .oneMontgomery .x2, .zero .z2, .copy .x1 .x3, .copy .oneMontgomery .z3]

/-- The swaps of a round and behind the last one. -/
def x448Swap (swap : UInt32) : List X448Operation := [.swap swap .x2 .x3, .swap swap .z2 .z3]

/-- A round of the ladder, behind its swaps. -/
def x448Round : List X448Operation :=
  [.add .x2 .z2 .a, .square .a .aa,
    .subtract .x2 .z2 .b, .square .b .bb,
    .subtract .aa .bb .e, .add .x3 .z3 .c, .subtract .x3 .z3 .d,
    .multiply .d .a .da, .multiply .c .b .cb,
    .add .da .cb .temp1, .square .temp1 .x3,
    .subtract .da .cb .temp1, .square .temp1 .temp2, .multiply .x1 .temp2 .z3,
    .multiply .aa .bb .x2,
    .multiply .a24Montgomery .e .temp1, .add .aa .temp1 .temp2, .multiply .e .temp2 .z2]

/-- The ladder over the bits of the scalar; a swap is put off to the next round. -/
def x448Ladder (scalar : Bytes) : UInt32 → List ℕ → List X448Operation
  | swap, [] => x448Swap swap
  | swap, bit :: bits =>
    x448Swap (swap ^^^ x448ScalarBit scalar bit) ++ x448Round ++
      x448Ladder scalar (x448ScalarBit scalar bit) bits

/-- The operations of `X448`. -/
def x448Program (scalar exponent : Bytes) : List X448Operation :=
  x448Setup ++ x448Ladder scalar 0 (List.range 448).reverse ++
    montgomeryExponentiatePublic .z2 exponent .inverse .temp1 ++
    [.multiply .x2 .inverse .resultMontgomery,
      .multiply .resultMontgomery .oneRegular .resultRegular]

/-- The blocks before the first operation: the peer's value, less the modulus where it is
    not below. -/
def x448Start (modulus : Limbs32) (peerPublicKey : Bytes) : X448Blocks :=
  let x1 := littleEndianToLimbs x448LimbCount peerPublicKey
  Function.update (fun _ => List.replicate x448LimbCount 0) .x1
    (if compareLimbs x1 modulus ≥ 0 then subtractLimbsInPlace x1 modulus else x1)

def x448 (privateKey peerPublicKey : Bytes) : Except NTSTATUS Bytes :=
  if isAllZero peerPublicKey then .error statusInvalidParameter
  else do
    let modulusBytes ← parseHexToBytes x448PrimeHex x448KeyLength
    let exponentBytes ← parseHexToBytes x448PrimeMinusTwoHex x448KeyLength
    let modulus := bigEndianToLimbs x448LimbCount modulusBytes
    let blocks ← x448Run modulus (montgomeryN0Prime (modulus.headD 0))
      (x448Program (clampX448Scalar privateKey) exponentBytes) (x448Start modulus peerPublicKey)
    .ok (limbsToLittleEndian (blocks .resultRegular) x448KeyLength)

end KernelHttp.Crypto
