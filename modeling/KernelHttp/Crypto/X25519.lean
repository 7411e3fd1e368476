/-
  The key exchange X25519 (`crypto/KeyExchange.cpp`).

  Field elements are sixteen signed limbs in radix 2^16, and every operation on a limb is checked.
-/
import KernelHttp.Core.Types
import KernelHttp.Lib.Checked

namespace KernelHttp.Crypto

/-- `FieldElement`, lowest limb first. -/
abbrev FieldElement := List ℤ

/-- The result of an operation on `long long`. -/
def limb (v : ℤ) : Option ℤ := Checked.represent (-2 ^ 63) (2 ^ 63 - 1) v

def fieldElementLength : ℕ := 16
def x25519ProductLength : ℕ := 31

def field121665 : FieldElement := [0xDB41, 1, 0, 0, 0, 0, 0, 0, 0, 0, 0, 0, 0, 0, 0, 0]

def addFieldElement (left right : FieldElement) : Option FieldElement :=
  (left.zip right).mapM fun l => limb (l.1 + l.2)

def subtractFieldElement (left right : FieldElement) : Option FieldElement :=
  (left.zip right).mapM fun l => limb (l.1 - l.2)

/-- The loop of `CarryFieldElement`; `carry` is what the limb below adds, the second
    result what the last limb would. -/
def carryLimbs (carry : ℤ) : List ℤ → Option (List ℤ × ℤ)
  | [] => some ([], carry)
  | v :: value => do
    let v ← limb (v + carry)
    let v ← limb (v + 2 ^ 16)
    let carry := v >>> (16 : ℕ)
    let next ← limb (carry - 1)
    let shifted ← limb (carry * 2 ^ 16)
    let v ← limb (v - shifted)
    let (value, last) ← carryLimbs next value
    some (v :: value, last)

def carryFieldElement (value : FieldElement) : Option FieldElement := do
  let (value, carry) ← carryLimbs 0 value
  match value with
  | [] => some []
  | v :: value => do
    let folded ← limb (38 * carry)
    let v ← limb (v + folded)
    some (v :: value)

/-- One limb of `SelectFieldElement`. -/
def selectLimb (mask : BitVec 64) (left right : ℤ) : ℤ × ℤ :=
  let value := mask &&& (BitVec.ofInt 64 left ^^^ BitVec.ofInt 64 right)
  ((BitVec.ofInt 64 left ^^^ value).toInt, (BitVec.ofInt 64 right ^^^ value).toInt)

def selectFieldElement (left right : FieldElement) (swap : ℤ) : FieldElement × FieldElement :=
  let mask := ~~~ BitVec.ofInt 64 (swap - 1)
  ((left.zip right).map fun l => selectLimb mask l.1 l.2).unzip

/-- A row of the product: `left` times the limbs of `right`, added in place. -/
def addRow (left : ℤ) : List ℤ → List ℤ → Option (List ℤ)
  | r :: right, v :: product => do
    let term ← limb (left * r)
    let v ← limb (v + term)
    let product ← addRow left right product
    some (v :: product)
  | _, product => some product

def addRows (left right product : List ℤ) : Option (List ℤ) :=
  match left with
  | [] => some product
  | l :: left => do
    let product ← addRow l right product
    match product with
    | [] => some []
    | v :: product => do
      let product ← addRows left right product
      some (v :: product)

/-- The upper limbs of a product, folded onto the lower ones. -/
def foldProduct : List ℤ → List ℤ → Option (List ℤ)
  | v :: low, h :: high => do
    let folded ← limb (38 * h)
    let v ← limb (v + folded)
    let low ← foldProduct low high
    some (v :: low)
  | low, _ => some low

def multiplyFieldElement (left right : FieldElement) : Option FieldElement := do
  let product ← addRows left right (List.replicate x25519ProductLength 0)
  let output ← foldProduct (product.take fieldElementLength) (product.drop fieldElementLength)
  let output ← carryFieldElement output
  carryFieldElement output

def squareFieldElement (input : FieldElement) : Option FieldElement :=
  multiplyFieldElement input input

/-- The limbs of pairs of octets. -/
def unpackLimbs : Bytes → List ℤ
  | c :: d :: input => (c.toNat ||| d.toNat <<< 8 : ℕ) :: unpackLimbs input
  | _ => []

def unpackFieldElement (input : Bytes) : FieldElement :=
  (unpackLimbs input).modify 15 (· % 0x8000)

def modulusLimbs : List ℤ := 0xffed :: List.replicate 14 0xffff ++ [0x7fff]

/-- The subtraction of the modulus in `PackFieldElement`; the last limb keeps its sign. -/
def subtractModulus (borrow : ℤ) : List ℤ → List ℤ → Option (List ℤ)
  | m :: modulus, v :: value => do
    let m ← limb (m + borrow)
    let v ← limb (v - m)
    if modulus = [] then some [v]
    else do
      let reduced ← subtractModulus (v >>> (16 : ℕ) % 2) modulus value
      some (v % 0x10000 :: reduced)
  | _, _ => some []

/-- A round of `PackFieldElement`. -/
def packRound (value : FieldElement) : Option FieldElement := do
  let reduced ← subtractModulus 0 modulusLimbs value
  some (selectFieldElement value reduced (1 - reduced.getD 15 0 >>> (16 : ℕ) % 2)).1

def packFieldElement (input : FieldElement) : Option Bytes := do
  let value ← carryFieldElement input
  let value ← carryFieldElement value
  let value ← carryFieldElement value
  let value ← packRound value
  let value ← packRound value
  some (value.flatMap fun v : ℤ =>
    [UInt8.ofNat (v % 0x100).toNat, UInt8.ofNat (v >>> (8 : ℕ) % 0x100).toNat])

def invertFieldElement (input : FieldElement) : Option FieldElement :=
  (List.range 254).reverse.foldlM (fun value index => do
    let value ← squareFieldElement value
    if index ≠ 2 ∧ index ≠ 4 then multiplyFieldElement value input else some value) input

def clampX25519Scalar (scalar : Bytes) : Bytes :=
  (scalar.modify 0 (· &&& 248)).modify 31 fun c => c &&& 127 ||| 64

def isAllZero (data : Bytes) : Bool := data.foldl (· ||| ·) 0 == 0

theorem isAllZero_iff (data : Bytes) : isAllZero data = true ↔ ∀ c ∈ data, c = 0 := by
  have hfold : ∀ a, data.foldl (· ||| ·) a = 0 ↔ a = 0 ∧ ∀ c ∈ data, c = 0 := by
    induction data with
    | nil => simp
    | cons c data ih =>
      intro a
      rw [List.foldl_cons, ih, UInt8.or_eq_zero_iff, List.forall_mem_cons, and_assoc]
  rw [isAllZero, beq_iff_eq, hfold]
  simp

/-- The bit of the scalar that a round of the ladder reads. -/
def scalarBit (scalar : Bytes) (bit : ℕ) : ℤ :=
  (((scalar.getD (bit >>> 3) 0).toNat >>> (bit &&& 7) &&& 1 : ℕ) : ℤ)

/-- The field elements that a round of the ladder leaves to the next. -/
structure X25519State where
  a : FieldElement
  b : FieldElement
  c : FieldElement
  d : FieldElement

def x25519Round (x : FieldElement) (s : X25519State) (swap : ℤ) : Option X25519State := do
  let (a, b) := selectFieldElement s.a s.b swap
  let (c, d) := selectFieldElement s.c s.d swap
  let e ← addFieldElement a c
  let a ← subtractFieldElement a c
  let c ← addFieldElement b d
  let b ← subtractFieldElement b d
  let d ← squareFieldElement e
  let f ← squareFieldElement a
  let a ← multiplyFieldElement c a
  let c ← multiplyFieldElement b e
  let e ← addFieldElement a c
  let a ← subtractFieldElement a c
  let b ← squareFieldElement a
  let c ← subtractFieldElement d f
  let a ← multiplyFieldElement c field121665
  let a ← addFieldElement a d
  let c ← multiplyFieldElement c a
  let a ← multiplyFieldElement d f
  let d ← multiplyFieldElement b x
  let b ← squareFieldElement e
  let (a, b) := selectFieldElement a b swap
  let (c, d) := selectFieldElement c d swap
  some ⟨a, b, c, d⟩

/-- `X25519`; nothing where an operation on a limb overflows. -/
def x25519 (privateKey peerPublicKey : Bytes) : Option (Except NTSTATUS Bytes) :=
  if isAllZero peerPublicKey then some (.error statusInvalidParameter)
  else do
    let scalar := clampX25519Scalar privateKey
    let x := unpackFieldElement peerPublicKey
    let zero : FieldElement := List.replicate fieldElementLength 0
    let s ← (List.range 255).reverse.foldlM
      (fun s bit => x25519Round x s (scalarBit scalar bit)) ⟨zero.set 0 1, x, zero, zero.set 0 1⟩
    let c ← invertFieldElement s.c
    let a ← multiplyFieldElement s.a c
    let output ← packFieldElement a
    some (.ok output)

end KernelHttp.Crypto
