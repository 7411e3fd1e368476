/-
  The authenticator Poly1305 (`crypto/Aead.cpp`).

  Every sum, product and carry that is not masked is checked: a run that yields something has lost
  no bit.
-/
import KernelHttp.Crypto.ChaCha20

namespace KernelHttp.Crypto

/-- A value that a `ULONG` holds. -/
def ulong (v : ℕ) : Option ℕ := if v < 2 ^ 32 then some v else none

/-- A value that an `unsigned long long` holds. -/
def ulonglong (v : ℕ) : Option ℕ := if v < 2 ^ 64 then some v else none

/-- A disjunction with a word shifted by `k`, where no bits overlap. -/
def joined (low : ℕ) (k : ℕ) (high : ℕ) : Option ℕ :=
  if low < 2 ^ k then some (low ||| high <<< k) else none

/-- `ULONG[5]`. -/
structure PolyLimbs where
  l₀ : ℕ
  l₁ : ℕ
  l₂ : ℕ
  l₃ : ℕ
  l₄ : ℕ
deriving DecidableEq, Repr

/-- `0x3ffffff`. -/
def mask26 : ℕ := 0x3ffffff

/-- The limbs of a block, padded to seventeen octets. -/
def polyValues (block : Bytes) : PolyLimbs :=
  let padded := block ++ 1 :: List.replicate (16 - block.length) 0
  { l₀ := (readLittleEndian32 padded).toNat &&& mask26
    l₁ := (readLittleEndian32 (padded.drop 3)).toNat >>> 2 &&& mask26
    l₂ := (readLittleEndian32 (padded.drop 6)).toNat >>> 4 &&& mask26
    l₃ := (readLittleEndian32 (padded.drop 9)).toNat >>> 6 &&& mask26
    l₄ := (readLittleEndian32 (padded.drop 13)).toNat &&& mask26 }

/-- The sums of products in `Poly1305ProcessBlock`. -/
def polyProducts (h r : PolyLimbs) : Option PolyLimbs := do
  let s₁ ← ulong (r.l₁ * 5)
  let s₂ ← ulong (r.l₂ * 5)
  let s₃ ← ulong (r.l₃ * 5)
  let s₄ ← ulong (r.l₄ * 5)
  let d₀ ← ulonglong (h.l₀ * r.l₀ + h.l₁ * s₄ + h.l₂ * s₃ + h.l₃ * s₂ + h.l₄ * s₁)
  let d₁ ← ulonglong (h.l₀ * r.l₁ + h.l₁ * r.l₀ + h.l₂ * s₄ + h.l₃ * s₃ + h.l₄ * s₂)
  let d₂ ← ulonglong (h.l₀ * r.l₂ + h.l₁ * r.l₁ + h.l₂ * r.l₀ + h.l₃ * s₄ + h.l₄ * s₃)
  let d₃ ← ulonglong (h.l₀ * r.l₃ + h.l₁ * r.l₂ + h.l₂ * r.l₁ + h.l₃ * r.l₀ + h.l₄ * s₄)
  let d₄ ← ulonglong (h.l₀ * r.l₄ + h.l₁ * r.l₃ + h.l₂ * r.l₂ + h.l₃ * r.l₁ + h.l₄ * r.l₀)
  some ⟨d₀, d₁, d₂, d₃, d₄⟩

/-- The carries in `Poly1305ProcessBlock`; the last goes into the second limb. -/
def polyCarry (d : PolyLimbs) : Option PolyLimbs := do
  let carry ← ulong (d.l₀ >>> 26)
  let h₀ := d.l₀ &&& mask26
  let d₁ ← ulonglong (d.l₁ + carry)
  let carry ← ulong (d₁ >>> 26)
  let h₁ := d₁ &&& mask26
  let d₂ ← ulonglong (d.l₂ + carry)
  let carry ← ulong (d₂ >>> 26)
  let h₂ := d₂ &&& mask26
  let d₃ ← ulonglong (d.l₃ + carry)
  let carry ← ulong (d₃ >>> 26)
  let h₃ := d₃ &&& mask26
  let d₄ ← ulonglong (d.l₄ + carry)
  let carry ← ulong (d₄ >>> 26)
  let h₄ := d₄ &&& mask26
  let folded ← ulong (carry * 5)
  let h₀ ← ulong (h₀ + folded)
  let carry := h₀ >>> 26
  let h₀ := h₀ &&& mask26
  let h₁ ← ulong (h₁ + carry)
  some ⟨h₀, h₁, h₂, h₃, h₄⟩

def poly1305ProcessBlock (h r : PolyLimbs) (block : Bytes) : Option PolyLimbs := do
  let values := polyValues block
  let h₀ ← ulong (h.l₀ + values.l₀)
  let h₁ ← ulong (h.l₁ + values.l₁)
  let h₂ ← ulong (h.l₂ + values.l₂)
  let h₃ ← ulong (h.l₃ + values.l₃)
  let h₄ ← ulong (h.l₄ + values.l₄)
  let d ← polyProducts ⟨h₀, h₁, h₂, h₃, h₄⟩ r
  polyCarry d

/-- The loop of `Poly1305` over the message. -/
def poly1305Blocks (r h : PolyLimbs) : Bytes → Option PolyLimbs
  | [] => some h
  | c :: message => do
    let h ← poly1305ProcessBlock h r ((c :: message).take 16)
    poly1305Blocks r h ((c :: message).drop 16)
termination_by message => message.length
decreasing_by simp

/-- The multiplier; the shifts to the left drop the bits that a mask would. -/
def polyKey (key : Bytes) : Option PolyLimbs := do
  let t₀ := (readLittleEndian32 key).toNat
  let t₁ := (readLittleEndian32 (key.drop 4)).toNat
  let t₂ := (readLittleEndian32 (key.drop 8)).toNat
  let t₃ := (readLittleEndian32 (key.drop 12)).toNat
  let r₁ ← joined (t₀ >>> 26) 6 t₁
  let r₂ ← joined (t₁ >>> 20) 12 t₂
  let r₃ ← joined (t₂ >>> 14) 18 t₃
  some ⟨t₀ &&& mask26, r₁ % 2 ^ 32 &&& 0x3ffff03, r₂ % 2 ^ 32 &&& 0x3ffc0ff,
    r₃ % 2 ^ 32 &&& 0x3f03fff, t₃ >>> 8 &&& 0x00fffff⟩

/-- The carries of `Poly1305` behind the last block. -/
def polyCarryFinal (h : PolyLimbs) : Option PolyLimbs := do
  let carry := h.l₁ >>> 26
  let h₁ := h.l₁ &&& mask26
  let h₂ ← ulong (h.l₂ + carry)
  let carry := h₂ >>> 26
  let h₂ := h₂ &&& mask26
  let h₃ ← ulong (h.l₃ + carry)
  let carry := h₃ >>> 26
  let h₃ := h₃ &&& mask26
  let h₄ ← ulong (h.l₄ + carry)
  let carry := h₄ >>> 26
  let h₄ := h₄ &&& mask26
  let folded ← ulong (carry * 5)
  let h₀ ← ulong (h.l₀ + folded)
  let carry := h₀ >>> 26
  let h₀ := h₀ &&& mask26
  let h₁ ← ulong (h₁ + carry)
  some ⟨h₀, h₁, h₂, h₃, h₄⟩

/-- The subtraction of the prime, by way of adding five; the top limb keeps its sign. -/
def polySubtract (h : PolyLimbs) : Option PolyLimbs := do
  let g₀ ← ulong (h.l₀ + 5)
  let g₁ ← ulong (h.l₁ + g₀ >>> 26)
  let g₂ ← ulong (h.l₂ + g₁ >>> 26)
  let g₃ ← ulong (h.l₃ + g₂ >>> 26)
  let g₄ ← ulong (h.l₄ + g₃ >>> 26)
  some ⟨g₀ &&& mask26, g₁ &&& mask26, g₂ &&& mask26, g₃ &&& mask26,
    (g₄ + (2 ^ 32 - 2 ^ 26)) % 2 ^ 32⟩

/-- The choice between the number and the number less the prime. -/
def polySelect (h g : PolyLimbs) : PolyLimbs :=
  let mask := (g.l₄ >>> 31 + (2 ^ 32 - 1)) % 2 ^ 32
  let notMask := 2 ^ 32 - 1 - mask
  { l₀ := (h.l₀ &&& notMask) ||| (g.l₀ &&& mask)
    l₁ := (h.l₁ &&& notMask) ||| (g.l₁ &&& mask)
    l₂ := (h.l₂ &&& notMask) ||| (g.l₂ &&& mask)
    l₃ := (h.l₃ &&& notMask) ||| (g.l₃ &&& mask)
    l₄ := (h.l₄ &&& notMask) ||| (g.l₄ &&& mask) }

/-- The tag: the low 128 bits of the number and the second half of the key. -/
def polyTag (h : PolyLimbs) (key : Bytes) : Option Bytes := do
  let p₀ ← joined h.l₀ 26 h.l₁
  let p₁ ← joined (h.l₁ >>> 6) 20 h.l₂
  let p₂ ← joined (h.l₂ >>> 12) 14 h.l₃
  let p₃ ← joined (h.l₃ >>> 18) 8 h.l₄
  let f₀ ← ulonglong ((p₀ &&& 0xffffffff) + (readLittleEndian32 (key.drop 16)).toNat)
  let f₁ ← ulonglong ((p₁ &&& 0xffffffff) + (readLittleEndian32 (key.drop 20)).toNat + f₀ >>> 32)
  let f₂ ← ulonglong ((p₂ &&& 0xffffffff) + (readLittleEndian32 (key.drop 24)).toNat + f₁ >>> 32)
  let f₃ ← ulonglong ((p₃ &&& 0xffffffff) + (readLittleEndian32 (key.drop 28)).toNat + f₂ >>> 32)
  some ([f₀, f₁, f₂, f₃].flatMap fun f => writeLittleEndian32 (UInt32.ofNat f))

def poly1305 (key message : Bytes) : Option Bytes := do
  let r ← polyKey key
  let h ← poly1305Blocks r ⟨0, 0, 0, 0, 0⟩ message
  let h ← polyCarryFinal h
  let g ← polySubtract h
  polyTag (polySelect h g) key

end KernelHttp.Crypto
