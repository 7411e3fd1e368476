/-
  The cipher AES-128 (FIPS 197).

  This states what the block cipher of the source is for; the program's own code is in
  `Crypto.Aes`.  The field and the S-box are computed, not read from a table.
-/
import KernelHttp.Core.Types

namespace KernelHttp.Crypto.Fips197

/-! ## The field with 256 elements (section 4) -/

/-- The product with `x`; where `x^8` comes up it is `x^4 + x^3 + x + 1`. -/
def xtime (a : ℕ) : ℕ := 2 * a ^^^ 0x11b * (a / 0x80)

/-- The product of `b` and the highest `n` bits of an octet. -/
def gfMulBits (a b : ℕ) : ℕ → ℕ
  | 0 => 0
  | n + 1 => xtime (gfMulBits a b n) ^^^ b * (a / 2 ^ (7 - n) % 2)

/-- The product of two elements. -/
def gfMul (a b : ℕ) : ℕ := gfMulBits a b 8

/-- The inverse, `a^254`: the product of the squares `a^2` up to `a^128`. -/
def inverse (a : ℕ) : ℕ :=
  ((fun (s, p) => (gfMul s s, gfMul p (gfMul s s)))^[7] (a, 1)).2

/-! ## The transformations (section 5.1) -/

/-- The affine transformation over the bits. -/
def affine (b : ℕ) : ℕ :=
  let bit (v i : ℕ) : ℕ := (v.testBit (i % 8)).toNat
  ((List.range 8).map fun i => 2 ^ i *
    ((bit b i + bit b (i + 4) + bit b (i + 5) + bit b (i + 6) + bit b (i + 7) + bit 0x63 i) % 2)).sum

/-- `SBOX()`; zero has itself as its inverse. -/
def sbox (a : UInt8) : UInt8 := UInt8.ofNat (affine (inverse a.toNat))

/-- The state: an octet for every row and column. -/
abbrev State := Fin 4 → Fin 4 → UInt8

abbrev Word := Fin 4 → UInt8

/-- `SUBBYTES()`. -/
def subBytes (s : State) : State := fun r c => sbox (s r c)

/-- `SHIFTROWS()`. -/
def shiftRows (s : State) : State := fun r c => s r (c + r)

/-- `MIXCOLUMNS()`. -/
def mixColumns (s : State) : State := fun r c =>
  UInt8.ofNat (gfMul 2 (s r c).toNat) ^^^ UInt8.ofNat (gfMul 3 (s (r + 1) c).toNat) ^^^
    s (r + 2) c ^^^ s (r + 3) c

/-- `ADDROUNDKEY()`, with a word for every column. -/
def addRoundKey (s : State) (w : Fin 4 → Word) : State := fun r c => s r c ^^^ w c r

/-! ## The key schedule (section 5.2) -/

/-- `ROTWORD()`. -/
def rotWord (w : Word) : Word := fun j => w (j + 1)

/-- `SUBWORD()`. -/
def subWord (w : Word) : Word := fun j => sbox (w j)

/-- `Rcon[n]`. -/
def rcon (n : ℕ) : Word := ![UInt8.ofNat (xtime^[n - 1] 1), 0, 0, 0]

/-- The word `w[i]` of `KEYEXPANSION()`. -/
def keyWord (key : Bytes) (i : ℕ) : Word :=
  if i < 4 then fun j => key.getD (4 * i + j) 0
  else
    let temp := keyWord key (i - 1)
    let temp : Word :=
      if i % 4 = 0 then fun j => subWord (rotWord temp) j ^^^ rcon (i / 4) j else temp
    fun j => keyWord key (i - 4) j ^^^ temp j
termination_by i

def roundKey (key : Bytes) (round : ℕ) : Fin 4 → Word := fun c => keyWord key (4 * round + c)

/-! ## The cipher -/

/-- The state that octets are read into, column by column. -/
def stateOf (t : Bytes) : State := fun r c => t.getD (r + 4 * c) 0

def octetsOf (s : State) : Bytes :=
  (List.finRange 4).flatMap fun c => (List.finRange 4).map fun r => s r c

def round (key : Bytes) (s : State) (n : ℕ) : State :=
  addRoundKey (mixColumns (shiftRows (subBytes s))) (roundKey key n)

/-- `CIPHER()` with ten rounds. -/
def cipher (key input : Bytes) : Bytes :=
  let s := addRoundKey (stateOf input) (roundKey key 0)
  let s := (List.range' 1 9).foldl (round key) s
  octetsOf (addRoundKey (shiftRows (subBytes s)) (roundKey key 10))

end KernelHttp.Crypto.Fips197
