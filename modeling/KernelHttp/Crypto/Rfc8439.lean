/-
  ChaCha20 and Poly1305 (RFC 8439).

  This states what the cipher of the source is for; the program's own code is in
  `Crypto.ChaCha20` and `Crypto.Poly1305`.
-/
import KernelHttp.Crypto.Blocks
import KernelHttp.Crypto.LittleEndian

namespace KernelHttp.Crypto.Rfc8439

open BigEndian

/-! ## ChaCha20 (section 2.1 to 2.4) -/

abbrev Word := BitVec 32

abbrev State := Fin 16 → Word

/-- The `i`-th word of octets, lowest octet first. -/
def word (t : Bytes) (i : ℕ) : Word :=
  BitVec.ofNat 32 (decodeLittleEndian ((t.drop (4 * i)).take 4))

def quarter (a b c d : Word) : Word × Word × Word × Word :=
  let a := a + b
  let d := (d ^^^ a).rotateLeft 16
  let c := c + d
  let b := (b ^^^ c).rotateLeft 12
  let a := a + b
  let d := (d ^^^ a).rotateLeft 8
  let c := c + d
  let b := (b ^^^ c).rotateLeft 7
  (a, b, c, d)

/-- `QUARTERROUND(x, y, z, w)`. -/
def quarterRound (x y z w : Fin 16) (s : State) : State :=
  let (a, b, c, d) := quarter (s x) (s y) (s z) (s w)
  Function.update (Function.update (Function.update (Function.update s x a) y b) z c) w d

local instance neZeroWords : NeZero 16 := ⟨by decide⟩

/-- Four rounds on the columns and four on the diagonals. -/
def innerBlock (s : State) : State :=
  s |> quarterRound 0 4 8 12 |> quarterRound 1 5 9 13 |> quarterRound 2 6 10 14 |>
    quarterRound 3 7 11 15 |> quarterRound 0 5 10 15 |> quarterRound 1 6 11 12 |>
    quarterRound 2 7 8 13 |> quarterRound 3 4 9 14

def initialState (key : Bytes) (counter : ℕ) (nonce : Bytes) : State := fun i =>
  if i.val < 4 then ![0x61707865, 0x3320646e, 0x79622d32, 0x6b206574] ⟨i.val % 4, by omega⟩
  else if i.val < 12 then word key (i.val - 4)
  else if i.val = 12 then BitVec.ofNat 32 counter
  else word nonce (i.val - 13)

def serialize (s : State) : Bytes :=
  (List.finRange 16).flatMap fun i => (bigEndian 4 (s i).toNat).reverse

/-- `chacha20_block`. -/
def block (key : Bytes) (counter : ℕ) (nonce : Bytes) : Bytes :=
  let s := initialState key counter nonce
  serialize (innerBlock^[10] s + s)

/-- The first `n` octets of the key stream. -/
def keyStream (key : Bytes) (counter : ℕ) (nonce : Bytes) (n : ℕ) : Bytes :=
  ((List.range (n / 64 + 1)).flatMap fun j => block key (counter + j) nonce).take n

/-- `chacha20_encrypt`. -/
def encrypt (key : Bytes) (counter : ℕ) (nonce text : Bytes) : Bytes :=
  List.zipWith (· ^^^ ·) text (keyStream key counter nonce text.length)

/-! ## Poly1305 (section 2.5) -/

def p1305 : ℕ := 2 ^ 130 - 5

def blockNumber (t : Bytes) : ℕ := decodeLittleEndian (t ++ [1])

/-- The blocks times powers of `r`, the last block times `r` itself. -/
def powerSum (r : ℕ) : List ℕ → ℕ
  | [] => 0
  | c :: t => c * r ^ (t.length + 1) + powerSum r t

def clamp (r : ℕ) : ℕ := r &&& 0x0ffffffc0ffffffc0ffffffc0fffffff

/-- `poly1305_mac`. -/
def mac (key message : Bytes) : Bytes :=
  let r := clamp (decodeLittleEndian (key.take 16))
  let s := decodeLittleEndian ((key.drop 16).take 16)
  let sum := powerSum r ((blocks message).map blockNumber) % p1305
  (bigEndian 16 ((sum + s) % 2 ^ 128)).reverse

/-! ## The cipher (section 2.8) -/

/-- What the tag is computed over. -/
def macData (aad ciphertext : Bytes) : Bytes :=
  padded aad ++ padded ciphertext ++ (bigEndian 8 aad.length).reverse ++
    (bigEndian 8 ciphertext.length).reverse

def tag (key nonce aad ciphertext : Bytes) : Bytes :=
  mac ((block key 0 nonce).take 32) (macData aad ciphertext)

end KernelHttp.Crypto.Rfc8439
