/-
  Finite-field key exchange (`crypto/KeyExchange.cpp`).

  The groups of the provider are not implemented in the two functions that choose a group.
-/
import KernelHttp.Crypto.X448

namespace KernelHttp.Crypto

inductive KeyExchangeGroup
  | secp256r1 | secp384r1 | secp521r1 | x25519 | x448
  | ffdhe2048 | ffdhe3072 | ffdhe4096 | ffdhe6144 | ffdhe8192
deriving DecidableEq, Repr

def x25519KeyLength : ℕ := 32

/-- The rows of the moduli, but for the last row of each: the moduli start alike. -/
def ffdheRows : List ℕ :=
  [0xFFFFFFFFFFFFFFFFADF85458A2BB4A9AAFDC5620273D3CF1D8B9C583CE2D3695,
    0xA9E13641146433FBCC939DCE249B3EF97D2FE363630C75D8F681B202AEC4617A,
    0xD3DF1ED5D5FD65612433F51F5F066ED0856365553DED1AF3B557135E7F57C935,
    0x984F0C70E0E68B77E2A689DAF3EFE8721DF158A136ADE73530ACCA4F483A797A,
    0xBC0AB182B324FB61D108A94BB2C8E3FBB96ADAB760D7F4681D4F42A3DE394DF4,
    0xAE56EDE76372BB190B07A7C8EE0A6D709E02FCE1CDF7E2ECC03404CD28342F61,
    0x9172FE9CE98583FF8E4F1232EEF28183C3FE3B1B4C6FAD733BB5FCBC2EC22005,
    0xC58EF1837D1683B2C6F34A26C1B2EFFA886B4238611FCFDCDE355B3B6519035B,
    0xBC34F4DEF99C023861B46FC9D6E6C9077AD91D2691F7F7EE598CB0FAC186D91C,
    0xAEFE130985139270B4130C93BC437944F4FD4452E2D74DD364F2E21E71F54BFF,
    0x5CAE82AB9C9DF69EE86D2BC522363A0DABC521979B0DEADA1DBF9A42D5C4484E,
    0x0ABCD06BFA53DDEF3C1B20EE3FD59D7C25E41D2B669E1EF16E6F52C3164DF4FB,
    0x7930E9E4E58857B6AC7D5F42D69F6D187763CF1D5503400487F55BA57E31CC7A,
    0x7135C886EFB4318AED6A1E012D9E6832A907600A918130C46DC778F971AD0038,
    0x092999A333CB8B7A1A1DB93D7140003C2A4ECEA9F98D0ACC0A8291CDCEC97DCF,
    0x8EC9B55A7F88A46B4DB5A851F44182E1C68A007E5E0DD9020BFD64B645036C7A,
    0x4E677D2C38532A3A23BA4442CAF53EA63BB454329B7624C8917BDD64B1C0FD4C,
    0xB38E8C334C701C3ACDAD0657FCCFEC719B1F5C3E4E46041F388147FB4CFDB477,
    0xA52471F7A9A96910B855322EDB6340D8A00EF092350511E30ABEC1FFF9E3A26E,
    0x7FB29F8C183023C3587E38DA0077D9B4763E4E4B94B2BBC194C6651E77CAF992,
    0xEEAAC0232A281BF6B3A739C1226116820AE8DB5847A67CBEF9C9091B462D538C,
    0xD72B03746AE77F5E62292C311562A846505DC82DB854338AE49F5235C95B9117,
    0x8CCF2DD5CACEF403EC9D1810C6272B045B3B71F9DC6B80D63FDD4A8E9ADB1E69,
    0x62A69526D43161C1A41D570D7938DAD4A40E329CCFF46AAA36AD004CF600C838,
    0x1E425A31D951AE64FDB23FCEC9509D43687FEB69EDD1CC5E0B8CC3BDF64B10EF,
    0x86B63142A3AB8829555B2F747C932665CB2C0F1CC01BD70229388839D2AF05E4,
    0x54504AC78B7582822846C0BA35C35F5C59160CC046FD8251541FC68C9C86B022,
    0xBB7099876A460E7451A8A93109703FEE1C217E6C3826E52C51AA691E0E423CFC,
    0x99E9E31650C1217B624816CDAD9A95F9D5B8019488D9C0A0A1FE3075A577E231,
    0x83F81D4A3F2FA4571EFC8CE0BA8A4FE8B6855DFE72B0A66EDED2FBABFBE58A30,
    0xFAFABE1C5D71A87E2F741EF8C1FE86FEA6BBFDE530677F0D97D11D49F7A8443D]

/-- A modulus of `count` common rows and a row of its own. -/
def ffdheModulusHex (count last : ℕ) : Bytes :=
  (ffdheRows.take count ++ [last]).flatMap (hexText 64)

def ffdhe2048ModulusHex : Bytes :=
  ffdheModulusHex 7 0xC58EF1837D1683B2C6F34A26C1B2EFFA886B423861285C97FFFFFFFFFFFFFFFF

def ffdhe3072ModulusHex : Bytes :=
  ffdheModulusHex 11 0x0ABCD06BFA53DDEF3C1B20EE3FD59D7C25E41D2B66C62E37FFFFFFFFFFFFFFFF

def ffdhe4096ModulusHex : Bytes :=
  ffdheModulusHex 15 0x8EC9B55A7F88A46B4DB5A851F44182E1C68A007E5E655F6AFFFFFFFFFFFFFFFF

def ffdhe6144ModulusHex : Bytes :=
  ffdheModulusHex 23 0x62A69526D43161C1A41D570D7938DAD4A40E329CD0E40E65FFFFFFFFFFFFFFFF

def ffdhe8192ModulusHex : Bytes :=
  ffdheModulusHex 31 0x0822E506A9F4614E011E2A94838FF88CD68C8BB7C5C6424CFFFFFFFFFFFFFFFF

structure FfdheGroupParameters where
  group : KeyExchangeGroup
  modulusHex : Bytes
  modulusLength : ℕ

def ffdheGroups : List FfdheGroupParameters :=
  [⟨.ffdhe2048, ffdhe2048ModulusHex, 256⟩, ⟨.ffdhe3072, ffdhe3072ModulusHex, 384⟩,
    ⟨.ffdhe4096, ffdhe4096ModulusHex, 512⟩, ⟨.ffdhe6144, ffdhe6144ModulusHex, 768⟩,
    ⟨.ffdhe8192, ffdhe8192ModulusHex, 1024⟩]

def findFfdheGroup (group : KeyExchangeGroup) : Option FfdheGroupParameters :=
  ffdheGroups.find? fun parameters => parameters.group = group

def ffdheGeneratorTwo : Bytes := [2]

/-- `CompareBigEndian`: the first octets that differ decide. -/
def compareBigEndian : Bytes → Bytes → ℤ
  | l :: left, r :: right =>
    if l < r then -1 else if l > r then 1 else compareBigEndian left right
  | _, _ => 0

def isBigEndianOne (value : Bytes) : Bool :=
  value.length ≠ 0 ∧ value.getD (value.length - 1) 0 = 1 ∧
    ∀ c ∈ value.take (value.length - 1), c = 0

def normalizeFfdhePublicKey (publicKey : Bytes) (normalizedLength : ℕ) :
    Except NTSTATUS Bytes :=
  if publicKey.length = 0 ∨ normalizedLength = 0 then .error statusInvalidParameter
  else
    let publicKey := publicKey.dropWhile (· == 0)
    if publicKey.length = 0 ∨ publicKey.length > normalizedLength then
      .error statusInvalidNetworkResponse
    else .ok (List.replicate (normalizedLength - publicKey.length) 0 ++ publicKey)

/-- The loop of `SubtractOneBigEndian`, lowest octet first. -/
def subtractOneLoop : Bytes → Bytes
  | [] => []
  | c :: value => if c ≠ 0 then (c - 1) :: value else 0xff :: subtractOneLoop value

def subtractOneBigEndian (value : Bytes) : Bytes := (subtractOneLoop value.reverse).reverse

def validateFfdhePublicKeyWithParameters (parameters : FfdheGroupParameters)
    (publicKey : Bytes) : Except NTSTATUS Unit := do
  let modulus ← parseHexToBytes parameters.modulusHex parameters.modulusLength
  let normalized ← normalizeFfdhePublicKey publicKey parameters.modulusLength
  let upperBound := subtractOneBigEndian modulus
  if isAllZero normalized ∨ isBigEndianOne normalized ∨
      compareBigEndian normalized upperBound ≥ 0 then
    .error statusInvalidNetworkResponse
  else .ok ()

/-- A bit of the exponent in `FfdheModularExponent`: the product is computed whether the
    bit is set or not. -/
def ffdheExponentBit (modulus baseMontgomery : Limbs32) (n0Prime : UInt32) (productCount : ℕ)
    (result : Limbs32) (exponentBit : Bool) : Except NTSTATUS Limbs32 := do
  let result ← montgomeryMultiply result result modulus n0Prime productCount
  let scratch ← montgomeryMultiply result baseMontgomery modulus n0Prime productCount
  .ok (selectLimbs result scratch exponentBit)

def ffdheModularExponent (parameters : FfdheGroupParameters) (base exponent : Bytes)
    (outputLength : ℕ) : Except NTSTATUS Bytes :=
  if base.length = 0 ∨ exponent.length = 0 ∨ outputLength < parameters.modulusLength then
    .error statusInvalidParameter
  else do
    let limbCount := limbCountForBytes parameters.modulusLength
    let productCount := limbCount * 2 + 1
    let modulusBytes ← parseHexToBytes parameters.modulusHex parameters.modulusLength
    let normalizedBase ← normalizeFfdhePublicKey base parameters.modulusLength
    let modulus := bigEndianToLimbs limbCount modulusBytes
    let baseRegular := bigEndianToLimbs limbCount normalizedBase
    let baseMontgomery := convertToMontgomery modulus baseRegular
    let one := (List.replicate limbCount 0).set 0 1
    let n0Prime := montgomeryN0Prime (modulus.headD 0)
    let result ← (List.range (exponent.length * 8)).reverse.foldlM
      (fun result remaining => ffdheExponentBit modulus baseMontgomery n0Prime productCount result
        (exponentBitIsSet exponent remaining))
      (convertToMontgomery modulus one)
    let result ← montgomeryMultiply result one modulus n0Prime productCount
    .ok (limbsToBigEndian result parameters.modulusLength)

def x25519BasePoint : Bytes := 9 :: List.replicate 31 0

def x448BasePoint : Bytes := 5 :: List.replicate 55 0

/-- `KeyExchange::DerivePublicKey`; nothing where a limb of X25519 overflows. -/
def derivePublicKey (group : KeyExchangeGroup) (privateKey : Bytes) (publicKeyCapacity : ℕ) :
    Option (Except NTSTATUS Bytes) :=
  match findFfdheGroup group with
  | some ffdhe =>
    if privateKey.length = 0 ∨ publicKeyCapacity < ffdhe.modulusLength then
      some (.error statusInvalidParameter)
    else some (ffdheModularExponent ffdhe ffdheGeneratorTwo privateKey publicKeyCapacity)
  | none =>
    match group with
    | .x25519 =>
      if privateKey.length ≠ x25519KeyLength ∨ publicKeyCapacity < x25519KeyLength then
        some (.error statusInvalidParameter)
      else x25519 privateKey x25519BasePoint
    | .x448 =>
      if privateKey.length ≠ x448KeyLength ∨ publicKeyCapacity < x448KeyLength then
        some (.error statusInvalidParameter)
      else some (x448 privateKey x448BasePoint)
    | _ => some (.error statusNotSupported)

/-- The end of `KeyExchange::DeriveSharedSecret` for the two curves. -/
def finishSharedSecret (result : Except NTSTATUS Bytes) : Except NTSTATUS Bytes := do
  let sharedSecret ← result
  if isAllZero sharedSecret then .error statusInvalidNetworkResponse else .ok sharedSecret

/-- `KeyExchange::DeriveSharedSecret`; nothing where a limb of X25519 overflows. -/
def deriveSharedSecret (group : KeyExchangeGroup) (privateKey peerPublicKey : Bytes)
    (sharedSecretCapacity : ℕ) : Option (Except NTSTATUS Bytes) :=
  match findFfdheGroup group with
  | some ffdhe =>
    if privateKey.length = 0 ∨ peerPublicKey.length = 0 ∨
        sharedSecretCapacity < ffdhe.modulusLength then
      some (.error statusInvalidParameter)
    else some do
      validateFfdhePublicKeyWithParameters ffdhe peerPublicKey
      ffdheModularExponent ffdhe peerPublicKey privateKey sharedSecretCapacity
  | none =>
    match group with
    | .x25519 =>
      if privateKey.length ≠ x25519KeyLength ∨ peerPublicKey.length ≠ x25519KeyLength ∨
          sharedSecretCapacity < x25519KeyLength then
        some (.error statusInvalidParameter)
      else (x25519 privateKey peerPublicKey).map finishSharedSecret
    | .x448 =>
      if privateKey.length ≠ x448KeyLength ∨ peerPublicKey.length ≠ x448KeyLength ∨
          sharedSecretCapacity < x448KeyLength then
        some (.error statusInvalidParameter)
      else some (finishSharedSecret (x448 privateKey peerPublicKey))
    | _ => some (.error statusNotSupported)

end KernelHttp.Crypto
