/-
  Certificates (`CertificateValidator::ParseCertificate`).

  The fields are cut out of the DER encoding; a critical extension that is unknown is refused.
-/
import KernelHttp.Tls.Der

namespace KernelHttp.Tls

/-! ## Object identifiers -/

def oidCommonName : Bytes := [0x55, 0x04, 0x03]
def oidRsaEncryption : Bytes := [0x2a, 0x86, 0x48, 0x86, 0xf7, 0x0d, 0x01, 0x01, 0x01]
def oidSha256WithRsa : Bytes := [0x2a, 0x86, 0x48, 0x86, 0xf7, 0x0d, 0x01, 0x01, 0x0b]
def oidSha384WithRsa : Bytes := [0x2a, 0x86, 0x48, 0x86, 0xf7, 0x0d, 0x01, 0x01, 0x0c]
def oidEcPublicKey : Bytes := [0x2a, 0x86, 0x48, 0xce, 0x3d, 0x02, 0x01]
def oidSecp256r1 : Bytes := [0x2a, 0x86, 0x48, 0xce, 0x3d, 0x03, 0x01, 0x07]
def oidSecp384r1 : Bytes := [0x2b, 0x81, 0x04, 0x00, 0x22]
def oidSecp521r1 : Bytes := [0x2b, 0x81, 0x04, 0x00, 0x23]
def oidEcdsaWithSha256 : Bytes := [0x2a, 0x86, 0x48, 0xce, 0x3d, 0x04, 0x03, 0x02]
def oidEcdsaWithSha384 : Bytes := [0x2a, 0x86, 0x48, 0xce, 0x3d, 0x04, 0x03, 0x03]
def oidEd25519 : Bytes := [0x2b, 0x65, 0x70]
def oidEd448 : Bytes := [0x2b, 0x65, 0x71]
def oidBasicConstraints : Bytes := [0x55, 0x1d, 0x13]
def oidKeyUsage : Bytes := [0x55, 0x1d, 0x0f]
def oidSubjectAltName : Bytes := [0x55, 0x1d, 0x11]
def oidNameConstraints : Bytes := [0x55, 0x1d, 0x1e]
def oidCertificatePolicies : Bytes := [0x55, 0x1d, 0x20]
def oidAnyPolicy : Bytes := [0x55, 0x1d, 0x20, 0x00]
def oidPolicyConstraints : Bytes := [0x55, 0x1d, 0x24]
def oidInhibitAnyPolicy : Bytes := [0x55, 0x1d, 0x36]
def oidExtendedKeyUsage : Bytes := [0x55, 0x1d, 0x25]
def oidServerAuth : Bytes := [0x2b, 0x06, 0x01, 0x05, 0x05, 0x07, 0x03, 0x01]

/-! ## The certificate -/

inductive CertificatePublicKeyAlgorithm where
  | unknown
  | rsa
  | ecdsaP256
  | ecdsaP384
  | ecdsaP521
  | ed25519
  | ed448
deriving DecidableEq

inductive CertificateSignatureAlgorithm where
  | unknown
  | rsaPkcs1Sha256
  | rsaPkcs1Sha384
  | ecdsaSha256
  | ecdsaSha384
  | ed25519
  | ed448
deriving DecidableEq

def certificateMaxNameConstraints : ℕ := 8
def certificateMaxCertificatePolicies : ℕ := 8
def khMinRsaModulusBits : ℕ := 2048

/-- `ParsedCertificate`; an array with its count is a list, `pathLenConstraint` is the bound if
there is one, `commonName` is null if there is none. -/
structure ParsedCertificate where
  der : Bytes := []
  tbsCertificate : Bytes := []
  serialNumber : Bytes := []
  subject : Bytes := []
  issuer : Bytes := []
  subjectPublicKeyInfo : Bytes := []
  publicKey : Bytes := []
  rsaModulus : Bytes := []
  rsaExponent : Bytes := []
  signature : Bytes := []
  commonName : Option Bytes := none
  dnsNames : List Bytes := []
  ipAddresses : List Bytes := []
  publicKeyAlgorithm : CertificatePublicKeyAlgorithm := .unknown
  signatureAlgorithm : CertificateSignatureAlgorithm := .unknown
  notBefore : ℕ := 0
  notAfter : ℕ := 0
  isCa : Bool := false
  hasBasicConstraints : Bool := false
  pathLenConstraint : Option ℕ := none
  hasKeyUsage : Bool := false
  allowsDigitalSignature : Bool := false
  allowsKeyEncipherment : Bool := false
  allowsKeyCertSign : Bool := false
  hasExtendedKeyUsage : Bool := false
  allowsServerAuth : Bool := false
  hasNameConstraints : Bool := false
  permittedDnsSubtrees : List Bytes := []
  excludedDnsSubtrees : List Bytes := []
  permittedIpSubtrees : List Bytes := []
  excludedIpSubtrees : List Bytes := []
  permittedDirectoryNames : List Bytes := []
  excludedDirectoryNames : List Bytes := []
  hasCertificatePolicies : Bool := false
  certificatePoliciesCritical : Bool := false
  certificatePolicyOids : List Bytes := []
  hasAnyPolicy : Bool := false
  hasPolicyConstraints : Bool := false
  requireExplicitPolicy : Bool := false
  requireExplicitPolicySkipCerts : ℕ := 0
  inhibitPolicyMapping : Bool := false
  inhibitPolicyMappingSkipCerts : ℕ := 0
  hasInhibitAnyPolicy : Bool := false
  inhibitAnyPolicySkipCerts : ℕ := 0
deriving DecidableEq

def oidEquals (oid : DerElement) (expected : Bytes) : Bool :=
  oid.tag == tagOid && oid.value == expected

/-- `ParseAlgorithmIdentifier` for the algorithm of a signature. -/
def parseSignatureAlgorithm (algorithm : DerElement) :
    Except NTSTATUS CertificateSignatureAlgorithm := do
  let (oid, _) ← readExpected tagOid algorithm.value
  if oid.value = oidSha256WithRsa then .ok .rsaPkcs1Sha256
  else if oid.value = oidSha384WithRsa then .ok .rsaPkcs1Sha384
  else if oid.value = oidEcdsaWithSha256 then .ok .ecdsaSha256
  else if oid.value = oidEcdsaWithSha384 then .ok .ecdsaSha384
  else if oid.value = oidEd25519 then .ok .ed25519
  else if oid.value = oidEd448 then .ok .ed448
  else .ok .unknown

/-- `ParseAlgorithmIdentifier` for the algorithm of a key. -/
def parsePublicKeyAlgorithm (algorithm : DerElement) :
    Except NTSTATUS CertificatePublicKeyAlgorithm := do
  let (oid, rest) ← readExpected tagOid algorithm.value
  if oid.value = oidRsaEncryption then .ok .rsa
  else if oid.value = oidEd25519 then .ok .ed25519
  else if oid.value = oidEd448 then .ok .ed448
  else if oid.value = oidEcPublicKey then do
    let (curve, _) ← readExpected tagOid rest
    if curve.value = oidSecp256r1 then .ok .ecdsaP256
    else if curve.value = oidSecp384r1 then .ok .ecdsaP384
    else if curve.value = oidSecp521r1 then .ok .ecdsaP521
    else .ok .unknown
  else .ok .unknown

def isCharacterString (tag : UInt8) : Bool :=
  tag == tagUtf8String || tag == tagPrintableString || tag == tagIa5String

/-- An item of `ParseName`; the first common name counts. -/
def parseNameAttribute (certificate : ParsedCertificate) (item : DerElement) :
    Except NTSTATUS ParsedCertificate := do
  let (oid, rest) ← readExpected tagOid item.value
  let (value, _) ← readElement rest
  if certificate.commonName.isNone ∧ oidEquals oid oidCommonName ∧ isCharacterString value.tag then
    .ok { certificate with commonName := some value.value }
  else .ok certificate

def parseName (name : DerElement) (certificate : ParsedCertificate) :
    Except NTSTATUS ParsedCertificate :=
  forExpected tagSet
    (fun certificate set => forExpected tagSequence parseNameAttribute certificate set.value)
    certificate name.value

def parseSubjectPublicKeyInfo (spki : DerElement) (certificate : ParsedCertificate) :
    Except NTSTATUS ParsedCertificate := do
  let (algorithm, rest) ← readExpected tagSequence spki.value
  let publicKeyAlgorithm ← parsePublicKeyAlgorithm algorithm
  let (key, _) ← readExpected tagBitString rest
  if key.value.length < 2 ∨ key.value.head? ≠ some 0 then .error statusNotSupported
  else do
    let certificate :=
      { certificate with
        subjectPublicKeyInfo := spki.full
        publicKeyAlgorithm := publicKeyAlgorithm
        publicKey := key.value.drop 1 }
    if publicKeyAlgorithm = .rsa then do
      let (rsaSequence, _) ← readExpected tagSequence certificate.publicKey
      let (modulus, rest) ← readExpected tagInteger rsaSequence.value
      let (exponent, _) ← readExpected tagInteger rest
      -- leading zeros are dropped, up to the last octet
      let rsaModulus := modulus.value.dropLast.dropWhile (· == 0) ++ modulus.value.getLast?.toList
      if rsaModulus.length * 8 < khMinRsaModulusBits then .error statusNotSupported
      else .ok { certificate with rsaModulus := rsaModulus, rsaExponent := exponent.value }
    else if publicKeyAlgorithm = .unknown then .error statusNotSupported
    else .ok certificate

/-! ## Extensions -/

def parseBasicConstraints (value : Bytes) (certificate : ParsedCertificate) :
    Except NTSTATUS ParsedCertificate := do
  let (sequence, _) ← readExpected tagSequence value
  let (isCa, pathLen, rest) ←
    match sequence.value with
    | [] => .ok (false, none, [])
    | _ => do
      let (ca, rest) ← readElement sequence.value
      if ca.tag = tagBoolean ∧ ca.value.length = 1 then .ok (ca.value.head? != some 0, none, rest)
      else if ca.tag = tagInteger then do
        let pathLen ← parseUnsignedDerInteger ca
        .ok (false, some pathLen, rest)
      else .error statusInvalidNetworkResponse
  let (pathLen, rest) ←
    match rest with
    | [] => .ok (pathLen, [])
    | _ => do
      let (integer, rest) ← readExpected tagInteger rest
      let pathLen ← parseUnsignedDerInteger integer
      .ok (some pathLen, rest)
  if rest ≠ [] ∨ (pathLen.isSome ∧ ¬ isCa) then .error statusInvalidNetworkResponse
  else
    .ok { certificate with
      hasBasicConstraints := true, isCa := isCa, pathLenConstraint := pathLen }

def bitStringHasBit (bitString : Bytes) (bitIndex : ℕ) : Bool :=
  match bitString[1 + bitIndex / 8]? with
  | some octet => octet.toNat.testBit (7 - bitIndex % 8)
  | none => false

def parseKeyUsage (value : Bytes) (certificate : ParsedCertificate) :
    Except NTSTATUS ParsedCertificate := do
  let (bitString, rest) ← readExpected tagBitString value
  let unusedBits := (bitString.value.head?.getD 0).toNat
  if rest ≠ [] ∨ bitString.value.length < 2 ∨ unusedBits > 7 then
    .error statusInvalidNetworkResponse
  else if (bitString.value.getLast?.getD 0).toNat % 2 ^ unusedBits ≠ 0 then
    .error statusInvalidNetworkResponse
  else
    .ok { certificate with
      hasKeyUsage := true
      allowsDigitalSignature := bitStringHasBit bitString.value 0
      allowsKeyEncipherment := bitStringHasBit bitString.value 2
      allowsKeyCertSign := bitStringHasBit bitString.value 5 }

/-- `IsAsciiBytes`, `NameConstraintBytesAreAscii`. -/
def isAsciiBytes (value : Bytes) : Bool := value.all (·.toNat ≤ 0x7f)

/-- An entry of `ParseSubjectAltName`. -/
def parseSubjectAltNameEntry (certificate : ParsedCertificate) (name : DerElement) :
    Except NTSTATUS ParsedCertificate :=
  if name.tag = tagDnsName then
    if ¬ isAsciiBytes name.value then .error statusInvalidNetworkResponse
    else if certificate.dnsNames.length ≥ 8 then .error statusNotSupported
    else .ok { certificate with dnsNames := certificate.dnsNames ++ [name.value] }
  else if name.tag = tagIpAddress then
    if name.value.length ≠ 4 ∧ name.value.length ≠ 16 then .error statusInvalidNetworkResponse
    else if certificate.ipAddresses.length ≥ 8 then .error statusNotSupported
    else .ok { certificate with ipAddresses := certificate.ipAddresses ++ [name.value] }
  else .ok certificate

def parseSubjectAltName (value : Bytes) (certificate : ParsedCertificate) :
    Except NTSTATUS ParsedCertificate := do
  let (names, rest) ← readExpected tagSequence value
  if rest ≠ [] then .error statusInvalidNetworkResponse
  else forElements parseSubjectAltNameEntry certificate names.value

def addSubtree (subtrees : List Bytes) (valid : Bool) (value : Bytes) :
    Except NTSTATUS (List Bytes) :=
  if ¬ valid then .error statusInvalidNetworkResponse
  else if subtrees.length ≥ certificateMaxNameConstraints then .error statusNotSupported
  else .ok (subtrees ++ [value])

def addDnsNameConstraint (certificate : ParsedCertificate) (permitted : Bool) (value : Bytes) :
    Except NTSTATUS ParsedCertificate :=
  let valid := value.length != 0 && isAsciiBytes value
  if permitted then do
    let subtrees ← addSubtree certificate.permittedDnsSubtrees valid value
    .ok { certificate with permittedDnsSubtrees := subtrees }
  else do
    let subtrees ← addSubtree certificate.excludedDnsSubtrees valid value
    .ok { certificate with excludedDnsSubtrees := subtrees }

def addIpNameConstraint (certificate : ParsedCertificate) (permitted : Bool) (value : Bytes) :
    Except NTSTATUS ParsedCertificate :=
  let valid := value.length == 8 || value.length == 32
  if permitted then do
    let subtrees ← addSubtree certificate.permittedIpSubtrees valid value
    .ok { certificate with permittedIpSubtrees := subtrees }
  else do
    let subtrees ← addSubtree certificate.excludedIpSubtrees valid value
    .ok { certificate with excludedIpSubtrees := subtrees }

def addDirectoryNameConstraint (certificate : ParsedCertificate) (permitted : Bool)
    (value : Bytes) : Except NTSTATUS ParsedCertificate :=
  if value.length = 0 then .error statusInvalidNetworkResponse
  else do
    let (name, rest) ← readExpected tagSequence value
    if permitted then do
      let names ← addSubtree certificate.permittedDirectoryNames (rest == []) name.full
      .ok { certificate with permittedDirectoryNames := names }
    else do
      let names ← addSubtree certificate.excludedDirectoryNames (rest == []) name.full
      .ok { certificate with excludedDirectoryNames := names }

def parseGeneralSubtreeRemainder (data : Bytes) : Except NTSTATUS Unit :=
  forElements (fun _ field =>
    if field.tag = tagMinimumBaseDistance then
      if field.value ≠ [0] then .error statusNotSupported else .ok ()
    else if field.tag = tagMaximumBaseDistance then .error statusNotSupported
    else .error statusInvalidNetworkResponse) () data

def parseNameConstraintSubtree (permitted : Bool) (certificate : ParsedCertificate)
    (subtree : DerElement) : Except NTSTATUS ParsedCertificate := do
  let (base, rest) ← readElement subtree.value
  let certificate ←
    if base.tag = tagDnsName then addDnsNameConstraint certificate permitted base.value
    else if base.tag = tagIpAddress then addIpNameConstraint certificate permitted base.value
    else if base.tag = tagDirectoryName then
      addDirectoryNameConstraint certificate permitted base.value
    else .error statusNotSupported
  parseGeneralSubtreeRemainder rest
  .ok certificate

def parseNameConstraintSubtrees (certificate : ParsedCertificate) (subtrees : DerElement) :
    Except NTSTATUS ParsedCertificate :=
  if subtrees.tag ≠ tagPermittedSubtrees ∧ subtrees.tag ≠ tagExcludedSubtrees then
    .error statusInvalidNetworkResponse
  else if subtrees.value.length = 0 then .error statusInvalidNetworkResponse
  else
    forExpected tagSequence (parseNameConstraintSubtree (subtrees.tag == tagPermittedSubtrees))
      certificate subtrees.value

/-- The permitted and the excluded subtrees. -/
def parseNameConstraints (value : Bytes) (certificate : ParsedCertificate) :
    Except NTSTATUS ParsedCertificate := do
  let (constraints, rest) ← readExpected tagSequence value
  if rest ≠ [] then .error statusInvalidNetworkResponse
  else do
    let certificate ← forElements parseNameConstraintSubtrees certificate constraints.value
    .ok { certificate with hasNameConstraints := true }

/-- `IsValidObjectIdentifierValue`: the last octet ends a number. -/
def isValidObjectIdentifierValue (oid : DerElement) : Bool :=
  match oid.value.getLast? with
  | none => false
  | some last => last.toNat < 0x80

/-- A qualifier of `ParsePolicyQualifierInfos`. -/
def parsePolicyQualifierInfo (qualifierInfo : DerElement) : Except NTSTATUS Unit := do
  let (qualifierId, rest) ← readExpected tagOid qualifierInfo.value
  if ¬ isValidObjectIdentifierValue qualifierId then .error statusInvalidNetworkResponse
  else
    match rest with
    | [] => .ok ()
    | _ => do
      let (_, rest) ← readElement rest
      if rest ≠ [] then .error statusInvalidNetworkResponse else .ok ()

def parsePolicyQualifierInfos (qualifiers : DerElement) : Except NTSTATUS Unit :=
  if qualifiers.value.length = 0 then .error statusInvalidNetworkResponse
  else
    forExpected tagSequence (fun _ qualifierInfo => parsePolicyQualifierInfo qualifierInfo) ()
      qualifiers.value

/-- A policy of `ParseCertificatePolicies`. -/
def parsePolicyInfo (certificate : ParsedCertificate) (policyInfo : DerElement) :
    Except NTSTATUS ParsedCertificate := do
  let (policyOid, rest) ← readExpected tagOid policyInfo.value
  if ¬ isValidObjectIdentifierValue policyOid then .error statusInvalidNetworkResponse
  else if certificate.certificatePolicyOids.length ≥ certificateMaxCertificatePolicies then
    .error statusNotSupported
  else
    let certificate :=
      { certificate with
        certificatePolicyOids := certificate.certificatePolicyOids ++ [policyOid.value]
        hasAnyPolicy := certificate.hasAnyPolicy || oidEquals policyOid oidAnyPolicy }
    match rest with
    | [] => .ok certificate
    | _ => do
      let (qualifiers, rest) ← readExpected tagSequence rest
      parsePolicyQualifierInfos qualifiers
      if rest ≠ [] then .error statusInvalidNetworkResponse else .ok certificate

def parseCertificatePolicies (value : Bytes) (certificate : ParsedCertificate) :
    Except NTSTATUS ParsedCertificate := do
  let (policies, rest) ← readExpected tagSequence value
  if rest ≠ [] ∨ policies.value.length = 0 then .error statusInvalidNetworkResponse
  else do
    let certificate ← forExpected tagSequence parsePolicyInfo certificate policies.value
    .ok { certificate with hasCertificatePolicies := true }

/-- A constraint of `ParsePolicyConstraints`. -/
def parsePolicyConstraint (certificate : ParsedCertificate) (constraint : DerElement) :
    Except NTSTATUS ParsedCertificate := do
  let skipCerts ← parseImplicitUnsignedInteger constraint
  if constraint.tag = tagMinimumBaseDistance then
    .ok { certificate with
      requireExplicitPolicy := true, requireExplicitPolicySkipCerts := skipCerts }
  else if constraint.tag = tagMaximumBaseDistance then
    .ok { certificate with
      inhibitPolicyMapping := true, inhibitPolicyMappingSkipCerts := skipCerts }
  else .error statusInvalidNetworkResponse

def parsePolicyConstraints (value : Bytes) (certificate : ParsedCertificate) :
    Except NTSTATUS ParsedCertificate := do
  let (constraints, rest) ← readExpected tagSequence value
  if rest ≠ [] ∨ constraints.value.length = 0 then .error statusInvalidNetworkResponse
  else do
    let certificate ← forElements parsePolicyConstraint certificate constraints.value
    .ok { certificate with hasPolicyConstraints := true }

def parseInhibitAnyPolicy (value : Bytes) (certificate : ParsedCertificate) :
    Except NTSTATUS ParsedCertificate := do
  let (skipCerts, rest) ← readExpected tagInteger value
  if rest ≠ [] then .error statusInvalidNetworkResponse
  else do
    let parsed ← parseUnsignedDerInteger skipCerts
    .ok { certificate with hasInhibitAnyPolicy := true, inhibitAnyPolicySkipCerts := parsed }

def parseExtendedKeyUsage (value : Bytes) (certificate : ParsedCertificate) :
    Except NTSTATUS ParsedCertificate := do
  let (usages, _) ← readExpected tagSequence value
  forExpected tagOid
    (fun certificate usage => .ok { certificate with
      allowsServerAuth := certificate.allowsServerAuth || oidEquals usage oidServerAuth })
    { certificate with hasExtendedKeyUsage := true, allowsServerAuth := false } usages.value

/-- The extension with the identifier `oid`. -/
def parseKnownExtension (oid : Bytes) (critical : Bool) (value : Bytes)
    (certificate : ParsedCertificate) : Except NTSTATUS ParsedCertificate :=
  if oid = oidBasicConstraints then parseBasicConstraints value certificate
  else if oid = oidKeyUsage then parseKeyUsage value certificate
  else if oid = oidSubjectAltName then parseSubjectAltName value certificate
  else if oid = oidNameConstraints then parseNameConstraints value certificate
  else if oid = oidCertificatePolicies then
    parseCertificatePolicies value { certificate with certificatePoliciesCritical := critical }
  else if oid = oidPolicyConstraints then parsePolicyConstraints value certificate
  else if oid = oidInhibitAnyPolicy then parseInhibitAnyPolicy value certificate
  else if oid = oidExtendedKeyUsage then parseExtendedKeyUsage value certificate
  else if critical then .error statusInvalidNetworkResponse
  else .ok certificate

/-- A turn of `ParseExtensions`, with the identifiers of the extensions before. -/
def parseExtension (s : ParsedCertificate × List Bytes) (extension : DerElement) :
    Except NTSTATUS (ParsedCertificate × List Bytes) := do
  let (oid, rest) ← readExpected tagOid extension.value
  if oid.value ∈ s.2 then .error statusInvalidNetworkResponse
  else do
    let (critical, rest) ←
      if rest.head? = some tagBoolean then do
        let (critical, rest) ← readExpected tagBoolean rest
        match critical.value with
        | [octet] => .ok (octet != 0, rest)
        | _ => .error statusInvalidNetworkResponse
      else .ok (false, rest)
    let (value, _) ← readExpected tagOctetString rest
    let certificate ← parseKnownExtension oid.value critical value.value s.1
    .ok (certificate, oid.value :: s.2)

def parseExtensions (extensions : DerElement) (certificate : ParsedCertificate) :
    Except NTSTATUS ParsedCertificate := do
  let (sequence, _) ← readExpected tagSequence extensions.value
  let (certificate, _) ← forExpected tagSequence parseExtension (certificate, []) sequence.value
  .ok certificate

/-! ## The whole -/

/-- The fields of the certificate up to the extensions. -/
def parseTbsCertificate (tbs : DerElement) (certificate : ParsedCertificate) :
    Except NTSTATUS ParsedCertificate := do
  let rest ←
    if tbs.value.head? = some tagTbsVersion then do
      let (_, rest) ← readExpected tagTbsVersion tbs.value
      .ok rest
    else .ok tbs.value
  let (serial, rest) ← readExpected tagInteger rest
  let (innerSignature, rest) ← readExpected tagSequence rest
  let innerSignatureAlgorithm ← parseSignatureAlgorithm innerSignature
  if innerSignatureAlgorithm ≠ certificate.signatureAlgorithm then
    .error statusInvalidNetworkResponse
  else do
    let (issuer, rest) ← readExpected tagSequence rest
    let (validity, rest) ← readExpected tagSequence rest
    let (subject, rest) ← readExpected tagSequence rest
    let (spki, rest) ← readExpected tagSequence rest
    let (notBefore, validityRest) ← readElement validity.value
    let (notAfter, _) ← readElement validityRest
    let notBefore ← parseDerTime notBefore
    let notAfter ← parseDerTime notAfter
    let certificate ← parseName subject
      { certificate with
        serialNumber := serial.value
        issuer := issuer.full
        subject := subject.full
        notBefore := notBefore
        notAfter := notAfter }
    let certificate ← parseSubjectPublicKeyInfo spki certificate
    forElements (fun certificate optional =>
      if optional.tag = tagExtensions then parseExtensions optional certificate
      else .ok certificate) certificate rest

def parseCertificate (der : Bytes) : Except NTSTATUS ParsedCertificate :=
  if der.length = 0 then .error statusInvalidParameter
  else do
    let (root, rest) ← readExpected tagSequence der
    if rest ≠ [] then .error statusInvalidNetworkResponse
    else do
      let (tbs, rest) ← readExpected tagSequence root.value
      let (signatureAlgorithm, rest) ← readExpected tagSequence rest
      let signatureAlgorithm ← parseSignatureAlgorithm signatureAlgorithm
      let (signature, _) ← readExpected tagBitString rest
      if signature.value.length < 2 ∨ signature.value.head? ≠ some 0 then .error statusNotSupported
      else
        parseTbsCertificate tbs
          { der := der
            tbsCertificate := tbs.full
            signatureAlgorithm := signatureAlgorithm
            signature := signature.value.drop 1 }

end KernelHttp.Tls
