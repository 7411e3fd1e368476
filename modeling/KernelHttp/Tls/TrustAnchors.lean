/-
  The search for a trusted anchor (`FindTrustedAnchor` of `tls/CertificateValidator.cpp`, and
  `tls/CertificateStore.cpp`).

  The first hit, or the first error, ends the search.
-/
import KernelHttp.Lib.Search
import KernelHttp.Tls.CertificateExtensions
import KernelHttp.Tls.CertificatePath
import KernelHttp.Tls.PemBundle
import KernelHttp.Tls.Record

namespace KernelHttp.Tls

open Incremental Search

def certificateSha256ThumbprintLength : ℕ := 32

/-! ## Signatures -/

inductive EcCurve where
  | p256
  | p384
  | p521
deriving DecidableEq

/-- `crypto::SignatureAlgorithm`, those that certificates are signed with. -/
inductive SignatureAlgorithm where
  | rsaPkcs1Sha256
  | rsaPkcs1Sha384
  | ecdsaSha256
  | ecdsaSha384
  | ed25519
  | ed448
deriving DecidableEq

/-- The functions of `crypto::CngProvider` that the validator calls. -/
structure CngProvider (Key : Type) where
  hash : HashAlgorithm → Bytes → Except NTSTATUS Bytes
  importRsaPublicKey (exponent modulus : Bytes) : Except NTSTATUS Key
  importEcdsaPublicKey (curve : EcCurve) (publicKey : Bytes) : Except NTSTATUS Key
  verifyEd25519 (publicKey message signature : Bytes) : Bool
  verifyEd448 (publicKey message signature : Bytes) : Bool
  verifySignature (algorithm : SignatureAlgorithm) (key : Key) (hash signature : Bytes) : Bool

section

variable {Key : Type} (provider : CngProvider Key)

def importSubjectPublicKey (certificate : ParsedCertificate) : Except NTSTATUS Key :=
  match certificate.publicKeyAlgorithm with
  | .rsa => provider.importRsaPublicKey certificate.rsaExponent certificate.rsaModulus
  | .ecdsaP256 => provider.importEcdsaPublicKey .p256 certificate.publicKey
  | .ecdsaP384 => provider.importEcdsaPublicKey .p384 certificate.publicKey
  | .ecdsaP521 => provider.importEcdsaPublicKey .p521 certificate.publicKey
  | .unknown | .ed25519 | .ed448 => .error statusNotSupported

def toSignatureAlgorithm : CertificateSignatureAlgorithm → Except NTSTATUS SignatureAlgorithm
  | .rsaPkcs1Sha256 => .ok .rsaPkcs1Sha256
  | .rsaPkcs1Sha384 => .ok .rsaPkcs1Sha384
  | .ecdsaSha256 => .ok .ecdsaSha256
  | .ecdsaSha384 => .ok .ecdsaSha384
  | .ed25519 => .ok .ed25519
  | .ed448 => .ok .ed448
  | .unknown => .error statusNotSupported

def hashForSignature (algorithm : CertificateSignatureAlgorithm) (data : Bytes) :
    Except NTSTATUS Bytes :=
  match algorithm with
  | .rsaPkcs1Sha256 | .ecdsaSha256 => provider.hash .sha256 data
  | .rsaPkcs1Sha384 | .ecdsaSha384 => provider.hash .sha384 data
  | .unknown | .ed25519 | .ed448 => .error statusNotSupported

/-- The signature over the signed part, under the issuer's key. -/
def verifyCertificateSignature (certificate issuer : ParsedCertificate) : Except NTSTATUS Unit :=
  if certificate.signatureAlgorithm = .ed25519 then
    if issuer.publicKeyAlgorithm ≠ .ed25519 then .error statusInvalidSignature
    else if provider.verifyEd25519 issuer.publicKey certificate.tbsCertificate
        certificate.signature then .ok ()
    else .error statusInvalidSignature
  else if certificate.signatureAlgorithm = .ed448 then
    if issuer.publicKeyAlgorithm ≠ .ed448 then .error statusInvalidSignature
    else if provider.verifyEd448 issuer.publicKey certificate.tbsCertificate
        certificate.signature then .ok ()
    else .error statusInvalidSignature
  else do
    let issuerKey ← importSubjectPublicKey provider issuer
    let hash ← hashForSignature provider certificate.signatureAlgorithm certificate.tbsCertificate
    let verifyAlgorithm ← toSignatureAlgorithm certificate.signatureAlgorithm
    if provider.verifySignature verifyAlgorithm issuerKey hash certificate.signature then .ok ()
    else .error statusInvalidSignature

def hashSubjectPublicKey (certificate : ParsedCertificate) : Except NTSTATUS Bytes :=
  if certificate.subjectPublicKeyInfo.length = 0 then .error statusInvalidParameter
  else do
    let hash ← provider.hash .sha256 certificate.subjectPublicKeyInfo
    if hash.length = certificateSha256ThumbprintLength then .ok hash
    else .error statusInvalidNetworkResponse

/-! ## The store -/

end

structure CertificateTrustAnchor where
  subjectName : Bytes
  subjectPublicKeySha256 : Bytes
  matchSubjectPublicKey : Bool

structure CertificatePin where
  hostName : Bytes
  leafSubjectPublicKeySha256 : Bytes

inductive CertificateRevocationSource where
  | ocsp
  | crl
deriving DecidableEq

inductive CertificateRevocationStatus where
  | good
  | revoked
  | unknown
deriving DecidableEq

structure CertificateRevocationEntry where
  issuerName : Bytes
  serialNumber : Bytes
  source : CertificateRevocationSource
  status : CertificateRevocationStatus
  thisUpdate : ℤ
  nextUpdate : ℤ

/-- `CertificateStore`; a bundle is its octets. -/
structure CertificateStore where
  trustAnchors : List CertificateTrustAnchor := []
  authorityBundles : List Bytes := []
  pins : List CertificatePin := []
  revocationEntries : List CertificateRevocationEntry := []

def CertificateStore.isTrustedAnchor (store : CertificateStore) (subjectName spkiSha256 : Bytes) :
    Bool :=
  spkiSha256.length == certificateSha256ThumbprintLength &&
    store.trustAnchors.any fun anchor =>
      (anchor.subjectName.length == 0 || anchor.subjectName == subjectName) &&
        (!anchor.matchSubjectPublicKey || anchor.subjectPublicKeySha256 == spkiSha256)

/-! ## The search -/

def isExactAnchorMatch (certificate anchor : ParsedCertificate) : Bool :=
  certificate.subject == anchor.subject &&
    certificate.subjectPublicKeyInfo == anchor.subjectPublicKeyInfo

def countSubordinateCaCertificates (certificates : List ParsedCertificate) (issuerIndex : ℕ) : ℕ :=
  if issuerIndex > certificates.length then 0
  else ((certificates.take issuerIndex).drop 1).countP fun certificate =>
    certificate.isCa && !isSelfIssued certificate

section

variable {Key : Type} (provider : CngProvider Key)

/-- It is the anchor, or the anchor may issue it and its key verifies. -/
def anchorSignsCertificate (certificate anchor : ParsedCertificate) (subordinateCaCount : ℕ) :
    Except NTSTATUS Bool :=
  if isExactAnchorMatch certificate anchor then .ok true
  else if ¬ anchor.hasBasicConstraints ∨ ¬ anchor.isCa ∨ ¬ anchor.hasKeyUsage ∨
      ¬ anchor.allowsKeyCertSign ∨ anchor.pathLenConstraint.any (subordinateCaCount > ·) ∨
      certificate.issuer ≠ anchor.subject then .ok false
  else
    match verifyCertificateSignature provider certificate anchor with
    | .ok () => .ok true
    | .error status => if status = statusInvalidSignature then .ok false else .error status

variable {data rest der block tail bundle bundle' : Bytes} {store : CertificateStore}
    {ders back ders' front : List Bytes} {path : List ParsedCertificate}

theorem findPattern_length {pattern before : Bytes} (hne : pattern ≠ [])
    (h : findPattern pattern data = some (before, rest)) : rest.length < data.length := by
  induction data generalizing before with
  | nil => cases h
  | cons c data ih =>
    rw [findPattern] at h
    split_ifs at h with hprefix
    · obtain ⟨-, rfl⟩ := Prod.mk.inj (Option.some.inj h)
      have := List.length_pos_of_ne_nil hne
      rw [List.length_drop, List.length_cons]
      omega
    · obtain ⟨found, hfound, heq⟩ := Option.map_eq_some_iff.1 h
      obtain ⟨-, rfl⟩ := Prod.mk.inj heq
      exact (ih hfound).trans (Nat.lt_succ_self _)

theorem decodePemCertificate_length
    (h : decodePemCertificate data = .ok (der, rest)) : rest.length < data.length := by
  unfold decodePemCertificate at h
  split at h
  · cases h
  · rename_i before data' hbegin
    split at h
    · cases h
    · rename_i body rest' hend
      obtain ⟨s, -, h⟩ := bind_eq_ok h
      split_ifs at h
      obtain ⟨-, rfl⟩ := Prod.mk.inj (Except.ok.inj h)
      exact (findPattern_length (by decide) hend).trans (findPattern_length (by decide) hbegin)

/-- The loop of `ParsedCertificateMatchesAuthorityBundle`. -/
def matchPemCertificates (certificate : ParsedCertificate) (subordinateCaCount : ℕ)
    (data : Bytes) : Except NTSTATUS Bool :=
  if data.length = 0 then .ok false
  else
    match _h : decodePemCertificate data with
    | .error status => if status = statusNotFound then .ok false else .error status
    | .ok (der, rest) =>
      match parseCertificate der with
      | .error status => .error status
      | .ok anchor =>
        match anchorSignsCertificate provider certificate anchor subordinateCaCount with
        | .error status => .error status
        | .ok true => .ok true
        | .ok false => matchPemCertificates certificate subordinateCaCount rest
termination_by data.length
decreasing_by exact decodePemCertificate_length _h

/-- One certificate in DER, or PEM blocks in turn; a failure ends the search. -/
def parsedCertificateMatchesAuthorityBundle (certificate : ParsedCertificate)
    (subordinateCaCount : ℕ) (bundle : Bytes) : Except NTSTATUS Bool :=
  if bundle.length = 0 then .error statusInvalidParameter
  else
    match findPattern pemCertificateBegin bundle with
    | none => do
      let anchor ← parseCertificate bundle
      anchorSignsCertificate provider certificate anchor subordinateCaCount
    | some (before, _) =>
      matchPemCertificates provider certificate subordinateCaCount (bundle.drop before.length)

/-- The anchors of the store, then its bundles. -/
def storeHasTrustedAnchor (store : Option CertificateStore) (certificate : ParsedCertificate)
    (certificateSpkiSha256 : Bytes) (subordinateCaCount : ℕ) : Except NTSTATUS Bool :=
  match store with
  | none => .ok false
  | some store =>
    if store.isTrustedAnchor certificate.subject certificateSpkiSha256 then .ok true
    else store.authorityBundles.anyM
      (parsedCertificateMatchesAuthorityBundle provider certificate subordinateCaCount)

/-- The loop of `FindTrustedAnchor`, from an index. -/
def findTrustedAnchorFrom (store : Option CertificateStore) (certificates : List ParsedCertificate) :
    ℕ → List ParsedCertificate → Except NTSTATUS (Option ℕ)
  | _, [] => .ok none
  | index, certificate :: rest => do
    let certSpkiSha256 ← hashSubjectPublicKey provider certificate
    let trusted ← storeHasTrustedAnchor provider store certificate certSpkiSha256
      (countSubordinateCaCertificates certificates (index + 1))
    if trusted then .ok (some index) else findTrustedAnchorFrom store certificates (index + 1) rest

/-- `FindTrustedAnchor`: the trusted index. -/
def findTrustedAnchor (store : Option CertificateStore) (certificates : List ParsedCertificate) :
    Except NTSTATUS (Option ℕ) :=
  if certificates.length = 0 then .error statusInvalidParameter
  else findTrustedAnchorFrom provider store certificates 0 certificates

/-! ## Bundles of certificates -/

def checkAuthority (certificate : ParsedCertificate) (subordinateCaCount : ℕ) (der : Bytes) :
    Except NTSTATUS Bool := do
  let anchor ← parseCertificate der
  anchorSignsCertificate provider certificate anchor subordinateCaCount

/-- A bundle in PEM: the certificates, with any text around their blocks. -/
def BundleText (ders : List Bytes) (bundle : Bytes) : Prop :=
  ders ≠ [] ∧ ∃ blocks tail, List.Forall₂ PemBlock ders blocks ∧
    ¬ pemCertificateBegin <:+: tail ∧ bundle = blocks.flatten ++ tail

theorem PemBlock.length_pos (h : PemBlock der block) : 0 < block.length := by
  cases h with
  | block before body =>
    have : 0 < pemCertificateEnd.length := by decide
    simp only [List.length_append]
    omega

theorem decodePemCertificate_none (h : ¬ pemCertificateBegin <:+: tail) :
    decodePemCertificate tail = .error statusNotFound := by
  rw [decodePemCertificate, findPattern_eq_none h]

theorem matchPemCertificates_blocks {blocks : List Bytes}
    (certificate : ParsedCertificate) (subordinateCaCount : ℕ)
    (hblocks : List.Forall₂ PemBlock ders blocks) (htail : ¬ pemCertificateBegin <:+: tail) :
    matchPemCertificates provider certificate subordinateCaCount (blocks.flatten ++ tail) =
      ders.anyM (checkAuthority provider certificate subordinateCaCount) := by
  induction hblocks with
  | nil =>
    rw [matchPemCertificates, List.flatten_nil, List.nil_append]
    split_ifs
    · rfl
    · rw [decodePemCertificate_none htail]
      rfl
  | @cons der block ders blocks hblock hblocks ih =>
    have hpos := hblock.length_pos
    have hne : ¬ ((block :: blocks).flatten ++ tail).length = 0 := by
      simp only [List.flatten_cons, List.length_append]
      omega
    have hdecode : decodePemCertificate ((block :: blocks).flatten ++ tail) =
        .ok (der, blocks.flatten ++ tail) := by
      rw [List.flatten_cons, List.append_assoc]
      exact decodePemCertificate_block hblock _
    rw [matchPemCertificates, if_neg hne]
    split
    · rename_i status herror
      rw [hdecode] at herror
      cases herror
    · rename_i der' rest hok
      rw [hdecode] at hok
      obtain ⟨rfl, rfl⟩ := Prod.mk.inj (Except.ok.inj hok)
      cases hparse : parseCertificate der with
      | error status =>
        exact (anyM_cons_of_error (by rw [checkAuthority, hparse]; rfl)).symm
      | ok anchor =>
        have hcheck : checkAuthority provider certificate subordinateCaCount der =
            anchorSignsCertificate provider certificate anchor subordinateCaCount :=
          bind_of_ok hparse _
        dsimp only
        cases hsigns : anchorSignsCertificate provider certificate anchor subordinateCaCount with
        | error status => exact (anyM_cons_of_error (hcheck.trans hsigns)).symm
        | ok trusted =>
          rw [anyM_cons_of_ok (hcheck.trans hsigns)]
          cases trusted with
          | true => rfl
          | false => exact ih

theorem PemBlock.strip (h : PemBlock der block) (rest : Bytes) :
    ∃ before block' behind, PemBlock der block' ∧ block = before ++ block' ∧
      findPattern pemCertificateBegin (block ++ rest) = some (before, behind) := by
  cases h with
  | block before body hfirst hbody hne hle =>
    have hempty : FirstBehind pemCertificateBegin [] := by
      rintro a b hab hb
      exact absurd (List.append_eq_nil_iff.1 hab.symm).2 hb
    refine ⟨before, _, body ++ (pemCertificateEnd ++ rest), .block [] body hempty hbody hne hle,
      by simp, ?_⟩
    rw [List.append_assoc, List.append_assoc, List.append_assoc]
    exact findPattern_first (by decide) hfirst _

theorem bundleText_pemText (hne : ders ≠ [])
    (h : ∀ der ∈ ders, der ≠ [] ∧ der.length ≤ certificateMaxAuthorityDerLength) :
    BundleText ders (ders.map pemText).flatten := by
  refine ⟨hne, ders.map pemText, [], ?_, by decide, (List.append_nil _).symm⟩
  rw [List.forall₂_map_right_iff, List.forall₂_same]
  exact fun der hder => pemBlock_pemText (h der hder).1 (h der hder).2

/-- **A bundle is searched certificate by certificate.** -/
theorem parsedCertificateMatchesAuthorityBundle_text
    (certificate : ParsedCertificate) (subordinateCaCount : ℕ) (h : BundleText ders bundle) :
    parsedCertificateMatchesAuthorityBundle provider certificate subordinateCaCount bundle =
      ders.anyM (checkAuthority provider certificate subordinateCaCount) := by
  obtain ⟨hne, blocks, tail, hblocks, htail, rfl⟩ := h
  cases hblocks with
  | nil => exact absurd rfl hne
  | @cons der block ders blocks hblock hblocks =>
    obtain ⟨before, block', behind, hblock', rfl, hfind⟩ := hblock.strip (blocks.flatten ++ tail)
    have hpos := hblock.length_pos
    rw [← List.append_assoc, ← List.flatten_cons] at hfind
    have hnonempty : ¬ (((before ++ block') :: blocks).flatten ++ tail).length = 0 := by
      simp only [List.flatten_cons, List.length_append] at hpos ⊢
      omega
    rw [parsedCertificateMatchesAuthorityBundle, if_neg hnonempty, hfind]
    have hdrop : (((before ++ block') :: blocks).flatten ++ tail).drop before.length =
        (block' :: blocks).flatten ++ tail := by
      simp [List.append_assoc]
    dsimp only
    rw [hdrop]
    exact matchPemCertificates_blocks provider certificate subordinateCaCount (.cons hblock' hblocks)
      htail

/-! ## The order of a bundle -/

/-- The certificate is parsed, and every check of a signature against it comes to an answer. -/
def Settled (path : List ParsedCertificate) (der : Bytes) : Prop :=
  ∃ anchor, parseCertificate der = .ok anchor ∧ ∀ certificate ∈ path,
    certificate.issuer = anchor.subject →
    verifyCertificateSignature provider certificate anchor = .ok () ∨
      verifyCertificateSignature provider certificate anchor = .error statusInvalidSignature

variable {provider}

theorem Settled.checkAuthority
    (h : Settled provider path der) {certificate : ParsedCertificate} (hmem : certificate ∈ path)
    (subordinateCaCount : ℕ) :
    ∃ trusted, checkAuthority provider certificate subordinateCaCount der = .ok trusted := by
  obtain ⟨anchor, hparse, hverify⟩ := h
  rw [Tls.checkAuthority, bind_of_ok hparse, anchorSignsCertificate]
  split_ifs with hexact hno
  · exact ⟨true, rfl⟩
  · exact ⟨false, rfl⟩
  · have hissuer : certificate.issuer = anchor.subject := by
      simp only [not_or, not_not] at hno
      exact hno.2.2.2.2.2
    rcases hverify certificate hmem hissuer with h | h
    · exact ⟨true, by rw [h]⟩
    · exact ⟨false, by rw [h]; rfl⟩

theorem findTrustedAnchorFrom_congr {store store' : Option CertificateStore}
    {certificates : List ParsedCertificate}
    (h : ∀ certificate ∈ path, ∀ spkiSha256 subordinateCaCount,
      storeHasTrustedAnchor provider store certificate spkiSha256 subordinateCaCount =
        storeHasTrustedAnchor provider store' certificate spkiSha256 subordinateCaCount) :
    ∀ index, findTrustedAnchorFrom provider store certificates index path =
      findTrustedAnchorFrom provider store' certificates index path := by
  induction path with
  | nil => exact fun _ => rfl
  | cons certificate path ih =>
    intro index
    obtain ⟨hcertificate, hpath⟩ := List.forall_mem_cons.1 h
    rw [findTrustedAnchorFrom, findTrustedAnchorFrom]
    simp only [hcertificate, ih hpath]

def CertificateStore.withBundle (store : CertificateStore) (front : List Bytes) (bundle : Bytes)
    (back : List Bytes) : CertificateStore :=
  { store with authorityBundles := front ++ bundle :: back }

variable (provider) in
/-- The searches before, in and behind the bundle. -/
theorem storeHasTrustedAnchor_withBundle (store : CertificateStore) (front back : List Bytes)
    (bundle : Bytes) (certificate : ParsedCertificate) (spkiSha256 : Bytes) (n : ℕ) :
    storeHasTrustedAnchor provider (some (store.withBundle front bundle back)) certificate
        spkiSha256 n =
      if store.isTrustedAnchor certificate.subject spkiSha256 then .ok true
      else
        front.anyM (parsedCertificateMatchesAuthorityBundle provider certificate n) >>= fun hit =>
          if hit then .ok true
          else
            (bundle :: back).anyM
              (parsedCertificateMatchesAuthorityBundle provider certificate n) := by
  rw [← anyM_append]
  rfl

/-- **Where every check comes to an answer, the order of a bundle does not matter.** -/
theorem findTrustedAnchor_perm
    (hbundle : BundleText ders bundle) (hbundle' : BundleText ders' bundle')
    (hperm : ders.Perm ders') (hsettled : ∀ der ∈ ders, Settled provider path der) :
    findTrustedAnchor provider (some (store.withBundle front bundle back)) path =
      findTrustedAnchor provider (some (store.withBundle front bundle' back)) path := by
  unfold findTrustedAnchor
  split_ifs
  · rfl
  · refine findTrustedAnchorFrom_congr (fun certificate hmem spkiSha256 n => ?_) 0
    have hsame : parsedCertificateMatchesAuthorityBundle provider certificate n bundle =
        parsedCertificateMatchesAuthorityBundle provider certificate n bundle' := by
      rw [parsedCertificateMatchesAuthorityBundle_text provider certificate n hbundle,
        parsedCertificateMatchesAuthorityBundle_text provider certificate n hbundle']
      exact anyM_perm hperm fun der hder => (hsettled der hder).checkAuthority hmem n
    rw [storeHasTrustedAnchor_withBundle, storeHasTrustedAnchor_withBundle, List.anyM, List.anyM,
      hsame]

/-! ## A certificate that is not supported -/

variable (provider) in
/-- The first certificate of the path is trusted by the store's anchors, by the bundles in front
    or by the certificates in front. -/
def TrustedAhead (store : CertificateStore) (front ders : List Bytes)
    (path : List ParsedCertificate) : Prop :=
  ∃ certificate rest spkiSha256, path = certificate :: rest ∧
    hashSubjectPublicKey provider certificate = .ok spkiSha256 ∧
    (store.isTrustedAnchor certificate.subject spkiSha256 = true ∨
      front.anyM (parsedCertificateMatchesAuthorityBundle provider certificate 0) = .ok true ∨
      (front.anyM (parsedCertificateMatchesAuthorityBundle provider certificate 0) = .ok false ∧
        ders.anyM (checkAuthority provider certificate 0) = .ok true))

theorem countSubordinateCaCertificates_one (path : List ParsedCertificate) :
    countSubordinateCaCertificates path 1 = 0 := by
  rw [countSubordinateCaCertificates]
  split_ifs
  · rfl
  · cases path <;> rfl

theorem findTrustedAnchor_insert
    {status : NTSTATUS} {outcome : Option ℕ} (hbundle : BundleText (ders ++ ders') bundle)
    (hbundle' : BundleText (ders ++ der :: ders') bundle')
    (hder : parseCertificate der = .error status)
    (h : findTrustedAnchor provider (some (store.withBundle front bundle back)) path = .ok outcome) :
    (TrustedAhead provider store front ders path ∧
      findTrustedAnchor provider (some (store.withBundle front bundle' back)) path =
        .ok outcome) ∨
    (¬ TrustedAhead provider store front ders path ∧
      findTrustedAnchor provider (some (store.withBundle front bundle' back)) path =
        .error status) := by
  cases path with
  | nil => cases h
  | cons certificate path =>
    have hne : ¬ (certificate :: path).length = 0 := Nat.succ_ne_zero _
    rw [findTrustedAnchor, if_neg hne, findTrustedAnchorFrom] at h ⊢
    obtain ⟨spkiSha256, hhash, h⟩ := bind_eq_ok h
    obtain ⟨trusted, hstore, h⟩ := bind_eq_ok h
    rw [bind_of_ok hhash]
    rw [countSubordinateCaCertificates_one, storeHasTrustedAnchor_withBundle] at hstore ⊢
    split_ifs at hstore ⊢ with hanchor
    · -- trusted by an anchor of the store
      obtain rfl := Except.ok.inj hstore
      exact .inl ⟨⟨certificate, path, spkiSha256, rfl, hhash, .inl hanchor⟩, h⟩
    · obtain ⟨hit, hfront, hstore⟩ := bind_eq_ok hstore
      rw [hfront]
      cases hit with
      | true =>
        obtain rfl := Except.ok.inj hstore
        exact .inl ⟨⟨certificate, path, spkiSha256, rfl, hhash, .inr (.inl hfront)⟩, h⟩
      | false =>
        -- the search comes to the bundle
        have hsearch := parsedCertificateMatchesAuthorityBundle_text provider certificate 0 hbundle
        have hsearch' := parsedCertificateMatchesAuthorityBundle_text provider certificate 0 hbundle'
        rw [bind_of_ok rfl]
        simp only [Bool.false_eq_true, if_false] at hstore ⊢
        rw [List.anyM] at hstore
        obtain ⟨found, hfound, hstore⟩ := bind_eq_ok hstore
        rw [hsearch] at hfound
        have hcheck : checkAuthority provider certificate 0 der = .error status := by
          rw [checkAuthority, hder]
          rfl
        rcases anyM_insert_error hcheck hfound with ⟨hahead, rfl, hadded⟩ | ⟨hahead, hadded⟩
        · obtain rfl := Except.ok.inj hstore
          rw [anyM_cons_of_ok (hsearch'.trans hadded)]
          exact .inl ⟨⟨certificate, path, spkiSha256, rfl, hhash, .inr (.inr ⟨hfront, hahead⟩)⟩, h⟩
        · rw [anyM_cons_of_error (hsearch'.trans hadded)]
          refine .inr ⟨?_, rfl⟩
          rintro ⟨c, rest, sha, hpath, hsha, hcases⟩
          obtain ⟨rfl, rfl⟩ := List.cons.inj hpath
          obtain rfl := Except.ok.inj (hhash.symm.trans hsha)
          rcases hcases with h' | h' | h'
          · exact hanchor h'
          · rw [hfront] at h'
            cases h'
          · rw [hahead] at h'
            cases h'.2

end

/-! ## What decides -/

/-- **The outcome of the search**: where every check comes to an answer, the order of a bundle
    does not matter; a certificate that is not supported ends the search, unless the first
    certificate of the path is trusted before it is reached. -/
theorem findTrustedAnchor_decided {Key : Type} (provider : CngProvider Key)
    (store : CertificateStore) (front back : List Bytes) (path : List ParsedCertificate) :
    (∀ (ders ders' : List Bytes) (bundle bundle' : Bytes), BundleText ders bundle →
      BundleText ders' bundle' → ders.Perm ders' → (∀ der ∈ ders, Settled provider path der) →
      findTrustedAnchor provider (some (store.withBundle front bundle back)) path =
        findTrustedAnchor provider (some (store.withBundle front bundle' back)) path) ∧
    ∀ (ders ders' : List Bytes) (der bundle bundle' : Bytes) (status : NTSTATUS)
      (outcome : Option ℕ), BundleText (ders ++ ders') bundle →
      BundleText (ders ++ der :: ders') bundle' → parseCertificate der = .error status →
      findTrustedAnchor provider (some (store.withBundle front bundle back)) path = .ok outcome →
      (TrustedAhead provider store front ders path ∧
        findTrustedAnchor provider (some (store.withBundle front bundle' back)) path =
          .ok outcome) ∨
      (¬ TrustedAhead provider store front ders path ∧
        findTrustedAnchor provider (some (store.withBundle front bundle' back)) path =
          .error status) :=
  ⟨fun _ _ _ _ hbundle hbundle' => findTrustedAnchor_perm hbundle hbundle',
    fun _ _ _ _ _ _ _ hbundle hbundle' => findTrustedAnchor_insert hbundle hbundle'⟩

def supportedCertificate : Bytes := certificateWith [[authority]]
def unsupportedCertificate : Bytes :=
  certificateWith [[encodeExtension oidSubjectAltName
    (encodeElement tagSequence (List.replicate 9 (encodeElement tagDnsName [97])).flatten)]]

def acceptingProvider : CngProvider Unit where
  hash _ _ := .ok (List.replicate 32 0)
  importRsaPublicKey _ _ := .ok ()
  importEcdsaPublicKey _ _ := .ok ()
  verifyEd25519 _ _ _ := true
  verifyEd448 _ _ _ := true
  verifySignature _ _ _ _ := true

def supportedAnchor : ParsedCertificate :=
  (parseCertificate supportedCertificate).toOption.getD {}

/-- The search for the authority, in a store with one bundle of certificates. -/
def searchBundle (ders : List Bytes) : Except NTSTATUS (Option ℕ) :=
  findTrustedAnchor acceptingProvider
    (some (CertificateStore.withBundle {} [] (ders.map pemText).flatten [])) [supportedAnchor]

/-- An anchor is found in front of and behind another certificate, and in front of one that is not
supported. -/
theorem findTrustedAnchor_decided_searched :
    searchBundle [supportedCertificate, certificateWith [[endEntity]]] =
      searchBundle [certificateWith [[endEntity]], supportedCertificate] ∧
    searchBundle [supportedCertificate, unsupportedCertificate] = .ok (some 0) := by
  obtain ⟨hperm, hinsert⟩ :=
    findTrustedAnchor_decided acceptingProvider {} [] [] [supportedAnchor]
  constructor
  · refine hperm _ _ _ _ (bundleText_pemText (List.cons_ne_nil _ _) (by decide +kernel))
      (bundleText_pemText (List.cons_ne_nil _ _) (by decide +kernel)) (List.Perm.swap _ _ _) ?_
    intro der hder
    have hsettled : ∀ der ∈ [supportedCertificate, certificateWith [[endEntity]]],
        (parseCertificate der).toOption.any fun anchor =>
          verifyCertificateSignature acceptingProvider supportedAnchor anchor = .ok () := by
      decide +kernel
    have h := hsettled der hder
    cases hparse : parseCertificate der with
    | error status =>
      rw [hparse] at h
      cases h
    | ok anchor =>
      rw [hparse, Except.toOption, Option.any_some, decide_eq_true_iff] at h
      refine ⟨anchor, hparse, fun certificate hmem _ => .inl ?_⟩
      rw [List.mem_singleton.1 hmem]
      exact h
  · rcases hinsert [supportedCertificate] [] unsupportedCertificate _ _ statusNotSupported (some 0)
      (bundleText_pemText (List.cons_ne_nil _ _) (by decide +kernel))
      (bundleText_pemText (List.cons_ne_nil _ _) (by decide +kernel)) (by decide +kernel)
      (by decide +kernel) with ⟨-, hfound⟩ | ⟨hahead, -⟩
    · exact hfound
    · exact absurd ⟨supportedAnchor, [], List.replicate 32 0, rfl, by decide +kernel,
        .inr (.inr ⟨rfl, by decide +kernel⟩)⟩ hahead

/-- **A certificate of nine names in front of the anchor makes the search fail.** -/
theorem searchBundle_unsupportedAhead :
    BundleText [supportedCertificate, unsupportedCertificate]
      ([supportedCertificate, unsupportedCertificate].map pemText).flatten ∧
    BundleText [unsupportedCertificate, supportedCertificate]
      ([unsupportedCertificate, supportedCertificate].map pemText).flatten ∧
    parseCertificate supportedCertificate = .ok supportedAnchor ∧
    parseCertificate unsupportedCertificate = .error statusNotSupported ∧
    searchBundle [supportedCertificate] = .ok (some 0) ∧
    searchBundle [supportedCertificate, unsupportedCertificate] = .ok (some 0) ∧
    searchBundle [unsupportedCertificate, supportedCertificate] = .error statusNotSupported := by
  refine ⟨bundleText_pemText (List.cons_ne_nil _ _) ?_,
    bundleText_pemText (List.cons_ne_nil _ _) ?_, ?_, ?_, ?_, ?_, ?_⟩
  all_goals decide +kernel

end KernelHttp.Tls
