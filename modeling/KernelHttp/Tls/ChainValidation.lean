/-
  Certificate chains (`ReorderCertificatePath` and `ValidateChain` of
  `tls/CertificateValidator.cpp`).

  The certificates of a message come in any order.
-/
import KernelHttp.Lib.Ascent
import KernelHttp.Tls.TrustAnchors

namespace KernelHttp.Tls

open Incremental

def certificateMaxChainLength : ℕ := 8

/-! ## `ReorderCertificatePath` -/

def certificateIssuerMatches (child issuer : ParsedCertificate) : Bool :=
  distinguishedNameEquals child.issuer issuer.subject

def certificateIssuesAny (certificates : List ParsedCertificate) (issuerIndex : ℕ) : Bool :=
  (List.range certificates.length).any fun index => index != issuerIndex &&
    certificateIssuerMatches (certificates.getD index {}) (certificates.getD issuerIndex {})

def certificateNameMatchesHost (certificate : ParsedCertificate) (hostName : Bytes) : Bool :=
  validateHostName certificate hostName = .ok ()

/-- The first that issues no other and is the host's, else the first that issues no other. -/
def findLeafIndex (certificates : List ParsedCertificate) (hostName : Bytes) : Option ℕ :=
  let indices := List.range certificates.length
  (indices.find? fun index => !certificateIssuesAny certificates index &&
    certificateNameMatchesHost (certificates.getD index {}) hostName).or
  (indices.find? fun index => !certificateIssuesAny certificates index)

/-- The loop of `ReorderCertificatePath`, behind `current`, with the indices that are used. -/
def orderIssuers (certificates : List ParsedCertificate) :
    ℕ → List ℕ → ParsedCertificate → List ParsedCertificate
  | 0, _, _ => []
  | left + 1, used, current =>
    if isSelfIssued current then []
    else
      match (List.range certificates.length).find? fun index => index ∉ used &&
          certificateIssuerMatches current (certificates.getD index {}) with
      | none => []
      | some issuerIndex =>
        let issuer := certificates.getD issuerIndex {}
        issuer :: orderIssuers certificates left (issuerIndex :: used) issuer

/-- `ReorderCertificatePath`: the path. -/
def reorderCertificatePath (certificates : List ParsedCertificate) (hostName : Bytes) :
    Except NTSTATUS (List ParsedCertificate) :=
  if certificates.length = 0 then .error statusInvalidParameter
  else
    match findLeafIndex certificates hostName with
    | none => .error statusTrustFailure
    | some leafIndex =>
      let leaf := certificates.getD leafIndex {}
      .ok (leaf :: orderIssuers certificates (certificates.length - 1) [leafIndex] leaf)

/-! ## Revocation -/

inductive CertificateRevocationMode where
  | off
  | stapledOnly
  | onlineRequired
deriving DecidableEq

structure CertificateValidationOptions where
  hostName : Bytes
  store : Option CertificateStore := none
  verifyCertificate : Bool := true
  requireServerAuthEku : Bool := true
  requireRevocationCheck : Bool := false
  revocationMode : CertificateRevocationMode := .off
  enableIdna : Bool := true

def CertificateStore.findRevocationEntry (store : CertificateStore) (issuerName serialNumber : Bytes)
    (source : CertificateRevocationSource) : Option CertificateRevocationEntry :=
  if issuerName.length = 0 ∨ serialNumber.length = 0 then none
  else store.revocationEntries.find? fun entry => entry.source == source &&
    entry.issuerName == issuerName && entry.serialNumber == serialNumber

def validateRevocationEntry (entry : CertificateRevocationEntry) (now : ℤ) :
    Except NTSTATUS Unit :=
  if (entry.thisUpdate ≠ 0 ∧ now < entry.thisUpdate) ∨
      (entry.nextUpdate ≠ 0 ∧ now > entry.nextUpdate) then .error statusTrustFailure
  else if entry.status = .good then .ok ()
  else .error statusTrustFailure

/-- A turn of the loop of `ValidateCertificateRevocation`. -/
def validateRevocationOf (store : CertificateStore) (mode : CertificateRevocationMode) (now : ℤ)
    (certificate : ParsedCertificate) : Except NTSTATUS Unit :=
  match store.findRevocationEntry certificate.issuer certificate.serialNumber .ocsp with
  | some entry => validateRevocationEntry entry now
  | none =>
    if mode = .onlineRequired then
      match store.findRevocationEntry certificate.issuer certificate.serialNumber .crl with
      | some entry => validateRevocationEntry entry now
      | none => .error statusTrustFailure
    else .error statusTrustFailure

/-- The revocation of every certificate below the trusted anchor. -/
def validateCertificateRevocation (certificates : List ParsedCertificate)
    (options : CertificateValidationOptions) (trustedAnchorIndex : ℕ) (now : ℤ) :
    Except NTSTATUS Unit :=
  let mode := if options.revocationMode = .off ∧ options.requireRevocationCheck then
    .onlineRequired else options.revocationMode
  if mode = .off then .ok ()
  else
    match options.store with
    | none => .error statusTrustFailure
    | some store =>
      if certificates.length = 0 then .error statusTrustFailure
      else
        let lastChecked := if trustedAnchorIndex < certificates.length then trustedAnchorIndex
          else certificates.length - 1
        (certificates.take (lastChecked + 1)).forM (validateRevocationOf store mode now)

/-! ## `ValidateChain` -/

def CertificateStore.matchesPin (store : CertificateStore) (hostName spkiSha256 : Bytes) : Bool :=
  if hostName.length = 0 ∨ spkiSha256.length ≠ certificateSha256ThumbprintLength then false
  else
    let pins := store.pins.filter fun pin => textEqualsIgnoreCase pin.hostName hostName
    pins.isEmpty || pins.any (·.leafSubjectPublicKeySha256 == spkiSha256)

structure CertificateChainView where
  certificates : Bytes
  certificateCount : ℕ

structure CertificateValidationResult where
  leaf : ParsedCertificate
  leafSubjectPublicKeySha256 : Bytes
deriving DecidableEq

def readNextCertificate (data : Bytes) : Except NTSTATUS (Bytes × Bytes) :=
  if data.length < 3 then .error statusInvalidNetworkResponse
  else
    let certificateLength := (data.getD 0 0).toNat * 2 ^ 16 + (data.getD 1 0).toNat * 2 ^ 8 +
      (data.getD 2 0).toNat
    let rest := data.drop 3
    if certificateLength = 0 ∨ certificateLength > rest.length then
      .error statusInvalidNetworkResponse
    else .ok (rest.take certificateLength, rest.drop certificateLength)

/-- The first loop of `ValidateChain`: the certificates, and what stands behind them. -/
def parseCertificates : ℕ → Bytes → Except NTSTATUS (List ParsedCertificate × Bytes)
  | 0, data => .ok ([], data)
  | count + 1, data => do
    let (der, data) ← readNextCertificate data
    let certificate ← parseCertificate der
    let (certificates, data) ← parseCertificates count data
    .ok (certificate :: certificates, data)

def validationHost (options : CertificateValidationOptions) : Except NTSTATUS Bytes :=
  match parseIpLiteral options.hostName with
  | some _ => .ok options.hostName
  | none => normalizeDnsName options.hostName options.enableIdna

/-- The host, and the path that `ReorderCertificatePath` gives. -/
def orderPath (parsed : List ParsedCertificate) (options : CertificateValidationOptions) :
    Except NTSTATUS (Bytes × List ParsedCertificate) := do
  let host ← validationHost options
  let path ← reorderCertificatePath parsed host
  .ok (host, path)

/-- The first half of `ValidateChain`: the host and the path. -/
def buildPath (chain : CertificateChainView) (options : CertificateValidationOptions) :
    Except NTSTATUS (Bytes × List ParsedCertificate) :=
  if chain.certificates.length = 0 ∨ chain.certificateCount = 0 ∨
      chain.certificateCount > certificateMaxChainLength then .error statusInvalidParameter
  else if options.verifyCertificate ∧ options.hostName.length = 0 then
    .error statusInvalidParameter
  else do
    let certificatesToParse := if options.verifyCertificate then chain.certificateCount else 1
    let (parsed, rest) ← parseCertificates certificatesToParse chain.certificates
    if ¬ options.verifyCertificate then .ok (options.hostName, parsed)
    else if rest ≠ [] then .error statusInvalidNetworkResponse
    else orderPath parsed options

section

variable {Key : Type} (provider : CngProvider Key)

/-- The checks of a certificate of the path against the next one. -/
def validateLink (path : List ParsedCertificate) (index : ℕ) : Except NTSTATUS Unit :=
  let certificate := path.getD index {}
  let issuer := path.getD (index + 1) {}
  if certificate.issuer ≠ issuer.subject then .error statusTrustFailure
  else if ¬ issuer.hasBasicConstraints ∨ ¬ issuer.isCa then .error statusTrustFailure
  else if ¬ issuer.hasKeyUsage ∨ ¬ issuer.allowsKeyCertSign then .error statusTrustFailure
  else if issuer.pathLenConstraint.any
      (countSubordinateCaCertificates path (index + 1) > ·) then .error statusTrustFailure
  else verifyCertificateSignature provider certificate issuer

/-- The checks of the validity periods and of the leaf's usage. -/
def validateUsage (options : CertificateValidationOptions) (path : List ParsedCertificate) (now : ℤ) :
    Except NTSTATUS Unit :=
  let leaf := path.getD 0 {}
  if path.any fun certificate => now < certificate.notBefore || now > certificate.notAfter then
    .error statusTrustFailure
  else if options.requireServerAuthEku ∧ (¬ leaf.hasExtendedKeyUsage ∨ ¬ leaf.allowsServerAuth) then
    .error statusTrustFailure
  else if (leaf.hasBasicConstraints ∧ leaf.isCa) ∨ ¬ leaf.hasKeyUsage ∨
      ¬ leaf.allowsDigitalSignature then .error statusTrustFailure
  else .ok ()

/-- A trusted leaf that is its own issuer is verified under its own key. -/
def validateSelfSignature (path : List ParsedCertificate) (trustedAnchorIndex : ℕ) :
    Except NTSTATUS Unit :=
  let leaf := path.getD 0 {}
  if trustedAnchorIndex = 0 ∧ path.length = 1 ∧ isSelfIssued leaf then
    verifyCertificateSignature provider leaf leaf
  else .ok ()

/-- The checks against the store: pins, trusted anchors and revocation. -/
def validateTrust (options : CertificateValidationOptions) (host : Bytes)
    (path : List ParsedCertificate) (spkiSha256 : Bytes) (now : ℤ) : Except NTSTATUS Unit :=
  if options.store.any fun store => !store.matchesPin host spkiSha256 then
    .error statusTrustFailure
  else do
    let trustedAnchorIndex ← findTrustedAnchor provider options.store path
    match trustedAnchorIndex with
    | none => .error statusTrustFailure
    | some trustedAnchorIndex => do
      validateSelfSignature provider path trustedAnchorIndex
      validateCertificateRevocation path options trustedAnchorIndex now

/-- The second half of `ValidateChain`; `now` is what `CurrentPackedTime` returns. -/
def validatePath (now : Except NTSTATUS ℤ) (options : CertificateValidationOptions) (host : Bytes)
    (path : List ParsedCertificate) : Except NTSTATUS CertificateValidationResult := do
  let leaf := path.getD 0 {}
  let spkiSha256 ← hashSubjectPublicKey provider leaf
  if ¬ options.verifyCertificate then .ok ⟨leaf, spkiSha256⟩
  else do
    validateNameConstraints path
    validateCertificatePolicyTree path
    let now ← now
    validateUsage options path now
    validateHostName leaf host
    (List.range (path.length - 1)).forM (validateLink provider path)
    validateTrust provider options host path spkiSha256 now
    .ok ⟨leaf, spkiSha256⟩

/-- The path is built, then validated. -/
def validateChain (now : Except NTSTATUS ℤ) (chain : CertificateChainView)
    (options : CertificateValidationOptions) : Except NTSTATUS CertificateValidationResult := do
  let (host, path) ← buildPath chain options
  validatePath provider now options host path

end

/-! ## Paths of issuers -/

/-- A path from issuer to issuer, without repetition, that ends at a self-issued certificate or
    where every issuer is on it already. -/
def IssuerPath (certificates path : List ParsedCertificate) : Prop :=
  Ascent.Maximal (fun child issuer => child.issuer = issuer.subject)
    (fun certificate => isSelfIssued certificate = true) {c | c ∈ certificates} path

/-- Another certificate has this one as its issuer. -/
def IssuesOther (certificates : List ParsedCertificate) (certificate : ParsedCertificate) : Prop :=
  ∃ child ∈ certificates, child ≠ certificate ∧ child.issuer = certificate.subject

/-- No two certificates have the same subject. -/
def DistinctSubjects (certificates : List ParsedCertificate) : Prop :=
  (certificates.map ParsedCertificate.subject).Nodup

/-- The certificate is the only one that issues no other and matches the host. -/
structure OnlyLeaf (certificates : List ParsedCertificate) (hostName : Bytes)
    (leaf : ParsedCertificate) : Prop where
  mem : leaf ∈ certificates
  issuesNone : ¬ IssuesOther certificates leaf
  host : certificateNameMatchesHost leaf hostName = true
  only : ∀ c ∈ certificates, ¬ IssuesOther certificates c →
    certificateNameMatchesHost c hostName = true → c = leaf

section

variable {certificates certificates' : List ParsedCertificate} {hostName : Bytes}
  {leaf : ParsedCertificate}

theorem certificateIssuerMatches_iff {child issuer : ParsedCertificate} :
    certificateIssuerMatches child issuer = true ↔ child.issuer = issuer.subject :=
  beq_iff_eq

theorem DistinctSubjects.nodup (h : DistinctSubjects certificates) : certificates.Nodup :=
  List.Nodup.of_map _ h

variable {options : CertificateValidationOptions} {Key : Type} {provider : CngProvider Key}
    {now : Except NTSTATUS ℤ} {ders : List Bytes} {path : List ParsedCertificate} {used : List ℕ}
    {c : ParsedCertificate} {i : ℕ}

theorem DistinctSubjects.inj (h : DistinctSubjects certificates) {d : ParsedCertificate}
    (hc : c ∈ certificates) (hd : d ∈ certificates) (hsubject : c.subject = d.subject) : c = d :=
  List.inj_on_of_nodup_map h hc hd hsubject

theorem getD_mem (hi : i < certificates.length) : certificates.getD i {} ∈ certificates := by
  rw [List.getD_eq_getElem _ _ hi]
  exact List.getElem_mem hi

theorem exists_getD (hc : c ∈ certificates) :
    ∃ i < certificates.length, certificates.getD i {} = c := by
  obtain ⟨i, hi, rfl⟩ := List.mem_iff_getElem.1 hc
  exact ⟨i, hi, List.getD_eq_getElem _ _ hi⟩

theorem DistinctSubjects.getD_inj (h : DistinctSubjects certificates) {j : ℕ}
    (hi : i < certificates.length) (hj : j < certificates.length) :
    certificates.getD i {} = certificates.getD j {} ↔ i = j := by
  rw [List.getD_eq_getElem _ _ hi, List.getD_eq_getElem _ _ hj]
  exact h.nodup.getElem_inj_iff

theorem certificateIssuesAny_iff (h : DistinctSubjects certificates)
    (hi : i < certificates.length) :
    certificateIssuesAny certificates i = true ↔
      IssuesOther certificates (certificates.getD i {}) := by
  rw [certificateIssuesAny, List.any_eq_true]
  constructor
  · rintro ⟨j, hj, hmatch⟩
    rw [List.mem_range] at hj
    rw [Bool.and_eq_true, bne_iff_ne, certificateIssuerMatches_iff] at hmatch
    exact ⟨_, getD_mem hj, mt (h.getD_inj hj hi).1 hmatch.1, hmatch.2⟩
  · rintro ⟨child, hmem, hne, hissuer⟩
    obtain ⟨j, hj, rfl⟩ := exists_getD hmem
    refine ⟨j, List.mem_range.2 hj, ?_⟩
    rw [Bool.and_eq_true, bne_iff_ne, certificateIssuerMatches_iff]
    exact ⟨mt (h.getD_inj hj hi).2 hne, hissuer⟩

theorem findLeafIndex_onlyLeaf (h : DistinctSubjects certificates)
    (hleaf : OnlyLeaf certificates hostName leaf) :
    ∃ i < certificates.length, findLeafIndex certificates hostName = some i ∧
      certificates.getD i {} = leaf := by
  obtain ⟨k, hk, hkleaf⟩ := exists_getD hleaf.mem
  have hpred {i : ℕ} (hi : i < certificates.length) :
      (!certificateIssuesAny certificates i &&
        certificateNameMatchesHost (certificates.getD i {}) hostName) = true ↔
      ¬ IssuesOther certificates (certificates.getD i {}) ∧
        certificateNameMatchesHost (certificates.getD i {}) hostName = true := by
    rw [Bool.and_eq_true, Bool.not_eq_true', ← certificateIssuesAny_iff h hi, Bool.not_eq_true]
  have hleafpred := (hpred hk).2 (hkleaf.symm ▸ ⟨hleaf.issuesNone, hleaf.host⟩)
  have hfound : ((List.range certificates.length).find? fun index =>
      !certificateIssuesAny certificates index &&
        certificateNameMatchesHost (certificates.getD index {}) hostName).isSome = true :=
    List.find?_isSome.2 ⟨k, List.mem_range.2 hk, hleafpred⟩
  obtain ⟨i, hi⟩ := Option.isSome_iff_exists.1 hfound
  have hlt := List.mem_range.1 (List.mem_of_find?_eq_some hi)
  have hprop := List.find?_some hi
  obtain ⟨hissues, hhost⟩ := (hpred hlt).1 hprop
  refine ⟨i, hlt, ?_, hleaf.only _ (getD_mem hlt) hissues hhost⟩
  rw [findLeafIndex, hi]
  rfl

/-! ### The loop -/

/-- The certificates in order so far, and the indices that are used. -/
structure Ordered (certificates : List ParsedCertificate) (used : List ℕ)
    (path : List ParsedCertificate) : Prop where
  mem : ∀ c ∈ path, c ∈ certificates
  chain : path.IsChain fun child issuer =>
    ¬ isSelfIssued child = true ∧ child.issuer = issuer.subject
  nodup : path.Nodup
  used : ∀ i < certificates.length, i ∈ used ↔ certificates.getD i {} ∈ path

theorem Ordered.extend {front : List ParsedCertificate}
    {current : ParsedCertificate} (h : Ordered certificates used (front ++ [current]))
    (hdistinct : DistinctSubjects certificates) (hself : ¬ isSelfIssued current = true)
    (hi : i < certificates.length) (hunused : i ∉ used)
    (hissuer : current.issuer = (certificates.getD i {}).subject) :
    Ordered certificates (i :: used) (front ++ [current] ++ [certificates.getD i {}]) where
  mem c hc := by
    rcases List.mem_append.1 hc with hc | hc
    · exact h.mem c hc
    · rw [List.mem_singleton.1 hc]
      exact getD_mem hi
  chain := by
    refine List.isChain_append.2 ⟨h.chain, List.isChain_singleton _, ?_⟩
    intro c hc d hd
    obtain rfl : current = c := by simpa using hc
    obtain rfl : certificates.getD i {} = d := by simpa using hd
    exact ⟨hself, hissuer⟩
  nodup := by
    refine List.nodup_append.2 ⟨h.nodup, List.nodup_singleton _, ?_⟩
    rintro c hc d hd rfl
    rw [List.mem_singleton.1 hd] at hc
    exact hunused ((h.used i hi).2 hc)
  used j hj := by
    rw [List.mem_cons, List.mem_append, List.mem_singleton, h.used j hj,
      hdistinct.getD_inj hj hi, or_comm]

theorem Ordered.mem_of_length
    (h : Ordered certificates used path) (hlength : certificates.length ≤ path.length)
    (hc : c ∈ certificates) : c ∈ path :=
  ((h.nodup.subperm h.mem).perm_of_length_le hlength).mem_iff.2 hc

theorem orderIssuers_maximal (hdistinct : DistinctSubjects certificates) (left : ℕ) :
    ∀ {used : List ℕ} {front : List ParsedCertificate} {current : ParsedCertificate},
      Ordered certificates used (front ++ [current]) →
      certificates.length ≤ left + (front ++ [current]).length →
      IssuerPath certificates (front ++ current :: orderIssuers certificates left used current) := by
  induction left with
  | zero =>
    intro used front current h hlength
    rw [Nat.zero_add] at hlength
    exact ⟨h.mem, h.chain, h.nodup, fun _ _ => .inr fun b hb _ => h.mem_of_length hlength hb⟩
  | succ left ih =>
    intro used front current h hlength
    rw [orderIssuers]
    split_ifs with hself
    · refine ⟨h.mem, h.chain, h.nodup, fun a ha => .inl ?_⟩
      obtain rfl : current = a := by simpa using ha
      exact hself
    · split
      · rename_i hnone
        refine ⟨h.mem, h.chain, h.nodup, fun a ha => .inr fun b hb hissuer => ?_⟩
        obtain rfl : current = a := by simpa using ha
        obtain ⟨i, hi, rfl⟩ := exists_getD hb
        by_contra hnot
        refine List.find?_eq_none.1 hnone i (List.mem_range.2 hi) ?_
        rw [Bool.and_eq_true, certificateIssuerMatches_iff, decide_eq_true_eq]
        exact ⟨mt (h.used i hi).1 hnot, hissuer⟩
      · rename_i i hsome
        have hi := List.mem_range.1 (List.mem_of_find?_eq_some hsome)
        have hmatch := List.find?_some hsome
        rw [Bool.and_eq_true, certificateIssuerMatches_iff, decide_eq_true_eq] at hmatch
        have hnext := ih (h.extend hdistinct hself hi hmatch.1 hmatch.2) (by
          rw [List.length_append, List.length_singleton]
          omega)
        simpa using hnext

/-- **The path that is built**: it begins with the leaf, and it is maximal. -/
theorem reorderCertificatePath_maximal (hdistinct : DistinctSubjects certificates)
    (hleaf : OnlyLeaf certificates hostName leaf) :
    ∃ rest, reorderCertificatePath certificates hostName = .ok (leaf :: rest) ∧
      IssuerPath certificates (leaf :: rest) := by
  obtain ⟨i, hi, hindex, rfl⟩ := findLeafIndex_onlyLeaf hdistinct hleaf
  have hne : ¬ certificates.length = 0 := by omega
  refine ⟨_, by rw [reorderCertificatePath, if_neg hne, hindex], ?_⟩
  have hordered : Ordered certificates [i] ([] ++ [certificates.getD i {}]) := by
    refine ⟨?_, List.isChain_singleton _, List.nodup_singleton _, ?_⟩
    · intro c hc
      rw [List.mem_singleton.1 hc]
      exact getD_mem hi
    · intro j hj
      rw [List.nil_append, List.mem_singleton, List.mem_singleton, hdistinct.getD_inj hj hi]
  exact orderIssuers_maximal hdistinct _ hordered (by simp; omega)

/-! ## The order of the message -/

theorem IssuerPath.of_perm (hperm : certificates.Perm certificates')
    (h : IssuerPath certificates path) : IssuerPath certificates' path := by
  have hset : {c | c ∈ certificates} = {c | c ∈ certificates'} :=
    Set.ext fun _ => hperm.mem_iff
  rwa [IssuerPath, ← hset]

theorem OnlyLeaf.of_perm (hperm : certificates.Perm certificates')
    (h : OnlyLeaf certificates hostName leaf) : OnlyLeaf certificates' hostName leaf := by
  have hissues (c : ParsedCertificate) :
      IssuesOther certificates c ↔ IssuesOther certificates' c := by
    simp only [IssuesOther, hperm.mem_iff]
  refine ⟨hperm.mem_iff.1 h.mem, fun hother => h.issuesNone ((hissues leaf).2 hother), h.host, ?_⟩
  intro c hc hnone hhost
  exact h.only c (hperm.mem_iff.2 hc) (fun hother => hnone ((hissues c).1 hother)) hhost

/-- **The path does not depend on the order.** -/
theorem reorderCertificatePath_perm (hperm : certificates.Perm certificates')
    (hdistinct : DistinctSubjects certificates) (hleaf : OnlyLeaf certificates hostName leaf) :
    ∃ rest, reorderCertificatePath certificates hostName = .ok (leaf :: rest) ∧
      reorderCertificatePath certificates' hostName = .ok (leaf :: rest) ∧
      IssuerPath certificates (leaf :: rest) := by
  have hdistinct' : DistinctSubjects certificates' := (hperm.map _).nodup_iff.1 hdistinct
  obtain ⟨rest, hpath, hmaximal⟩ := reorderCertificatePath_maximal hdistinct hleaf
  obtain ⟨rest', hpath', hmaximal'⟩ :=
    reorderCertificatePath_maximal hdistinct' (hleaf.of_perm hperm)
  have hrest : rest = rest' := by
    refine Ascent.Maximal.unique (fun a b c hb hc hab hac => ?_) hmaximal
      (hmaximal'.of_perm hperm.symm)
    exact hdistinct.inj hb hc (hab.symm.trans hac)
  exact ⟨rest, hpath, hrest ▸ hpath', hmaximal⟩

/-- The certificates of a message, each behind its length. -/
def encodeChain (ders : List Bytes) : Bytes :=
  ders.flatMap fun der => [UInt8.ofNat (der.length / 2 ^ 16), UInt8.ofNat (der.length / 2 ^ 8),
    UInt8.ofNat der.length] ++ der

theorem readNextCertificate_encode {der : Bytes} (rest : Bytes) (hne : der ≠ [])
    (hlt : der.length < 2 ^ 24) :
    readNextCertificate ([UInt8.ofNat (der.length / 2 ^ 16), UInt8.ofNat (der.length / 2 ^ 8),
      UInt8.ofNat der.length] ++ der ++ rest) = .ok (der, rest) := by
  have hpos := List.length_pos_of_ne_nil hne
  have hcode : (UInt8.ofNat (der.length / 2 ^ 16)).toNat * 2 ^ 16 +
      (UInt8.ofNat (der.length / 2 ^ 8)).toNat * 2 ^ 8 + (UInt8.ofNat der.length).toNat =
      der.length := by
    simp only [UInt8.toNat_ofNat']
    omega
  have hthree : ¬ ([UInt8.ofNat (der.length / 2 ^ 16), UInt8.ofNat (der.length / 2 ^ 8),
      UInt8.ofNat der.length] ++ der ++ rest).length < 3 := by
    simp
  have hfits : ¬ (der.length = 0 ∨ der.length > (der ++ rest).length) := by
    rw [List.length_append]
    omega
  rw [readNextCertificate, if_neg hthree]
  simp only [List.cons_append, List.nil_append, List.getD_cons_zero, List.getD_cons_succ, hcode,
    List.drop_succ_cons, List.drop_zero]
  rw [if_neg hfits, List.take_left, List.drop_left]

theorem parseCertificates_encode
    (hparse : List.Forall₂ (fun der c => parseCertificate der = .ok c) ders certificates)
    (hlt : ∀ der ∈ ders, der.length < 2 ^ 24) :
    parseCertificates ders.length (encodeChain ders) = .ok (certificates, []) := by
  induction hparse with
  | nil => rfl
  | @cons der c ders certificates hder hders ih =>
    obtain ⟨hderlt, hderslt⟩ := List.forall_mem_cons.1 hlt
    have hne : der ≠ [] := by
      rintro rfl
      cases hder
    have hread := readNextCertificate_encode (encodeChain ders) hne hderlt
    rw [List.length_cons, parseCertificates, encodeChain, List.flatMap_cons]
    refine (bind_of_ok hread _).trans ?_
    refine (bind_of_ok hder _).trans ?_
    exact bind_of_ok (ih hderslt) _

theorem encodeChain_length_pos (h : ders ≠ []) :
    (encodeChain ders).length ≠ 0 := by
  obtain ⟨der, ders, rfl⟩ := List.exists_cons_of_ne_nil h
  simp [encodeChain]

theorem buildPath_encode (hverify : options.verifyCertificate = true)
    (hparse : List.Forall₂ (fun der c => parseCertificate der = .ok c) ders certificates)
    (hlt : ∀ der ∈ ders, der.length < 2 ^ 24) :
    buildPath ⟨encodeChain ders, ders.length⟩ options =
      if ders.length = 0 ∨ ders.length > certificateMaxChainLength ∨
          options.hostName.length = 0 then .error statusInvalidParameter
      else orderPath certificates options := by
  rw [buildPath]
  simp only [hverify, true_and, if_true, not_true_eq_false, if_false]
  by_cases hnil : ders = []
  · subst hnil
    rfl
  · have hlength : ders.length ≠ 0 := fun h => hnil (List.length_eq_zero_iff.1 h)
    simp only [encodeChain_length_pos hnil, hlength, false_or]
    by_cases hmax : ders.length > certificateMaxChainLength
    · rw [if_pos hmax, if_pos (.inl hmax)]
    · by_cases hhost : options.hostName.length = 0
      · rw [if_neg hmax, if_pos hhost, if_pos (.inr hhost)]
      · rw [if_neg hmax, if_neg hhost, if_neg (not_or.2 ⟨hmax, hhost⟩)]
        exact bind_of_ok (parseCertificates_encode hparse hlt) _

theorem orderPath_perm
    (hperm : certificates.Perm certificates') (hdistinct : DistinctSubjects certificates)
    (hleaf : ∀ host, validationHost options = .ok host → ∃ leaf, OnlyLeaf certificates host leaf) :
    orderPath certificates options = orderPath certificates' options := by
  rw [orderPath, orderPath]
  cases hhost : validationHost options with
  | error status => rfl
  | ok host =>
    obtain ⟨leaf, hleaf⟩ := hleaf host hhost
    obtain ⟨rest, hpath, hpath', -⟩ := reorderCertificatePath_perm hperm hdistinct hleaf
    rw [bind_of_ok rfl, bind_of_ok rfl, hpath, hpath']

theorem validatePath_leaf {result : CertificateValidationResult}
    (h : validatePath provider now options hostName path = .ok result) :
    result.leaf = path.getD 0 {} := by
  obtain ⟨spkiSha256, -, h⟩ := bind_eq_ok h
  by_cases hverify : options.verifyCertificate = true
  · rw [if_neg (not_not.2 hverify)] at h
    obtain ⟨-, -, h⟩ := bind_eq_ok h
    obtain ⟨-, -, h⟩ := bind_eq_ok h
    obtain ⟨now, -, h⟩ := bind_eq_ok h
    obtain ⟨-, -, h⟩ := bind_eq_ok h
    obtain ⟨-, -, h⟩ := bind_eq_ok h
    obtain ⟨-, -, h⟩ := bind_eq_ok h
    obtain ⟨-, -, h⟩ := bind_eq_ok h
    exact congrArg CertificateValidationResult.leaf (Except.ok.inj h).symm
  · rw [if_pos hverify] at h
    exact congrArg CertificateValidationResult.leaf (Except.ok.inj h).symm

/-- **The order of the message does not matter**, and the leaf of the result is the only leaf. -/
theorem validateChain_perm {ders' : List Bytes}
    (hverify : options.verifyCertificate = true) (hperm : ders.Perm ders')
    (hlt : ∀ der ∈ ders, der.length < 2 ^ 24)
    (hparse : List.Forall₂ (fun der c => parseCertificate der = .ok c) ders certificates)
    (hdistinct : DistinctSubjects certificates)
    (hleaf : ∀ host, validationHost options = .ok host → ∃ leaf, OnlyLeaf certificates host leaf) :
    validateChain provider now ⟨encodeChain ders, ders.length⟩ options =
        validateChain provider now ⟨encodeChain ders', ders'.length⟩ options ∧
      ∀ result, validateChain provider now ⟨encodeChain ders, ders.length⟩ options = .ok result →
        ∃ host, validationHost options = .ok host ∧ OnlyLeaf certificates host result.leaf := by
  obtain ⟨certificates', hparse', hperm'⟩ := List.perm_comp_forall₂ hperm.symm hparse
  have hlt' : ∀ der ∈ ders', der.length < 2 ^ 24 := fun der hder => hlt der (hperm.mem_iff.2 hder)
  have hbuild := buildPath_encode hverify hparse hlt
  refine ⟨?_, fun result hresult => ?_⟩
  · rw [validateChain, validateChain, hbuild, buildPath_encode hverify hparse' hlt',
      hperm.length_eq, orderPath_perm hperm'.symm hdistinct hleaf]
  · rw [validateChain, hbuild] at hresult
    obtain ⟨⟨host, path⟩, hpath, hresult⟩ := bind_eq_ok hresult
    split_ifs at hpath
    obtain ⟨host', hhost, hpath⟩ := bind_eq_ok hpath
    obtain ⟨path', hreorder, hpath⟩ := bind_eq_ok hpath
    obtain ⟨rfl, rfl⟩ := Prod.mk.inj (Except.ok.inj hpath)
    obtain ⟨leaf, hleaf⟩ := hleaf host' hhost
    obtain ⟨rest, hmaximal, -⟩ := reorderCertificatePath_maximal hdistinct hleaf
    obtain rfl := Except.ok.inj (hreorder.symm.trans hmaximal)
    obtain hresultLeaf : result.leaf = leaf := validatePath_leaf hresult
    exact ⟨host', hhost, hresultLeaf ▸ hleaf⟩

end

/-- **Path building is independent of the order of the message.** -/
theorem chain_orderIndependent :
    (∀ (certificates certificates' : List ParsedCertificate) (hostName : Bytes)
      (leaf : ParsedCertificate), certificates.Perm certificates' →
      DistinctSubjects certificates → OnlyLeaf certificates hostName leaf →
      ∃ rest, reorderCertificatePath certificates hostName = .ok (leaf :: rest) ∧
        reorderCertificatePath certificates' hostName = .ok (leaf :: rest) ∧
        IssuerPath certificates (leaf :: rest)) ∧
    ∀ (Key : Type) (provider : CngProvider Key) (now : Except NTSTATUS ℤ)
      (options : CertificateValidationOptions) (ders ders' : List Bytes)
      (certificates : List ParsedCertificate), options.verifyCertificate = true →
      ders.Perm ders' → (∀ der ∈ ders, der.length < 2 ^ 24) →
      List.Forall₂ (fun der c => parseCertificate der = .ok c) ders certificates →
      DistinctSubjects certificates →
      (∀ host, validationHost options = .ok host → ∃ leaf, OnlyLeaf certificates host leaf) →
      validateChain provider now ⟨encodeChain ders, ders.length⟩ options =
          validateChain provider now ⟨encodeChain ders', ders'.length⟩ options ∧
        ∀ result, validateChain provider now ⟨encodeChain ders, ders.length⟩ options = .ok result →
          ∃ host, validationHost options = .ok host ∧ OnlyLeaf certificates host result.leaf :=
  ⟨fun _ _ _ _ => reorderCertificatePath_perm, fun _ _ _ _ _ _ _ => validateChain_perm⟩

/-! ## A leaf and its issuer -/

def encodeName (name : Bytes) : Bytes :=
  encodeElement tagSequence (encodeElement tagSet (encodeElement tagSequence
    (encodeElement tagOid oidCommonName ++ encodeElement tagUtf8String name)))

def namedCertificate (subject issuer : Bytes) (extensions : List Bytes) : Bytes :=
  let time := encodeElement tagUtcTime ([50, 53, 48, 49, 48, 49] ++ List.replicate 6 48 ++ [90])
  let key := encodeElement tagSequence
    (ed25519Identifier ++ encodeElement tagBitString (0 :: List.replicate 32 1))
  let tbs := encodeElement tagSequence
    (encodeElement tagInteger [1] ++ ed25519Identifier ++ encodeName issuer ++
      encodeElement tagSequence (time ++ time) ++ encodeName subject ++ key ++
      encodeElement tagExtensions (encodeElement tagSequence extensions.flatten))
  encodeElement tagSequence (tbs ++ ed25519Identifier ++ encodeElement tagBitString [0, 0])

def parsedCertificate (der : Bytes) : ParsedCertificate := (parseCertificate der).toOption.getD {}

/-- A leaf, and the authority that issues it and itself. -/
def issuedLeaf : Bytes :=
  namedCertificate (text "l") (text "a") [encodeExtension oidKeyUsage
    (encodeElement tagBitString [7, 0x80]), encodeExtension oidSubjectAltName
    (encodeElement tagSequence (encodeElement tagDnsName (text "h.test")))]
def selfIssued : Bytes :=
  namedCertificate (text "a") (text "a") [authority, encodeExtension oidKeyUsage
    (encodeElement tagBitString [2, 4])]
def trustingOptions : CertificateValidationOptions where
  hostName := text "h.test"
  store := some { trustAnchors := [⟨[], [], false⟩] }
  requireServerAuthEku := false

/-- The order of the message does not matter, and the chain is accepted. -/
theorem chain_orderIndependent_issued :
    (∃ rest, reorderCertificatePath ([issuedLeaf, selfIssued].map parsedCertificate)
        (text "h.test") = .ok (parsedCertificate issuedLeaf :: rest) ∧
      reorderCertificatePath ([selfIssued, issuedLeaf].map parsedCertificate) (text "h.test") =
        .ok (parsedCertificate issuedLeaf :: rest)) ∧
    validateChain acceptingProvider (.ok 20250101000000) ⟨encodeChain [selfIssued, issuedLeaf], 2⟩
      trustingOptions = .ok ⟨parsedCertificate issuedLeaf, List.replicate 32 0⟩ := by
  have hparsed : List.Forall₂ (fun der c => parseCertificate der = .ok c) [issuedLeaf, selfIssued]
      ([issuedLeaf, selfIssued].map parsedCertificate) := by
    simp only [List.map_cons, List.map_nil, List.forall₂_cons, List.forall₂_nil_right_iff]
    decide +kernel
  have hdistinct : DistinctSubjects ([issuedLeaf, selfIssued].map parsedCertificate) := by
    unfold DistinctSubjects
    decide +kernel
  have hleaf : OnlyLeaf ([issuedLeaf, selfIssued].map parsedCertificate) (text "h.test")
      (parsedCertificate issuedLeaf) := by
    have hnone : ∀ c ∈ [issuedLeaf, selfIssued].map parsedCertificate,
        c.issuer ≠ (parsedCertificate issuedLeaf).subject := by decide +kernel
    refine ⟨List.mem_cons_self, fun h => ?_, by decide +kernel, fun c hc hnone _ => ?_⟩
    · obtain ⟨child, hchild, -, hissuer⟩ := h
      exact hnone child hchild hissuer
    · rcases List.mem_cons.1 hc with hc | hc
      · exact hc
      · rw [List.mem_singleton.1 hc] at hnone
        exact absurd ⟨parsedCertificate issuedLeaf, List.mem_cons_self, by decide +kernel,
          by decide +kernel⟩ hnone
  obtain ⟨hpath, hchain⟩ := chain_orderIndependent
  refine ⟨?_, ?_⟩
  · obtain ⟨rest, hrest, hrest', -⟩ := hpath _ _ _ _ (List.Perm.swap _ _ _) hdistinct hleaf
    exact ⟨rest, hrest, hrest'⟩
  · have hhost : validationHost trustingOptions = .ok (text "h.test") := by decide +kernel
    have hvalid := hchain Unit acceptingProvider (.ok 20250101000000) trustingOptions
      [issuedLeaf, selfIssued] [selfIssued, issuedLeaf] _ rfl (List.Perm.swap _ _ _)
      (by decide +kernel) hparsed hdistinct fun host h =>
        ⟨_, Except.ok.inj (hhost.symm.trans h) ▸ hleaf⟩
    refine hvalid.1.symm.trans ?_
    decide +kernel

/-! ## Issuers in a cycle -/

/-- A leaf, and two authorities that issue each other. -/
def cycleLeaf : Bytes :=
  namedCertificate (text "l") (text "a") [encodeExtension oidSubjectAltName
    (encodeElement tagSequence (encodeElement tagDnsName (text "h.test")))]
def cycleFirst : Bytes := namedCertificate (text "a") (text "b") [authority]
def cycleSecond : Bytes := namedCertificate (text "b") (text "a") [authority]

example : (parsedCertificate cycleLeaf).issuer = (parsedCertificate cycleFirst).subject := by
  decide +kernel

/-- **The path of a cycle ends at a certificate whose issuer is present**, and without
    verification the leaf is the first certificate. -/
theorem issuerCycle_ends :
    List.Forall₂ (fun der c => parseCertificate der = .ok c) [cycleLeaf, cycleFirst, cycleSecond]
      ([cycleLeaf, cycleFirst, cycleSecond].map parsedCertificate) ∧
    DistinctSubjects ([cycleLeaf, cycleFirst, cycleSecond].map parsedCertificate) ∧
    OnlyLeaf ([cycleLeaf, cycleFirst, cycleSecond].map parsedCertificate) (text "h.test")
      (parsedCertificate cycleLeaf) ∧
    reorderCertificatePath ([cycleLeaf, cycleFirst, cycleSecond].map parsedCertificate)
      (text "h.test") = .ok ([cycleLeaf, cycleFirst, cycleSecond].map parsedCertificate) ∧
    isSelfIssued (parsedCertificate cycleSecond) = false ∧
    (parsedCertificate cycleSecond).issuer = (parsedCertificate cycleFirst).subject ∧
    validateChain acceptingProvider (.ok 0) ⟨encodeChain [cycleLeaf, cycleFirst], 2⟩
      { hostName := text "h.test", verifyCertificate := false } =
        .ok ⟨parsedCertificate cycleLeaf, List.replicate 32 0⟩ ∧
    validateChain acceptingProvider (.ok 0) ⟨encodeChain [cycleFirst, cycleLeaf], 2⟩
      { hostName := text "h.test", verifyCertificate := false } =
        .ok ⟨parsedCertificate cycleFirst, List.replicate 32 0⟩ ∧
    parsedCertificate cycleLeaf ≠ parsedCertificate cycleFirst := by
  have hfirst : IssuesOther ([cycleLeaf, cycleFirst, cycleSecond].map parsedCertificate)
      (parsedCertificate cycleFirst) :=
    ⟨parsedCertificate cycleSecond, by simp, by decide +kernel, by decide +kernel⟩
  have hsecond : IssuesOther ([cycleLeaf, cycleFirst, cycleSecond].map parsedCertificate)
      (parsedCertificate cycleSecond) :=
    ⟨parsedCertificate cycleFirst, by simp, by decide +kernel, by decide +kernel⟩
  have hleaf : ∀ c ∈ [cycleLeaf, cycleFirst, cycleSecond].map parsedCertificate,
      c.issuer ≠ (parsedCertificate cycleLeaf).subject := by
    decide +kernel
  refine ⟨?_, ?_, ⟨by simp, ?_, by decide +kernel, ?_⟩, ?_, ?_, ?_, ?_, ?_, ?_⟩
  · simp only [List.map_cons, List.map_nil, List.forall₂_cons, List.forall₂_nil_right_iff]
    decide +kernel
  · unfold DistinctSubjects
    decide +kernel
  · rintro ⟨child, hmem, -, hissuer⟩
    exact hleaf child hmem hissuer
  · intro c hc hnone _
    simp only [List.map_cons, List.map_nil, List.mem_cons, List.not_mem_nil, or_false] at hc
    rcases hc with hc | hc | hc
    · exact hc
    · rw [hc] at hnone
      exact absurd hfirst hnone
    · rw [hc] at hnone
      exact absurd hsecond hnone
  all_goals decide +kernel

end KernelHttp.Tls
