/-
  Every extension of a certificate counts (`tls/CertificateValidator.cpp`).

  Extensions are compared within a block, and a certificate may have several blocks.
-/
import KernelHttp.Tls.Certificate
import KernelHttp.Lib.Incremental

namespace KernelHttp.Tls

open Incremental

/-! ## The elements of a value -/

/-- The elements that `data` is made of. -/
def elementsOf (data : Bytes) : Except NTSTATUS (List DerElement) :=
  match data with
  | [] => .ok []
  | c :: data =>
    match _h : readElement (c :: data) with
    | .error status => .error status
    | .ok (e, rest) => (e :: ·) <$> elementsOf rest
termination_by data.length
decreasing_by exact readElement_length _h

variable {data rest : Bytes} {e : DerElement} {elements : List DerElement}
    {c c' : ParsedCertificate} {s s' : ParsedCertificate × List Bytes} {tag : UInt8}

theorem elementsOf_cons
    (h : readElement data = .ok (e, rest)) (hrest : elementsOf rest = .ok elements) :
    elementsOf data = .ok (e :: elements) := by
  match data with
  | [] => cases h
  | c :: data =>
    rw [elementsOf, h]
    simp [hrest]

/-- A loop that ends is a fold over the elements. -/
theorem forElements_eq_ok {σ : Type} {turn : σ → DerElement → Except NTSTATUS σ} {s s' : σ}
    (h : forElements turn s data = .ok s') :
    ∃ elements, elementsOf data = .ok elements ∧ elements.foldlM turn s = .ok s' := by
  induction s, data using forElements.induct turn with
  | case1 s =>
    rw [forElements] at h
    exact ⟨[], by rw [elementsOf], h⟩
  | case2 s c data status hread =>
    rw [forElements, hread] at h
    cases h
  | case3 s c data e rest hread status hturn =>
    rw [forElements, hread] at h
    simp [hturn] at h
  | case4 s c data e rest hread s₁ hturn ih =>
    rw [forElements, hread] at h
    simp only [hturn] at h
    obtain ⟨elements, helements, hfold⟩ := ih h
    refine ⟨e :: elements, elementsOf_cons hread helements, ?_⟩
    rw [List.foldlM_cons, hturn]
    exact hfold

theorem forElements_keeps {σ : Type} {I : σ → Prop} {turn : σ → DerElement → Except NTSTATUS σ}
    (hturn : ∀ s e s', turn s e = .ok s' → I s → I s') {s s' : σ}
    (h : forElements turn s data = .ok s') (hs : I s) : I s' := by
  obtain ⟨elements, -, hfold⟩ := forElements_eq_ok h
  clear h
  induction elements generalizing s with
  | nil => exact Except.ok.inj hfold ▸ hs
  | cons e elements ih =>
    rw [List.foldlM_cons] at hfold
    obtain ⟨s₁, he, hrest⟩ := bind_eq_ok hfold
    exact ih (hturn s e s₁ he hs) hrest

theorem forExpected_keeps {σ : Type} {I : σ → Prop} {turn : σ → DerElement → Except NTSTATUS σ}
    (hturn : ∀ s e s', turn s e = .ok s' → I s → I s') {s s' : σ}
    (h : forExpected tag turn s data = .ok s') (hs : I s) : I s' := by
  refine forElements_keeps (fun s e s' hok => ?_) h hs
  split at hok
  · exact hturn s e s' hok
  · cases hok

/-! ## Kinds of extensions -/

/-- The extensions that `ParseExtensions` knows. -/
inductive ExtensionKind where
  | basicConstraints
  | keyUsage
  | subjectAltName
  | nameConstraints
  | certificatePolicies
  | policyConstraints
  | inhibitAnyPolicy
  | extendedKeyUsage
deriving DecidableEq

namespace ExtensionKind

def oid : ExtensionKind → Bytes
  | .basicConstraints => oidBasicConstraints
  | .keyUsage => oidKeyUsage
  | .subjectAltName => oidSubjectAltName
  | .nameConstraints => oidNameConstraints
  | .certificatePolicies => oidCertificatePolicies
  | .policyConstraints => oidPolicyConstraints
  | .inhibitAnyPolicy => oidInhibitAnyPolicy
  | .extendedKeyUsage => oidExtendedKeyUsage

/-- `destination` with the fields of a kind from `source`. -/
def put (kind : ExtensionKind) (source destination : ParsedCertificate) : ParsedCertificate :=
  match kind with
  | .basicConstraints =>
    { destination with
      hasBasicConstraints := source.hasBasicConstraints
      isCa := source.isCa
      pathLenConstraint := source.pathLenConstraint }
  | .keyUsage =>
    { destination with
      hasKeyUsage := source.hasKeyUsage
      allowsDigitalSignature := source.allowsDigitalSignature
      allowsKeyEncipherment := source.allowsKeyEncipherment
      allowsKeyCertSign := source.allowsKeyCertSign }
  | .subjectAltName =>
    { destination with dnsNames := source.dnsNames, ipAddresses := source.ipAddresses }
  | .nameConstraints =>
    { destination with
      hasNameConstraints := source.hasNameConstraints
      permittedDnsSubtrees := source.permittedDnsSubtrees
      excludedDnsSubtrees := source.excludedDnsSubtrees
      permittedIpSubtrees := source.permittedIpSubtrees
      excludedIpSubtrees := source.excludedIpSubtrees
      permittedDirectoryNames := source.permittedDirectoryNames
      excludedDirectoryNames := source.excludedDirectoryNames }
  | .certificatePolicies =>
    { destination with
      hasCertificatePolicies := source.hasCertificatePolicies
      certificatePoliciesCritical := source.certificatePoliciesCritical
      certificatePolicyOids := source.certificatePolicyOids
      hasAnyPolicy := source.hasAnyPolicy }
  | .policyConstraints =>
    { destination with
      hasPolicyConstraints := source.hasPolicyConstraints
      requireExplicitPolicy := source.requireExplicitPolicy
      requireExplicitPolicySkipCerts := source.requireExplicitPolicySkipCerts
      inhibitPolicyMapping := source.inhibitPolicyMapping
      inhibitPolicyMappingSkipCerts := source.inhibitPolicyMappingSkipCerts }
  | .inhibitAnyPolicy =>
    { destination with
      hasInhibitAnyPolicy := source.hasInhibitAnyPolicy
      inhibitAnyPolicySkipCerts := source.inhibitAnyPolicySkipCerts }
  | .extendedKeyUsage =>
    { destination with
      hasExtendedKeyUsage := source.hasExtendedKeyUsage
      allowsServerAuth := source.allowsServerAuth }

def fields (kind : ExtensionKind) (certificate : ParsedCertificate) : ParsedCertificate :=
  kind.put certificate {}

def parse (kind : ExtensionKind) (critical : Bool) (value : Bytes)
    (certificate : ParsedCertificate) : Except NTSTATUS ParsedCertificate :=
  match kind with
  | .basicConstraints => parseBasicConstraints value certificate
  | .keyUsage => parseKeyUsage value certificate
  | .subjectAltName => parseSubjectAltName value certificate
  | .nameConstraints => parseNameConstraints value certificate
  | .certificatePolicies =>
    parseCertificatePolicies value { certificate with certificatePoliciesCritical := critical }
  | .policyConstraints => parsePolicyConstraints value certificate
  | .inhibitAnyPolicy => parseInhibitAnyPolicy value certificate
  | .extendedKeyUsage => parseExtendedKeyUsage value certificate

variable {kind kind' : ExtensionKind} {source destination certificate : ParsedCertificate}

@[simp] theorem put_self : kind.put certificate certificate = certificate := by
  cases kind <;> rfl

@[simp] theorem put_fields :
    kind.put (kind.fields source) destination = kind.put source destination := by
  cases kind <;> rfl

@[simp] theorem fields_put : kind.fields (kind.put source destination) = kind.fields source := by
  cases kind <;> rfl

theorem fields_put_of_ne (h : kind ≠ kind') :
    kind.fields (kind'.put source destination) = kind.fields destination := by
  cases kind <;> cases kind' <;> first | rfl | exact absurd rfl h

end ExtensionKind

theorem parseKnownExtension_oid (kind : ExtensionKind) (critical : Bool) (value : Bytes)
    (certificate : ParsedCertificate) :
    parseKnownExtension kind.oid critical value certificate =
      kind.parse critical value certificate := by
  cases kind <;> rfl

theorem parseKnownExtension_unknown {oid value : Bytes} {critical : Bool}
    {certificate : ParsedCertificate} (h : ∀ kind : ExtensionKind, oid ≠ kind.oid) :
    parseKnownExtension oid critical value certificate =
      if critical then .error statusInvalidNetworkResponse else .ok certificate := by
  rw [parseKnownExtension,
    if_neg (show oid ≠ oidBasicConstraints from h .basicConstraints),
    if_neg (show oid ≠ oidKeyUsage from h .keyUsage),
    if_neg (show oid ≠ oidSubjectAltName from h .subjectAltName),
    if_neg (show oid ≠ oidNameConstraints from h .nameConstraints),
    if_neg (show oid ≠ oidCertificatePolicies from h .certificatePolicies),
    if_neg (show oid ≠ oidPolicyConstraints from h .policyConstraints),
    if_neg (show oid ≠ oidInhibitAnyPolicy from h .inhibitAnyPolicy),
    if_neg (show oid ≠ oidExtendedKeyUsage from h .extendedKeyUsage)]

/-! ## A parser and its fields -/

section Put

variable {α β γ : Type} {f : α → β} {source destination : ParsedCertificate}

theorem bind_map {x : Except NTSTATUS γ} {g : γ → Except NTSTATUS α} {g' : γ → Except NTSTATUS β}
    (h : ∀ a, g' a = (g a).map f) : (x >>= g') = (x >>= g).map f := by
  cases x with
  | error status => rfl
  | ok a => exact h a

theorem map_bind_map {δ : Type} {f' : γ → δ} {x : Except NTSTATUS γ} {x' : Except NTSTATUS δ}
    {g : γ → Except NTSTATUS α} {g' : δ → Except NTSTATUS β} (hx : x' = x.map f')
    (h : ∀ a, g' (f' a) = (g a).map f) : (x' >>= g') = (x >>= g).map f := by
  subst hx
  cases x with
  | error status => rfl
  | ok a => exact h a

theorem ite_map {c : Prop} [Decidable c] {x y : Except NTSTATUS α} {x' y' : Except NTSTATUS β}
    (hx : x' = x.map f) (hy : y' = y.map f) :
    (if c then x' else y') = (if c then x else y).map f := by
  split_ifs
  · exact hx
  · exact hy

/-- A loop whose turns read and write the fields of a kind alone. -/
theorem forElements_put {kind : ExtensionKind}
    {turn : ParsedCertificate → DerElement → Except NTSTATUS ParsedCertificate}
    (h : ∀ source e, turn (kind.put source destination) e =
      (turn source e).map (kind.put · destination)) {data : Bytes} :
    forElements turn (kind.put source destination) data =
      (forElements turn source data).map (kind.put · destination) := by
  induction source, data using forElements.induct turn with
  | case1 source => rw [forElements, forElements]; rfl
  | case2 source c data status hread => rw [forElements, forElements, hread]; rfl
  | case3 source c data e rest hread status hturn =>
    rw [forElements, forElements, hread]
    simp [h, hturn, Except.map]
  | case4 source c data e rest hread source' hturn ih =>
    rw [forElements, forElements, hread]
    simp only [h, hturn, Except.map]
    exact ih

theorem forExpected_put {kind : ExtensionKind} {tag : UInt8}
    {turn : ParsedCertificate → DerElement → Except NTSTATUS ParsedCertificate}
    (h : ∀ source e, turn (kind.put source destination) e =
      (turn source e).map (kind.put · destination)) {data : Bytes} :
    forExpected tag turn (kind.put source destination) data =
      (forExpected tag turn source data).map (kind.put · destination) := by
  refine forElements_put fun source e => ?_
  exact ite_map (h source e) rfl

theorem parseBasicConstraints_put (value : Bytes) :
    parseBasicConstraints value (ExtensionKind.basicConstraints.put source destination) =
      (parseBasicConstraints value source).map
        (ExtensionKind.basicConstraints.put · destination) := by
  unfold parseBasicConstraints
  refine bind_map fun ⟨sequence, _⟩ => ?_
  dsimp only
  cases sequence.value with
  | nil => rfl
  | cons c tail =>
    refine bind_map fun ca => ite_map (bind_map fun r => ?_)
      (ite_map (bind_map fun pathLen => bind_map fun r => ?_) rfl)
    · cases r.2.2 with
      | nil => exact ite_map rfl rfl
      | cons c rest => exact bind_map fun a => bind_map fun n => bind_map fun r => ite_map rfl rfl
    · cases r.2.2 with
      | nil => exact ite_map rfl rfl
      | cons c rest => exact bind_map fun a => bind_map fun n => bind_map fun r => ite_map rfl rfl

theorem parseKeyUsage_put (value : Bytes) :
    parseKeyUsage value (ExtensionKind.keyUsage.put source destination) =
      (parseKeyUsage value source).map (ExtensionKind.keyUsage.put · destination) := by
  unfold parseKeyUsage
  exact bind_map fun a => ite_map rfl (ite_map rfl rfl)

theorem parseSubjectAltName_put (value : Bytes) :
    parseSubjectAltName value (ExtensionKind.subjectAltName.put source destination) =
      (parseSubjectAltName value source).map (ExtensionKind.subjectAltName.put · destination) := by
  unfold parseSubjectAltName
  refine bind_map fun a => ite_map rfl (forElements_put fun source name => ?_)
  unfold parseSubjectAltNameEntry
  exact ite_map (ite_map rfl (ite_map rfl rfl)) (ite_map (ite_map rfl (ite_map rfl rfl)) rfl)

theorem addDnsNameConstraint_put (permitted : Bool) (value : Bytes) :
    addDnsNameConstraint (ExtensionKind.nameConstraints.put source destination) permitted value =
      (addDnsNameConstraint source permitted value).map
        (ExtensionKind.nameConstraints.put · destination) := by
  unfold addDnsNameConstraint
  exact ite_map (bind_map fun _ => rfl) (bind_map fun _ => rfl)

theorem addIpNameConstraint_put (permitted : Bool) (value : Bytes) :
    addIpNameConstraint (ExtensionKind.nameConstraints.put source destination) permitted value =
      (addIpNameConstraint source permitted value).map
        (ExtensionKind.nameConstraints.put · destination) := by
  unfold addIpNameConstraint
  exact ite_map (bind_map fun _ => rfl) (bind_map fun _ => rfl)

theorem addDirectoryNameConstraint_put (permitted : Bool) (value : Bytes) :
    addDirectoryNameConstraint (ExtensionKind.nameConstraints.put source destination) permitted
        value =
      (addDirectoryNameConstraint source permitted value).map
        (ExtensionKind.nameConstraints.put · destination) := by
  unfold addDirectoryNameConstraint
  exact ite_map rfl
    (bind_map fun _ => ite_map (bind_map fun _ => rfl) (bind_map fun _ => rfl))

theorem parseNameConstraintSubtree_put (permitted : Bool) (subtree : DerElement) :
    parseNameConstraintSubtree permitted (ExtensionKind.nameConstraints.put source destination)
        subtree =
      (parseNameConstraintSubtree permitted source subtree).map
        (ExtensionKind.nameConstraints.put · destination) := by
  unfold parseNameConstraintSubtree
  refine bind_map fun base => ite_map ?_ (ite_map ?_ (ite_map ?_ rfl))
  · exact map_bind_map (addDnsNameConstraint_put _ _) fun _ => bind_map fun _ => rfl
  · exact map_bind_map (addIpNameConstraint_put _ _) fun _ => bind_map fun _ => rfl
  · exact map_bind_map (addDirectoryNameConstraint_put _ _) fun _ => bind_map fun _ => rfl

theorem parseNameConstraints_put (value : Bytes) :
    parseNameConstraints value (ExtensionKind.nameConstraints.put source destination) =
      (parseNameConstraints value source).map
        (ExtensionKind.nameConstraints.put · destination) := by
  unfold parseNameConstraints
  refine bind_map fun a => ite_map rfl (map_bind_map (forElements_put ?_) fun _ => rfl)
  intro source subtrees
  unfold parseNameConstraintSubtrees
  refine ite_map rfl (ite_map rfl (forExpected_put ?_))
  exact fun source subtree => parseNameConstraintSubtree_put _ subtree

theorem parsePolicyInfo_put (policyInfo : DerElement) :
    parsePolicyInfo (ExtensionKind.certificatePolicies.put source destination) policyInfo =
      (parsePolicyInfo source policyInfo).map
        (ExtensionKind.certificatePolicies.put · destination) := by
  unfold parsePolicyInfo
  refine bind_map fun a => ite_map rfl (ite_map rfl ?_)
  cases a.2 with
  | nil => rfl
  | cons c rest => exact bind_map fun qualifiers => bind_map fun _ => ite_map rfl rfl

theorem parseCertificatePolicies_put (value : Bytes) :
    parseCertificatePolicies value (ExtensionKind.certificatePolicies.put source destination) =
      (parseCertificatePolicies value source).map
        (ExtensionKind.certificatePolicies.put · destination) := by
  unfold parseCertificatePolicies
  exact bind_map fun a => ite_map rfl
    (map_bind_map (forExpected_put fun _ => parsePolicyInfo_put) fun _ => rfl)

theorem parsePolicyConstraints_put (value : Bytes) :
    parsePolicyConstraints value (ExtensionKind.policyConstraints.put source destination) =
      (parsePolicyConstraints value source).map
        (ExtensionKind.policyConstraints.put · destination) := by
  unfold parsePolicyConstraints
  refine bind_map fun a => ite_map rfl (map_bind_map (forElements_put ?_) fun _ => rfl)
  intro source constraint
  unfold parsePolicyConstraint
  exact bind_map fun skipCerts => ite_map rfl (ite_map rfl rfl)

theorem parseInhibitAnyPolicy_put (value : Bytes) :
    parseInhibitAnyPolicy value (ExtensionKind.inhibitAnyPolicy.put source destination) =
      (parseInhibitAnyPolicy value source).map
        (ExtensionKind.inhibitAnyPolicy.put · destination) := by
  unfold parseInhibitAnyPolicy
  exact bind_map fun a => ite_map rfl (bind_map fun _ => rfl)

theorem parseExtendedKeyUsage_put (value : Bytes) :
    parseExtendedKeyUsage value (ExtensionKind.extendedKeyUsage.put source destination) =
      (parseExtendedKeyUsage value source).map
        (ExtensionKind.extendedKeyUsage.put · destination) := by
  unfold parseExtendedKeyUsage
  refine bind_map fun a => ?_
  exact @forExpected_put { source with hasExtendedKeyUsage := true, allowsServerAuth := false }
    destination .extendedKeyUsage _ _ (fun source usage => rfl) _

/-- **The parser of a kind reads and writes the fields of its kind alone.** -/
theorem ExtensionKind.parse_put (kind : ExtensionKind) (critical : Bool) (value : Bytes)
    (source destination : ParsedCertificate) :
    kind.parse critical value (kind.put source destination) =
      (kind.parse critical value source).map (kind.put · destination) := by
  cases kind with
  | basicConstraints => exact parseBasicConstraints_put value
  | keyUsage => exact parseKeyUsage_put value
  | subjectAltName => exact parseSubjectAltName_put value
  | nameConstraints => exact parseNameConstraints_put value
  | certificatePolicies =>
    exact @parseCertificatePolicies_put { source with certificatePoliciesCritical := critical }
      destination value
  | policyConstraints => exact parsePolicyConstraints_put value
  | inhibitAnyPolicy => exact parseInhibitAnyPolicy_put value
  | extendedKeyUsage => exact parseExtendedKeyUsage_put value

end Put

/-! ## Extensions -/

/-- An extension: its identifier, whether it is critical, and its value. -/
structure Extension where
  oid : Bytes
  critical : Bool
  value : Bytes
deriving DecidableEq

def readExtension (e : DerElement) : Except NTSTATUS Extension :=
  if e.tag ≠ tagSequence then .error statusInvalidNetworkResponse
  else do
    let (oid, rest) ← readExpected tagOid e.value
    let (critical, rest) ←
      if rest.head? = some tagBoolean then do
        let (critical, rest) ← readExpected tagBoolean rest
        match critical.value with
        | [octet] => .ok (octet != 0, rest)
        | _ => .error statusInvalidNetworkResponse
      else .ok (false, rest)
    let (value, _) ← readExpected tagOctetString rest
    .ok ⟨oid.value, critical, value.value⟩

def readExtensions (block : DerElement) : Except NTSTATUS (List Extension) := do
  let (sequence, _) ← readExpected tagSequence block.value
  let elements ← elementsOf sequence.value
  elements.mapM readExtension

/-- The elements behind the key of a certificate. -/
def optionalElements (der : Bytes) : Except NTSTATUS (List DerElement) := do
  let (root, _) ← readExpected tagSequence der
  let (tbs, _) ← readExpected tagSequence root.value
  let elements ← elementsOf tbs.value
  .ok (elements.drop (if tbs.value.head? = some tagTbsVersion then 7 else 6))

/-- **The extension blocks of a certificate**, each with its extensions. -/
def extensionBlocks (der : Bytes) : Except NTSTATUS (List (List Extension)) := do
  let elements ← optionalElements der
  (elements.filter fun e => e.tag == tagExtensions).mapM readExtensions

def applyExtension (certificate : ParsedCertificate) (x : Extension) :
    Except NTSTATUS ParsedCertificate :=
  parseKnownExtension x.oid x.critical x.value certificate

variable {x : Extension} {kind : ExtensionKind}

/-- An extension of a kind changes the fields of its kind alone. -/
theorem applyExtension_oid (h : applyExtension c x = .ok c') (hoid : x.oid = kind.oid) :
    c' = kind.put c' c ∧
      ∃ d, applyExtension (kind.fields c) x = .ok d ∧ kind.fields c' = kind.fields d := by
  rw [applyExtension, hoid, parseKnownExtension_oid] at h ⊢
  have hfields := kind.parse_put x.critical x.value (kind.fields c) c
  have hself : kind.put (kind.fields c) c = c := by simp
  rw [hself, h] at hfields
  cases hd : kind.parse x.critical x.value (kind.fields c) with
  | error status =>
    rw [hd] at hfields
    cases hfields
  | ok d =>
    rw [hd] at hfields
    obtain rfl := Except.ok.inj hfields
    refine ⟨?_, d, rfl, ?_⟩
    · cases kind <;> rfl
    · simp

theorem applyExtension_unknown
    (h : applyExtension c x = .ok c') (hoid : ∀ kind : ExtensionKind, x.oid ≠ kind.oid) :
    c' = c ∧ x.critical = false := by
  rw [applyExtension, parseKnownExtension_unknown hoid] at h
  split at h
  · cases h
  · rename_i hcritical
    exact ⟨(Except.ok.inj h).symm, by simpa using hcritical⟩

theorem applyExtension_fields_of_ne (h : applyExtension c x = .ok c') (hoid : x.oid ≠ kind.oid) :
    kind.fields c' = kind.fields c := by
  by_cases hknown : ∃ kind' : ExtensionKind, x.oid = kind'.oid
  · obtain ⟨kind', hoid'⟩ := hknown
    rw [(applyExtension_oid h hoid').1]
    refine ExtensionKind.fields_put_of_ne ?_
    rintro rfl
    exact hoid hoid'
  · push Not at hknown
    rw [(applyExtension_unknown h hknown).1]

variable {xs : List Extension}

/-- Without an extension of a kind, its fields stay. -/
theorem applyExtensions_absent (h : xs.foldlM applyExtension c = .ok c')
    (hxs : ∀ x ∈ xs, x.oid ≠ kind.oid) : kind.fields c' = kind.fields c := by
  induction xs generalizing c with
  | nil => rw [Except.ok.inj h]
  | cons x xs ih =>
    rw [List.foldlM_cons] at h
    obtain ⟨c₁, hx, hrest⟩ := bind_eq_ok h
    rw [ih hrest fun y hy => hxs y (List.mem_cons_of_mem x hy)]
    exact applyExtension_fields_of_ne hx (hxs x List.mem_cons_self)

/-- **The fields of a kind are those of the one extension of this kind.** -/
theorem applyExtensions_defined (h : xs.foldlM applyExtension c = .ok c')
    (hnodup : (xs.map Extension.oid).Nodup) (hx : x ∈ xs) (hoid : x.oid = kind.oid) :
    ∃ d, applyExtension (kind.fields c) x = .ok d ∧ kind.fields c' = kind.fields d := by
  induction xs generalizing c with
  | nil => cases hx
  | cons y xs ih =>
    rw [List.foldlM_cons] at h
    obtain ⟨c₁, hy, hrest⟩ := bind_eq_ok h
    rw [List.map_cons, List.nodup_cons] at hnodup
    have hne : ∀ z ∈ xs, z.oid ≠ y.oid := fun z hz heq =>
      hnodup.1 (heq ▸ List.mem_map_of_mem hz)
    rcases List.mem_cons.1 hx with rfl | hx
    · obtain ⟨-, d, hd, hfields⟩ := applyExtension_oid hy hoid
      refine ⟨d, hd, ?_⟩
      rw [← hfields]
      exact applyExtensions_absent hrest fun z hz => hoid ▸ hne z hz
    · obtain ⟨d, hd, hfields⟩ := ih hrest hnodup.2 hx
      rw [applyExtension_fields_of_ne hy (hoid ▸ (hne x hx).symm)] at hd
      exact ⟨d, hd, hfields⟩

theorem applyExtensions_known
    (h : xs.foldlM applyExtension c = .ok c') (hx : x ∈ xs) (hcritical : x.critical = true) :
    ∃ kind : ExtensionKind, x.oid = kind.oid := by
  induction xs generalizing c with
  | nil => cases hx
  | cons y xs ih =>
    rw [List.foldlM_cons] at h
    obtain ⟨c₁, hy, hrest⟩ := bind_eq_ok h
    rcases List.mem_cons.1 hx with rfl | hx
    · by_contra hunknown
      push Not at hunknown
      rw [(applyExtension_unknown hy hunknown).2] at hcritical
      cases hcritical
    · exact ih hrest hx

/-! ## What the source reads -/

theorem parseExtension_eq_ok (htag : e.tag = tagSequence) (h : parseExtension s e = .ok s') :
    ∃ x, readExtension e = .ok x ∧ x.oid ∉ s.2 ∧ applyExtension s.1 x = .ok s'.1 ∧
      s'.2 = x.oid :: s.2 := by
  unfold parseExtension at h
  obtain ⟨⟨oid, rest⟩, hoid, h⟩ := bind_eq_ok h
  dsimp only at h
  split at h
  · cases h
  rename_i hnew
  rw [readExtension, if_neg (not_not.2 htag), bind_of_ok hoid]
  dsimp only
  by_cases hboolean : rest.head? = some tagBoolean
  · rw [if_pos hboolean] at h ⊢
    obtain ⟨⟨critical, rest'⟩, hcritical, h⟩ := bind_eq_ok h
    rw [bind_of_ok hcritical]
    dsimp only at h ⊢
    rcases hoctet : critical.value with _ | ⟨octet, _ | _⟩
    · rw [hoctet] at h
      cases h
    · rw [hoctet] at h
      obtain ⟨_, hpair, h⟩ := bind_eq_ok h
      obtain rfl := Except.ok.inj hpair
      obtain ⟨⟨value, rest''⟩, hvalue, h⟩ := bind_eq_ok h
      obtain ⟨certificate, hknown, h⟩ := bind_eq_ok h
      obtain rfl := Except.ok.inj h
      exact ⟨⟨oid.value, octet != 0, value.value⟩, bind_of_ok hvalue _, hnew, hknown, rfl⟩
    · rw [hoctet] at h
      cases h
  · rw [if_neg hboolean] at h ⊢
    obtain ⟨_, hpair, h⟩ := bind_eq_ok h
    obtain rfl := Except.ok.inj hpair
    obtain ⟨⟨value, rest''⟩, hvalue, h⟩ := bind_eq_ok h
    obtain ⟨certificate, hknown, h⟩ := bind_eq_ok h
    obtain rfl := Except.ok.inj h
    exact ⟨⟨oid.value, false, value.value⟩, bind_of_ok hvalue _, hnew, hknown, rfl⟩

theorem parseExtensions_turns
    (h : elements.foldlM (fun s e => if e.tag = tagSequence then parseExtension s e
      else .error statusInvalidNetworkResponse) s = .ok s') :
    ∃ xs, elements.mapM readExtension = .ok xs ∧ xs.foldlM applyExtension s.1 = .ok s'.1 ∧
      (xs.map Extension.oid).Nodup ∧ ∀ x ∈ xs, x.oid ∉ s.2 := by
  induction elements generalizing s with
  | nil =>
    obtain rfl := Except.ok.inj h
    exact ⟨[], rfl, rfl, List.nodup_nil, fun x hx => by cases hx⟩
  | cons e elements ih =>
    rw [List.foldlM_cons] at h
    obtain ⟨s₁, he, hrest⟩ := bind_eq_ok h
    split at he
    · obtain ⟨x, hread, hnew, happly, hseen⟩ := parseExtension_eq_ok ‹_› he
      obtain ⟨xs, hxs, hfold, hnodup, hfresh⟩ := ih hrest
      rw [hseen] at hfresh
      refine ⟨x :: xs, ?_, ?_, ?_, ?_⟩
      · rw [List.mapM_cons, bind_of_ok hread, bind_of_ok hxs]
        rfl
      · rw [List.foldlM_cons, bind_of_ok happly]
        exact hfold
      · rw [List.map_cons, List.nodup_cons, List.mem_map]
        refine ⟨?_, hnodup⟩
        rintro ⟨y, hy, heq⟩
        exact hfresh y hy (heq ▸ List.mem_cons_self)
      · intro y hy
        rcases List.mem_cons.1 hy with rfl | hy
        · exact hnew
        · exact fun hmem => hfresh y hy (List.mem_cons_of_mem _ hmem)
    · cases he

theorem parseExtensions_eq_ok {block : DerElement} (h : parseExtensions block c = .ok c') :
    ∃ xs, readExtensions block = .ok xs ∧ xs.foldlM applyExtension c = .ok c' ∧
      (xs.map Extension.oid).Nodup := by
  unfold parseExtensions at h
  obtain ⟨⟨sequence, rest⟩, hsequence, h⟩ := bind_eq_ok h
  obtain ⟨s', hloop, h⟩ := bind_eq_ok h
  obtain rfl := Except.ok.inj h
  obtain ⟨elements, helements, hfold⟩ := forElements_eq_ok hloop
  obtain ⟨xs, hxs, happly, hnodup, -⟩ := parseExtensions_turns hfold
  refine ⟨xs, ?_, happly, hnodup⟩
  rw [readExtensions, bind_of_ok hsequence]
  exact (bind_of_ok helements _).trans hxs

theorem parseOptionals_turns
    (h : elements.foldlM (fun certificate e => if e.tag = tagExtensions then
      parseExtensions e certificate else .ok certificate) c = .ok c') :
    ∃ blocks, (elements.filter fun e => e.tag == tagExtensions).mapM readExtensions = .ok blocks ∧
      blocks.flatten.foldlM applyExtension c = .ok c' ∧
      ∀ xs ∈ blocks, (xs.map Extension.oid).Nodup := by
  induction elements generalizing c with
  | nil => exact ⟨[], rfl, h, fun xs hxs => by cases hxs⟩
  | cons e elements ih =>
    rw [List.foldlM_cons] at h
    obtain ⟨c₁, he, hrest⟩ := bind_eq_ok h
    obtain ⟨blocks, hblocks, hfold, hnodup⟩ := ih hrest
    split at he
    case isTrue htag =>
      obtain ⟨xs, hxs, happly, hxsNodup⟩ := parseExtensions_eq_ok he
      refine ⟨xs :: blocks, ?_, ?_, ?_⟩
      · rw [List.filter_cons_of_pos (by simpa using htag), List.mapM_cons, bind_of_ok hxs,
          bind_of_ok hblocks]
        rfl
      · rw [List.flatten_cons, List.foldlM_append, bind_of_ok happly]
        exact hfold
      · intro ys hys
        rcases List.mem_cons.1 hys with rfl | hys
        · exact hxsNodup
        · exact hnodup ys hys
    case isFalse htag =>
      obtain rfl := Except.ok.inj he
      refine ⟨blocks, ?_, hfold, hnodup⟩
      rw [List.filter_cons_of_neg (by simpa using htag)]
      exact hblocks

/-! ## The whole certificate -/

/-- **No extension is overridden or skipped**: each identifier comes once in the whole
    certificate, the critical extensions are known, and the fields of a kind are those of its
    extension. -/
structure NothingOverridden (blocks : List (List Extension)) (c : ParsedCertificate) : Prop where
  once : (blocks.flatten.map Extension.oid).Nodup
  known : ∀ x ∈ blocks.flatten, x.critical = true → ∃ kind : ExtensionKind, x.oid = kind.oid
  defined : ∀ x ∈ blocks.flatten, ∀ kind : ExtensionKind, x.oid = kind.oid →
    ∃ d, applyExtension {} x = .ok d ∧ kind.fields c = kind.fields d
  absent : ∀ kind : ExtensionKind, (∀ x ∈ blocks.flatten, x.oid ≠ kind.oid) → kind.fields c = {}

/-- No identifier comes in two blocks. -/
def BlocksApart (blocks : List (List Extension)) : Prop :=
  blocks.Pairwise fun xs ys => ∀ x ∈ xs, ∀ y ∈ ys, x.oid ≠ y.oid

variable {blocks : List (List Extension)}

theorem nodup_flatten_iff (h : ∀ xs ∈ blocks, (xs.map Extension.oid).Nodup) :
    (blocks.flatten.map Extension.oid).Nodup ↔ BlocksApart blocks := by
  rw [List.map_flatten, List.nodup_flatten, BlocksApart, List.pairwise_map]
  constructor
  · rintro ⟨-, hpairwise⟩
    refine hpairwise.imp fun hdisjoint x hx y hy heq => ?_
    exact hdisjoint (List.mem_map_of_mem hx) (heq ▸ List.mem_map_of_mem hy)
  · intro hpairwise
    refine ⟨by simpa using h, hpairwise.imp fun hapart => ?_⟩
    rw [List.disjoint_left]
    intro oid hmem hmem'
    obtain ⟨x, hx, hoid⟩ := List.mem_map.1 hmem
    obtain ⟨y, hy, hoid'⟩ := List.mem_map.1 hmem'
    exact hapart x hx y hy (hoid.trans hoid'.symm)

theorem nothingOverridden_iff {c₀ : ParsedCertificate}
    (happly : blocks.flatten.foldlM applyExtension c₀ = .ok c)
    (hempty : ∀ kind : ExtensionKind, kind.fields c₀ = {})
    (hnodup : ∀ xs ∈ blocks, (xs.map Extension.oid).Nodup) :
    NothingOverridden blocks c ↔ BlocksApart blocks := by
  rw [← nodup_flatten_iff hnodup]
  refine ⟨NothingOverridden.once, fun honce => ?_⟩
  refine ⟨honce, fun x hx => applyExtensions_known happly hx, fun x hx kind hoid => ?_, ?_⟩
  · rw [← hempty kind]
    exact applyExtensions_defined happly honce hx hoid
  · intro kind hnone
    rw [applyExtensions_absent happly hnone, hempty]

theorem parseName_fields {name : DerElement} (kind : ExtensionKind)
    (h : parseName name c = .ok c') (hempty : kind.fields c = {}) : kind.fields c' = {} := by
  refine forExpected_keeps (I := fun c => kind.fields c = {}) (fun c set c' hset => ?_) h hempty
  refine forExpected_keeps (I := fun c => kind.fields c = {}) (fun c item c' hitem hc => ?_) hset
  unfold parseNameAttribute at hitem
  obtain ⟨⟨oid, rest⟩, -, hitem⟩ := bind_eq_ok hitem
  obtain ⟨⟨value, rest'⟩, -, hitem⟩ := bind_eq_ok hitem
  dsimp only at hitem
  split at hitem
  · obtain rfl := Except.ok.inj hitem
    rw [← hc]
    cases kind <;> rfl
  · exact Except.ok.inj hitem ▸ hc

theorem parseSubjectPublicKeyInfo_fields {spki : DerElement}
    (kind : ExtensionKind) (h : parseSubjectPublicKeyInfo spki c = .ok c')
    (hempty : kind.fields c = {}) : kind.fields c' = {} := by
  unfold parseSubjectPublicKeyInfo at h
  obtain ⟨⟨algorithm, rest⟩, -, h⟩ := bind_eq_ok h
  obtain ⟨publicKeyAlgorithm, -, h⟩ := bind_eq_ok h
  obtain ⟨⟨key, rest'⟩, -, h⟩ := bind_eq_ok h
  dsimp only at h
  split at h
  · cases h
  split at h
  · obtain ⟨⟨rsaSequence, rest⟩, -, h⟩ := bind_eq_ok h
    obtain ⟨⟨modulus, rest'⟩, -, h⟩ := bind_eq_ok h
    obtain ⟨⟨exponent, rest''⟩, -, h⟩ := bind_eq_ok h
    dsimp only at h
    split at h
    · cases h
    · obtain rfl := Except.ok.inj h
      rw [← hempty]
      cases kind <;> rfl
  · split at h
    · cases h
    · obtain rfl := Except.ok.inj h
      rw [← hempty]
      cases kind <;> rfl

theorem elementsOf_readExpected (h : readExpected tag data = .ok (e, rest))
    (hrest : elementsOf rest = .ok elements) : elementsOf data = .ok (e :: elements) :=
  elementsOf_cons (readExpected_eq_ok h).1 hrest

theorem parseTbsCertificate_eq_ok {tbs : DerElement} (h : parseTbsCertificate tbs c = .ok c')
    (hempty : ∀ kind : ExtensionKind, kind.fields c = {}) :
    ∃ c₀ elements, elementsOf tbs.value = .ok elements ∧
      (elements.drop (if tbs.value.head? = some tagTbsVersion then 7 else 6)).foldlM
        (fun certificate e => if e.tag = tagExtensions then parseExtensions e certificate
          else .ok certificate) c₀ = .ok c' ∧
      ∀ kind : ExtensionKind, kind.fields c₀ = {} := by
  unfold parseTbsCertificate at h
  extract_lets jp at h
  have hjp : ∀ rest, jp rest = .ok c' → ∃ c₀ elements, elementsOf rest = .ok elements ∧
      (elements.drop 6).foldlM (fun certificate e => if e.tag = tagExtensions then
        parseExtensions e certificate else .ok certificate) c₀ = .ok c' ∧
      ∀ kind : ExtensionKind, kind.fields c₀ = {} := by
    intro rest h
    simp only [jp] at h
    obtain ⟨⟨serial, rest₁⟩, hserial, h⟩ := bind_eq_ok h
    obtain ⟨⟨innerSignature, rest₂⟩, hinner, h⟩ := bind_eq_ok h
    obtain ⟨innerAlgorithm, -, h⟩ := bind_eq_ok h
    dsimp only at h
    split at h
    · cases h
    obtain ⟨⟨issuer, rest₃⟩, hissuer, h⟩ := bind_eq_ok h
    obtain ⟨⟨validity, rest₄⟩, hvalidity, h⟩ := bind_eq_ok h
    obtain ⟨⟨subject, rest₅⟩, hsubject, h⟩ := bind_eq_ok h
    obtain ⟨⟨spki, rest₆⟩, hspki, h⟩ := bind_eq_ok h
    obtain ⟨⟨notBefore, validityRest⟩, -, h⟩ := bind_eq_ok h
    obtain ⟨⟨notAfter, _⟩, -, h⟩ := bind_eq_ok h
    obtain ⟨notBefore, -, h⟩ := bind_eq_ok h
    obtain ⟨notAfter, -, h⟩ := bind_eq_ok h
    obtain ⟨c₁, hname, h⟩ := bind_eq_ok h
    obtain ⟨c₀, hkey, h⟩ := bind_eq_ok h
    obtain ⟨optionals, hoptionals, hfold⟩ := forElements_eq_ok h
    refine ⟨c₀, serial :: innerSignature :: issuer :: validity :: subject :: spki :: optionals, ?_,
      hfold, fun kind => ?_⟩
    · exact elementsOf_readExpected hserial (elementsOf_readExpected hinner
        (elementsOf_readExpected hissuer (elementsOf_readExpected hvalidity
        (elementsOf_readExpected hsubject (elementsOf_readExpected hspki hoptionals)))))
    · refine parseSubjectPublicKeyInfo_fields kind hkey (parseName_fields kind hname ?_)
      rw [← hempty kind]
      cases kind <;> rfl
  split at h
  · rename_i hversion
    obtain ⟨⟨version, rest⟩, hread, h⟩ := bind_eq_ok h
    obtain ⟨_, hrest, h⟩ := bind_eq_ok h
    obtain rfl := Except.ok.inj hrest
    obtain ⟨c₀, elements, helements, hfold, hfields⟩ := hjp rest h
    rw [if_pos hversion]
    exact ⟨c₀, version :: elements, elementsOf_readExpected hread helements, hfold, hfields⟩
  · rename_i hversion
    obtain ⟨_, hrest, h⟩ := bind_eq_ok h
    obtain rfl := Except.ok.inj hrest
    rw [if_neg hversion]
    exact hjp _ h

theorem parseCertificate_eq_ok {der : Bytes} (h : parseCertificate der = .ok c) :
    ∃ c₀ blocks, extensionBlocks der = .ok blocks ∧
      blocks.flatten.foldlM applyExtension c₀ = .ok c ∧
      (∀ kind : ExtensionKind, kind.fields c₀ = {}) ∧
      ∀ xs ∈ blocks, (xs.map Extension.oid).Nodup := by
  unfold parseCertificate at h
  split at h
  · cases h
  obtain ⟨⟨root, rest⟩, hroot, h⟩ := bind_eq_ok h
  dsimp only at h
  split at h
  · cases h
  obtain ⟨⟨tbs, rest₁⟩, htbs, h⟩ := bind_eq_ok h
  obtain ⟨⟨algorithm, rest₂⟩, -, h⟩ := bind_eq_ok h
  obtain ⟨signatureAlgorithm, -, h⟩ := bind_eq_ok h
  obtain ⟨⟨signature, rest₃⟩, -, h⟩ := bind_eq_ok h
  dsimp only at h
  split at h
  · cases h
  obtain ⟨c₀, elements, helements, hfold, hempty⟩ := parseTbsCertificate_eq_ok h
    fun kind => by cases kind <;> rfl
  obtain ⟨blocks, hblocks, happly, hnodup⟩ := parseOptionals_turns hfold
  refine ⟨c₀, blocks, ?_, happly, hempty, hnodup⟩
  have hoptional : optionalElements der =
      .ok (elements.drop (if tbs.value.head? = some tagTbsVersion then 7 else 6)) := by
    rw [optionalElements, bind_of_ok hroot]
    dsimp only
    rw [bind_of_ok htbs]
    exact bind_of_ok helements _
  rw [extensionBlocks, bind_of_ok hoptional]
  exact hblocks

/-- **Extensions of an accepted certificate**: none is overridden or skipped exactly if no
    identifier comes in two blocks. -/
theorem parseCertificate_extensions_iff {der : Bytes} {c : ParsedCertificate}
    (h : parseCertificate der = .ok c) :
    ∃ blocks, extensionBlocks der = .ok blocks ∧
      (NothingOverridden blocks c ↔ BlocksApart blocks) := by
  obtain ⟨c₀, blocks, hblocks, happly, hempty, hnodup⟩ := parseCertificate_eq_ok h
  exact ⟨blocks, hblocks, nothingOverridden_iff happly hempty hnodup⟩

/-! ## A certificate with two blocks -/

/-- An element of fewer than 256 octets. -/
def encodeElement (tag : UInt8) (value : Bytes) : Bytes :=
  if value.length < 0x80 then tag :: UInt8.ofNat value.length :: value
  else tag :: 0x81 :: UInt8.ofNat value.length :: value

def encodeExtension (oid value : Bytes) : Bytes :=
  encodeElement tagSequence (encodeElement tagOid oid ++ encodeElement tagOctetString value)

def ed25519Identifier : Bytes := encodeElement tagSequence (encodeElement tagOid oidEd25519)

def certificateWith (blocks : List (List Bytes)) : Bytes :=
  let time := encodeElement tagUtcTime ([50, 53, 48, 49, 48, 49] ++ List.replicate 6 48 ++ [90])
  let key := encodeElement tagSequence
    (ed25519Identifier ++ encodeElement tagBitString (0 :: List.replicate 32 1))
  let extensions := blocks.map fun extensions =>
    encodeElement tagExtensions (encodeElement tagSequence extensions.flatten)
  let tbs := encodeElement tagSequence
    (encodeElement tagInteger [1] ++ ed25519Identifier ++ encodeElement tagSequence [] ++
      encodeElement tagSequence (time ++ time) ++ encodeElement tagSequence [] ++ key ++
      extensions.flatten)
  encodeElement tagSequence (tbs ++ ed25519Identifier ++ encodeElement tagBitString [0, 0])

/-- `BasicConstraints` of a certificate that is no authority, and of one that is. -/
def endEntity : Bytes := encodeExtension oidBasicConstraints (encodeElement tagSequence [])
def authority : Bytes :=
  encodeExtension oidBasicConstraints (encodeElement tagSequence (encodeElement tagBoolean [0xff]))

theorem eq_ok_of_toOption {α : Type} {x : Except NTSTATUS α} {a : α} (h : x.toOption = some a) :
    x = .ok a := by
  cases x with
  | error status => cases h
  | ok b => rw [Option.some.inj h]

/-- With one block there is nothing to override. -/
theorem parseCertificate_extensions_iff_endEntity :
    ∃ c, parseCertificate (certificateWith [[endEntity]]) = .ok c ∧
      ∃ blocks, extensionBlocks (certificateWith [[endEntity]]) = .ok blocks ∧
        (NothingOverridden blocks c ↔ BlocksApart blocks) := by
  have haccepted : (parseCertificate (certificateWith [[endEntity]])).toOption.isSome = true := by
    decide +kernel
  obtain ⟨c, hc⟩ := Option.isSome_iff_exists.1 haccepted
  exact ⟨c, eq_ok_of_toOption hc, parseCertificate_extensions_iff (eq_ok_of_toOption hc)⟩

/-- The extensions of the two blocks. -/
def doubledExtensions : List (List Extension) :=
  [[⟨oidBasicConstraints, false, encodeElement tagSequence []⟩],
    [⟨oidBasicConstraints, false, encodeElement tagSequence (encodeElement tagBoolean [0xff])⟩]]

/-- **The second block overrides the first**: the certificate of an end entity becomes one of an
    authority. -/
theorem parseCertificate_overridden :
    ∃ c, parseCertificate (certificateWith [[endEntity], [authority]]) = .ok c ∧ c.isCa = true ∧
      extensionBlocks (certificateWith [[endEntity], [authority]]) = .ok doubledExtensions ∧
      ¬ NothingOverridden doubledExtensions c := by
  have hca : (parseCertificate (certificateWith [[endEntity], [authority]])).toOption.map
      ParsedCertificate.isCa = some true := by decide +kernel
  have hblocks : (extensionBlocks (certificateWith [[endEntity], [authority]])).toOption =
      some doubledExtensions := by decide +kernel
  obtain ⟨c, hc, hisCa⟩ := Option.map_eq_some_iff.1 hca
  refine ⟨c, eq_ok_of_toOption hc, hisCa, eq_ok_of_toOption hblocks, ?_⟩
  intro h
  exact absurd h.once (by decide)

end KernelHttp.Tls
