/-
  Constraints of issuers (the anonymous namespace of `tls/CertificateValidator.cpp`).

  A path begins with the leaf.
-/
import KernelHttp.Tls.HostName

namespace KernelHttp.Tls

def isSelfIssued (certificate : ParsedCertificate) : Bool := certificate.subject == certificate.issuer

/-! ## Name constraints -/

/-- Equal up to case, or below the subtree. -/
def dnsNameMatchesSubtree (name subtree : Bytes) : Bool :=
  if name.length = 0 ∨ subtree.length = 0 then false
  else if subtree.head? = some dot then
    subtree.length < name.length &&
      textEqualsIgnoreCase (name.drop (name.length - subtree.length)) subtree
  else if textEqualsIgnoreCase name subtree then true
  else if name.length ≤ subtree.length + 1 ∨
      name.getD (name.length - subtree.length - 1) 0 ≠ dot then false
  else textEqualsIgnoreCase (name.drop (name.length - subtree.length)) subtree

/-- `IpAddressMatchesSubtree`: an address and a mask. -/
def ipAddressMatchesSubtree (address subtree : Bytes) : Bool :=
  if (address.length = 4 ∧ subtree.length = 8) ∨ (address.length = 16 ∧ subtree.length = 32) then
    let mask := subtree.drop address.length
    List.zipWith (· &&& ·) address mask == List.zipWith (· &&& ·) (subtree.take address.length) mask
  else false

def distinguishedNameEquals (left right : Bytes) : Bool := left == right

/-- No excluded subtree has the name; if there are permitted ones, one has it. -/
def validateAgainstSubtrees (inSubtree : Bytes → Bool) (excluded permitted : List Bytes) :
    Except NTSTATUS Unit :=
  if excluded.any inSubtree then .error statusTrustFailure
  else if permitted.length = 0 then .ok ()
  else if permitted.any inSubtree then .ok ()
  else .error statusTrustFailure

def validateDnsNameAgainstConstraints (name : Bytes) (issuer : ParsedCertificate) :
    Except NTSTATUS Unit :=
  validateAgainstSubtrees (dnsNameMatchesSubtree name) issuer.excludedDnsSubtrees
    issuer.permittedDnsSubtrees

def validateIpAddressAgainstConstraints (address : Bytes) (issuer : ParsedCertificate) :
    Except NTSTATUS Unit :=
  validateAgainstSubtrees (ipAddressMatchesSubtree address) issuer.excludedIpSubtrees
    issuer.permittedIpSubtrees

def validateDirectoryNameAgainstConstraints (subject issuer : ParsedCertificate) :
    Except NTSTATUS Unit :=
  validateAgainstSubtrees (distinguishedNameEquals subject.subject) issuer.excludedDirectoryNames
    issuer.permittedDirectoryNames

def validateNameConstraintsFromIssuer (subject issuer : ParsedCertificate) (subjectIsLeaf : Bool) :
    Except NTSTATUS Unit :=
  if ¬ issuer.hasNameConstraints then .ok ()
  else if ¬ subjectIsLeaf ∧ isSelfIssued subject then .ok ()
  else do
    validateDirectoryNameAgainstConstraints subject issuer
    subject.dnsNames.forM fun name => validateDnsNameAgainstConstraints name issuer
    match subject.dnsNames, subject.commonName with
    | [], some (c :: name) => validateDnsNameAgainstConstraints (c :: name) issuer
    | _, _ => .ok ()
    subject.ipAddresses.forM fun address => validateIpAddressAgainstConstraints address issuer

/-- Each issuer of the path constrains the names below it. -/
def validateNameConstraints (certificates : List ParsedCertificate) : Except NTSTATUS Unit :=
  if certificates.length = 0 then .error statusInvalidParameter
  else
    (List.range' 1 (certificates.length - 1)).forM fun issuerIndex =>
      (List.range issuerIndex).forM fun subjectIndex =>
        validateNameConstraintsFromIssuer (certificates.getD subjectIndex {})
          (certificates.getD issuerIndex {}) (subjectIndex == 0)

/-! ## Policies -/

def certificateHasConcretePolicy (certificate : ParsedCertificate) : Bool :=
  certificate.certificatePolicyOids.any (· != oidAnyPolicy)

def certificatePoliciesIntersect (left right : ParsedCertificate) : Bool :=
  left.certificatePolicyOids.any fun leftOid => leftOid != oidAnyPolicy &&
    right.certificatePolicyOids.any fun rightOid => rightOid != oidAnyPolicy && leftOid == rightOid

/-- The body of the loop of `ValidateCertificatePolicyTree`. -/
def validatePolicyOfIssuer (leaf issuer : ParsedCertificate) : Except NTSTATUS Unit :=
  if issuer.requireExplicitPolicy ∧ issuer.requireExplicitPolicySkipCerts = 0 ∧
      ¬ leaf.hasCertificatePolicies then .error statusTrustFailure
  else if issuer.hasInhibitAnyPolicy ∧ issuer.inhibitAnyPolicySkipCerts = 0 ∧ leaf.hasAnyPolicy ∧
      ¬ certificateHasConcretePolicy leaf then .error statusTrustFailure
  else if issuer.certificatePoliciesCritical ∧ issuer.hasCertificatePolicies ∧
      leaf.hasCertificatePolicies ∧ ¬ issuer.hasAnyPolicy ∧ ¬ leaf.hasAnyPolicy ∧
      ¬ certificatePoliciesIntersect issuer leaf then .error statusTrustFailure
  else .ok ()

/-- The leaf, against the policies of each certificate above it. -/
def validateCertificatePolicyTree (certificates : List ParsedCertificate) : Except NTSTATUS Unit :=
  match certificates with
  | [] => .error statusInvalidParameter
  | leaf :: issuers => issuers.forM (validatePolicyOfIssuer leaf)

end KernelHttp.Tls
