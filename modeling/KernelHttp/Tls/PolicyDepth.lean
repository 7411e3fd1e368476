/-
  The depth of policy constraints (`tls/CertificateValidator.cpp`).

  The source reads a constraint only where its number of certificates to skip is zero.
-/
import KernelHttp.Tls.CertificatePath

namespace KernelHttp.Tls

open Incremental

/-- The certificates that are not self-issued between the leaf and the issuer at a place; the
    leaf is not in the list. -/
def certificatesBetween (issuers : List ParsedCertificate) (place : ℕ) : ℕ :=
  (issuers.take place).countP fun certificate => !isSelfIssued certificate

/-- The leaf relies on `anyPolicy` alone. -/
def OnlyAnyPolicy (leaf : ParsedCertificate) : Prop :=
  leaf.hasAnyPolicy = true ∧ certificateHasConcretePolicy leaf = false

/-- An issuer states a constraint with a number that the leaf does not meet, and the number
    has a property. -/
def States (leaf issuer : ParsedCertificate) (P : ℕ → Prop) : Prop :=
  (issuer.requireExplicitPolicy = true ∧ leaf.hasCertificatePolicies = false ∧
    P issuer.requireExplicitPolicySkipCerts) ∨
  (issuer.hasInhibitAnyPolicy = true ∧ OnlyAnyPolicy leaf ∧ P issuer.inhibitAnyPolicySkipCerts)

/-- **A constraint that the leaf does not meet is in force**: its number is reached. -/
def InForce (leaf : ParsedCertificate) (issuers : List ParsedCertificate) : Prop :=
  ∃ place issuer, issuers[place]? = some issuer ∧
    States leaf issuer fun n => n ≤ certificatesBetween issuers place

/-- A constraint that the leaf does not meet has the number zero. -/
def Immediate (leaf : ParsedCertificate) (issuers : List ParsedCertificate) : Prop :=
  ∃ issuer ∈ issuers, States leaf issuer (· = 0)

/-- **Constraints take effect at their depth**: a path with one in force is rejected. -/
def DepthRespected (leaf : ParsedCertificate) (issuers : List ParsedCertificate) : Prop :=
  InForce leaf issuers → validateCertificatePolicyTree (leaf :: issuers) ≠ .ok ()

variable {leaf : ParsedCertificate} {issuers : List ParsedCertificate}

theorem validatePolicyOfIssuer_iff {issuer issuer' : ParsedCertificate} {P : ℕ → Prop}
    (hstates : States leaf issuer' P) :
    validatePolicyOfIssuer leaf issuer = .ok () ↔ ¬ States leaf issuer (· = 0) := by
  have hnone : ¬ (leaf.hasCertificatePolicies = true ∧ ¬ leaf.hasAnyPolicy = true) := by
    rintro ⟨hhas, hany⟩
    rcases hstates with ⟨-, hnot, -⟩ | ⟨-, ⟨hany', -⟩, -⟩
    · rw [hhas] at hnot
      cases hnot
    · exact hany hany'
  rw [validatePolicyOfIssuer]
  split_ifs with hexplicit hinhibit hcritical
  · refine iff_of_false nofun (not_not.2 (Or.inl ⟨hexplicit.1, ?_, hexplicit.2.1⟩))
    simpa using hexplicit.2.2
  · refine iff_of_false nofun (not_not.2 (Or.inr ⟨hinhibit.1, ⟨hinhibit.2.2.1, ?_⟩, hinhibit.2.1⟩))
    simpa using hinhibit.2.2.2
  · exact absurd ⟨hcritical.2.2.1, hcritical.2.2.2.2.1⟩ hnone
  · refine iff_of_true rfl ?_
    rintro (⟨hrequire, hnot, hzero⟩ | ⟨hhas, ⟨hany, hconcrete⟩, hzero⟩)
    · exact hexplicit ⟨hrequire, hzero, by simp [hnot]⟩
    · exact hinhibit ⟨hhas, hzero, hany, by simp [hconcrete]⟩

/-- **What the source does at any depth**: with a constraint in force, the path is rejected
    exactly if one has the number zero. -/
theorem validateCertificatePolicyTree_iff (hforce : InForce leaf issuers) :
    validateCertificatePolicyTree (leaf :: issuers) ≠ .ok () ↔ Immediate leaf issuers := by
  obtain ⟨place, issuer', hplace, hstates⟩ := hforce
  rw [validateCertificatePolicyTree, ne_eq, forM_eq_ok, Immediate]
  push Not
  constructor
  · rintro ⟨issuer, hmem, hcheck⟩
    refine ⟨issuer, hmem, ?_⟩
    rw [ne_eq, validatePolicyOfIssuer_iff hstates, not_not] at hcheck
    exact hcheck
  · rintro ⟨issuer, hmem, hzero⟩
    refine ⟨issuer, hmem, ?_⟩
    rw [ne_eq, validatePolicyOfIssuer_iff hstates, not_not]
    exact hzero

/-- **Policy constraints take effect at their depth** exactly where, besides one that is in
    force, there is one with the number zero. -/
theorem policyConstraints_depth_iff (leaf : ParsedCertificate) (issuers : List ParsedCertificate) :
    DepthRespected leaf issuers ↔ (InForce leaf issuers → Immediate leaf issuers) := by
  constructor
  · intro hrespected hforce
    exact (validateCertificatePolicyTree_iff hforce).1 (hrespected hforce)
  · intro himmediate hforce
    exact (validateCertificatePolicyTree_iff hforce).2 (himmediate hforce)

/-! ## A path of three certificates -/

def intermediateIssuer : ParsedCertificate := { subject := [1], issuer := [2], isCa := true }

def requiringIssuer : ParsedCertificate :=
  { subject := [2]
    issuer := [2]
    isCa := true
    hasPolicyConstraints := true
    requireExplicitPolicy := true
    requireExplicitPolicySkipCerts := 1 }

/-- **A constraint with one is in force behind one certificate**, and the leaf without policies
    passes. -/
theorem policyConstraints_not_depth :
    InForce { subject := [0], issuer := [1] } [intermediateIssuer, requiringIssuer] ∧
      validateCertificatePolicyTree
        [{ subject := [0], issuer := [1] }, intermediateIssuer, requiringIssuer] = .ok () ∧
      ¬ DepthRespected { subject := [0], issuer := [1] } [intermediateIssuer, requiringIssuer] := by
  have hforce : InForce { subject := [0], issuer := [1] } [intermediateIssuer, requiringIssuer] :=
    ⟨1, requiringIssuer, rfl, Or.inl ⟨rfl, rfl, by decide⟩⟩
  have hpass : validateCertificatePolicyTree
      [{ subject := [0], issuer := [1] }, intermediateIssuer, requiringIssuer] = .ok () := rfl
  exact ⟨hforce, hpass, fun hrespected => hrespected hforce hpass⟩

end KernelHttp.Tls
