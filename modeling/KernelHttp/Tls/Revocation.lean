/-
  The entries that decide on revocation (`ValidateCertificateRevocation`,
  `CertificateStore::FindRevocationEntry`).

  CRL entries are only looked at where there is no OCSP entry.
-/
import KernelHttp.Tls.ChainValidation

namespace KernelHttp.Tls

/-! ## The entries of a certificate -/

namespace CertificateRevocationEntry

/-- The entry is one of the certificate, which has an issuer and a serial number. -/
structure Concerns (entry : CertificateRevocationEntry) (certificate : ParsedCertificate) :
    Prop where
  issuerName : entry.issuerName = certificate.issuer
  serialNumber : entry.serialNumber = certificate.serialNumber
  issuerName_ne : entry.issuerName ≠ []
  serialNumber_ne : entry.serialNumber ≠ []

/-- The entry is in force. -/
structure ValidAt (entry : CertificateRevocationEntry) (now : ℤ) : Prop where
  thisUpdate : entry.thisUpdate ≠ 0 → entry.thisUpdate ≤ now
  nextUpdate : entry.nextUpdate ≠ 0 → now ≤ entry.nextUpdate

end CertificateRevocationEntry

/-- The entries that `FindRevocationEntry` looks for. -/
def CertificateStore.entriesOf (store : CertificateStore) (issuerName serialNumber : Bytes)
    (source : CertificateRevocationSource) : List CertificateRevocationEntry :=
  store.revocationEntries.filter fun entry => entry.source == source &&
    entry.issuerName == issuerName && entry.serialNumber == serialNumber

/-- The entry decides on the certificate: it is the first one of its source, and is a CRL entry
only where there is no OCSP entry. -/
structure CertificateStore.Decides (store : CertificateStore) (certificate : ParsedCertificate)
    (entry : CertificateRevocationEntry) : Prop where
  concerns : entry.Concerns certificate
  first : ∃ earlier later, store.revocationEntries = earlier ++ entry :: later ∧
    ∀ other ∈ earlier, other.Concerns certificate → other.source ≠ entry.source
  ocspFirst : entry.source = .crl →
    ∀ other ∈ store.revocationEntries, other.Concerns certificate → other.source = .crl

variable {store : CertificateStore} {certificate : ParsedCertificate} {now : ℤ}
  {entry : CertificateRevocationEntry} {source : CertificateRevocationSource}

theorem matches_iff : (entry.source == source && entry.issuerName == certificate.issuer &&
      entry.serialNumber == certificate.serialNumber) = true ↔
    entry.source = source ∧ entry.issuerName = certificate.issuer ∧
      entry.serialNumber = certificate.serialNumber := by
  simp only [Bool.and_eq_true, beq_iff_eq, and_assoc]

theorem findRevocationEntry_eq_head? (issuerName serialNumber : Bytes) :
    store.findRevocationEntry issuerName serialNumber source =
      if issuerName.length = 0 ∨ serialNumber.length = 0 then none
      else (store.entriesOf issuerName serialNumber source).head? := by
  rw [CertificateStore.findRevocationEntry, CertificateStore.entriesOf, List.head?_filter]

/-- The entry that is looked up. -/
theorem findRevocationEntry_eq_some
    (h : store.findRevocationEntry certificate.issuer certificate.serialNumber source =
      some entry) :
    entry.source = source ∧ entry.Concerns certificate ∧ ∃ earlier later,
      store.revocationEntries = earlier ++ entry :: later ∧
        ∀ other ∈ earlier, other.Concerns certificate → other.source ≠ entry.source := by
  rw [CertificateStore.findRevocationEntry] at h
  split_ifs at h with hnames
  rw [not_or, List.length_eq_zero_iff, List.length_eq_zero_iff] at hnames
  obtain ⟨hmatches, earlier, later, heq, hearlier⟩ := List.find?_eq_some_iff_append.1 h
  obtain ⟨hsource, hissuer, hserial⟩ := matches_iff.1 hmatches
  refine ⟨hsource, ⟨hissuer, hserial, ?_, ?_⟩, earlier, later, heq, ?_⟩
  · rw [hissuer]
    exact hnames.1
  · rw [hserial]
    exact hnames.2
  · intro other hother hconcerns hsame
    have hnot := hearlier other hother
    rw [Bool.not_eq_true', matches_iff.2
      ⟨hsame.trans hsource, hconcerns.issuerName, hconcerns.serialNumber⟩] at hnot
    cases hnot

theorem findRevocationEntry_eq_none
    (h : store.findRevocationEntry certificate.issuer certificate.serialNumber source = none) :
    ∀ other ∈ store.revocationEntries, other.Concerns certificate → other.source ≠ source := by
  intro other hother hconcerns hsource
  rw [CertificateStore.findRevocationEntry] at h
  split_ifs at h with hnames
  · rw [List.length_eq_zero_iff, List.length_eq_zero_iff] at hnames
    rcases hnames with hnames | hnames
    · exact hconcerns.issuerName_ne (hconcerns.issuerName.trans hnames)
    · exact hconcerns.serialNumber_ne (hconcerns.serialNumber.trans hnames)
  · exact List.find?_eq_none.1 h other hother (matches_iff.2
      ⟨hsource, hconcerns.issuerName, hconcerns.serialNumber⟩)

/-- The entry that a turn of the loop looks at. -/
def CertificateStore.decidingEntry (store : CertificateStore) (certificate : ParsedCertificate) :
    Option CertificateRevocationEntry :=
  (store.findRevocationEntry certificate.issuer certificate.serialNumber .ocsp).or
    (store.findRevocationEntry certificate.issuer certificate.serialNumber .crl)

theorem decidingEntry_decides (h : store.decidingEntry certificate = some entry) :
    store.Decides certificate entry := by
  rcases Option.or_eq_some_iff.1 h with hocsp | ⟨hnone, hcrl⟩
  · obtain ⟨hsource, hconcerns, hfirst⟩ := findRevocationEntry_eq_some hocsp
    exact ⟨hconcerns, hfirst, fun hcrl => nomatch hsource.symm.trans hcrl⟩
  · obtain ⟨-, hconcerns, hfirst⟩ := findRevocationEntry_eq_some hcrl
    refine ⟨hconcerns, hfirst, fun _ other hother hother' => ?_⟩
    cases hsource : other.source with
    | crl => rfl
    | ocsp => exact absurd hsource (findRevocationEntry_eq_none hnone other hother hother')

theorem CertificateStore.Decides.source_eq {entry' : CertificateRevocationEntry}
    (h : store.Decides certificate entry) (h' : store.Decides certificate entry') :
    entry.source = entry'.source := by
  obtain ⟨earlier, later, heq, -⟩ := h.first
  obtain ⟨earlier', later', heq', -⟩ := h'.first
  have hmem : entry ∈ store.revocationEntries := by
    rw [heq]
    exact List.mem_append_right _ List.mem_cons_self
  have hmem' : entry' ∈ store.revocationEntries := by
    rw [heq']
    exact List.mem_append_right _ List.mem_cons_self
  cases hsource : entry.source with
  | crl => exact (h.ocspFirst hsource entry' hmem' h'.concerns).symm
  | ocsp =>
    cases hsource' : entry'.source with
    | ocsp => rfl
    | crl => cases hsource.symm.trans (h'.ocspFirst hsource' entry hmem h.concerns)

/-- **The entry that is looked at is the one that decides.** -/
theorem decidingEntry_eq_some :
    store.decidingEntry certificate = some entry ↔ store.Decides certificate entry := by
  refine ⟨decidingEntry_decides, fun h => ?_⟩
  have hnamed : certificate.issuer ≠ [] ∧ certificate.serialNumber ≠ [] :=
    ⟨h.concerns.issuerName ▸ h.concerns.issuerName_ne,
      h.concerns.serialNumber ▸ h.concerns.serialNumber_ne⟩
  have hfound : store.findRevocationEntry certificate.issuer certificate.serialNumber
      entry.source = some entry := by
    obtain ⟨earlier, later, heq, hearlier⟩ := h.first
    rw [CertificateStore.findRevocationEntry, if_neg (by
      rw [not_or, List.length_eq_zero_iff, List.length_eq_zero_iff]
      exact hnamed)]
    refine List.find?_eq_some_iff_append.2 ⟨matches_iff.2
      ⟨rfl, h.concerns.issuerName, h.concerns.serialNumber⟩, earlier, later, heq, ?_⟩
    intro other hother
    rw [Bool.not_eq_true', Bool.eq_false_iff]
    intro hmatches
    obtain ⟨hsource, hissuer, hserial⟩ := matches_iff.1 hmatches
    refine hearlier other hother ⟨hissuer, hserial, ?_, ?_⟩ hsource
    · rw [hissuer]
      exact hnamed.1
    · rw [hserial]
      exact hnamed.2
  rw [CertificateStore.decidingEntry]
  cases hocsp : store.findRevocationEntry certificate.issuer certificate.serialNumber .ocsp with
  | none =>
    cases hsource : entry.source with
    | ocsp =>
      rw [hsource] at hfound
      cases hocsp.symm.trans hfound
    | crl =>
      rw [hsource] at hfound
      exact hfound
  | some other =>
    have hother : store.decidingEntry certificate = some other :=
      Option.or_eq_some_iff.2 (.inl hocsp)
    have hsource := h.source_eq (decidingEntry_decides hother)
    rw [hsource, (findRevocationEntry_eq_some hocsp).1] at hfound
    exact hocsp.symm.trans hfound

/-! ## A path -/

/-- The entry that decides on the certificate is in force, and says that it is good. -/
def CertificateStore.Accepts (store : CertificateStore) (now : ℤ)
    (certificate : ParsedCertificate) : Prop :=
  ∃ entry, store.Decides certificate entry ∧ entry.ValidAt now ∧ entry.status = .good

/-- Another entry stands behind the one that decides: it is a CRL entry behind an OCSP entry, or
comes later in the store. -/
def CertificateStore.Behind (store : CertificateStore)
    (entry other : CertificateRevocationEntry) : Prop :=
  entry.source = .ocsp ∧ other.source = .crl ∨ entry.source = other.source ∧
    ∃ earlier later, store.revocationEntries = earlier ++ entry :: later ∧ other ∈ later

theorem validateRevocationEntry_eq_ok :
    validateRevocationEntry entry now = .ok () ↔ entry.ValidAt now ∧ entry.status = .good := by
  rw [validateRevocationEntry]
  split_ifs with htime hgood
  · refine ⟨nofun, ?_⟩
    rintro ⟨⟨hthis, hnext⟩, -⟩
    rcases htime with ⟨hne, hlt⟩ | ⟨hne, hgt⟩
    · exact absurd (hthis hne) (not_le.2 hlt)
    · exact absurd (hnext hne) (not_le.2 hgt)
  · rw [not_or, not_and, not_and, not_lt, not_lt] at htime
    exact ⟨fun _ => ⟨⟨htime.1, htime.2⟩, hgood⟩, fun _ => rfl⟩
  · exact ⟨nofun, fun h => absurd h.2 hgood⟩

theorem validateRevocationOf_eq (store : CertificateStore) (now : ℤ)
    (certificate : ParsedCertificate) :
    validateRevocationOf store .onlineRequired now certificate =
      match store.decidingEntry certificate with
      | some entry => validateRevocationEntry entry now
      | none => .error statusTrustFailure := by
  rw [validateRevocationOf, CertificateStore.decidingEntry]
  cases store.findRevocationEntry certificate.issuer certificate.serialNumber .ocsp with
  | some entry => rfl
  | none => rfl

theorem validateRevocationOf_eq_ok :
    validateRevocationOf store .onlineRequired now certificate = .ok () ↔
      store.Accepts now certificate := by
  rw [validateRevocationOf_eq]
  constructor
  · intro h
    cases hentry : store.decidingEntry certificate with
    | none =>
      rw [hentry] at h
      cases h
    | some entry =>
      rw [hentry] at h
      exact ⟨entry, decidingEntry_eq_some.1 hentry, validateRevocationEntry_eq_ok.1 h⟩
  · rintro ⟨entry, hdecides, haccepts⟩
    rw [decidingEntry_eq_some.2 hdecides]
    exact validateRevocationEntry_eq_ok.2 haccepts

/-- Whether `OnlineRequired` is in effect. -/
def CertificateValidationOptions.OnlineRequired (options : CertificateValidationOptions) : Prop :=
  options.revocationMode = .onlineRequired ∨
    options.revocationMode = .off ∧ options.requireRevocationCheck = true

variable {path : List ParsedCertificate}

theorem take_lastChecked (hpath : path.length ≠ 0) (trustedAnchorIndex : ℕ) :
    path.take ((if trustedAnchorIndex < path.length then trustedAnchorIndex
      else path.length - 1) + 1) = path.take (trustedAnchorIndex + 1) := by
  split_ifs with hlt
  · rfl
  · rw [Nat.sub_add_cancel (Nat.pos_of_ne_zero hpath), List.take_length,
      List.take_of_length_le (by omega)]

theorem validateCertificateRevocation_eq
    {options : CertificateValidationOptions} (hmode : options.OnlineRequired)
    (hstore : options.store = some store) (trustedAnchorIndex : ℕ) :
    validateCertificateRevocation path options trustedAnchorIndex now =
      if path.length = 0 then .error statusTrustFailure
      else (path.take (trustedAnchorIndex + 1)).forM
        (validateRevocationOf store .onlineRequired now) := by
  have hmode' : (if options.revocationMode = .off ∧ options.requireRevocationCheck = true then
      CertificateRevocationMode.onlineRequired else options.revocationMode) = .onlineRequired := by
    rcases hmode with h | ⟨h, hrequire⟩
    · rw [if_neg (by simp [h]), h]
    · rw [if_pos ⟨h, hrequire⟩]
  rw [validateCertificateRevocation, hmode', hstore, if_neg nofun]
  dsimp only
  by_cases hpath : path.length = 0
  · rw [if_pos hpath, if_pos hpath]
  · rw [if_neg hpath, if_neg hpath, take_lastChecked hpath]

/-- An entry that revokes the certificate stands behind the one that accepts it. -/
theorem CertificateStore.Accepts.behind (h : store.Accepts now certificate)
    {revoked : CertificateRevocationEntry} (hmem : revoked ∈ store.revocationEntries)
    (hconcerns : revoked.Concerns certificate) (hrevoked : revoked.status = .revoked) :
    ∃ entry, store.Decides certificate entry ∧ store.Behind entry revoked := by
  obtain ⟨entry, hdecides, -, hgood⟩ := h
  refine ⟨entry, hdecides, ?_⟩
  by_cases hsource : entry.source = revoked.source
  · obtain ⟨earlier, later, heq, hfirst⟩ := hdecides.first
    refine .inr ⟨hsource, earlier, later, heq, ?_⟩
    rw [heq] at hmem
    rcases List.mem_append.1 hmem with hearlier | hmem
    · exact absurd hsource.symm (hfirst revoked hearlier hconcerns)
    · rcases List.mem_cons.1 hmem with rfl | hlater
      · cases hgood.symm.trans hrevoked
      · exact hlater
  · left
    cases hentry : entry.source with
    | crl =>
      exact absurd (hentry.trans (hdecides.ocspFirst hentry revoked hmem hconcerns).symm) hsource
    | ocsp =>
      cases hother : revoked.source with
      | crl => exact ⟨rfl, rfl⟩
      | ocsp => exact absurd (hentry.trans hother.symm) hsource

theorem decidingEntry_congr {entries : List CertificateRevocationEntry}
    (h : ∀ issuerName serialNumber source,
      { store with revocationEntries := entries }.entriesOf issuerName serialNumber source =
        store.entriesOf issuerName serialNumber source) (certificate : ParsedCertificate) :
    { store with revocationEntries := entries }.decidingEntry certificate =
      store.decidingEntry certificate := by
  simp only [CertificateStore.decidingEntry, findRevocationEntry_eq_head?, h]

/-- **With `OnlineRequired`, a path is accepted exactly when the entry that decides on each of its
certificates is in force and says that it is good.**  An entry that is in force and says that one
is revoked stands behind that entry then, and the result does not depend on the order of entries
that differ in the certificate or the source. -/
theorem validateCertificateRevocation_decided (path : List ParsedCertificate)
    (options : CertificateValidationOptions) (store : CertificateStore) (trustedAnchorIndex : ℕ)
    (now : ℤ) (hmode : options.OnlineRequired) (hstore : options.store = some store) :
    (validateCertificateRevocation path options trustedAnchorIndex now = .ok () ↔
      path ≠ [] ∧ ∀ certificate ∈ path.take (trustedAnchorIndex + 1),
        store.Accepts now certificate) ∧
    (validateCertificateRevocation path options trustedAnchorIndex now = .ok () →
      ∀ certificate ∈ path.take (trustedAnchorIndex + 1), ∀ revoked ∈ store.revocationEntries,
        revoked.Concerns certificate → revoked.ValidAt now → revoked.status = .revoked →
          ∃ entry, store.Decides certificate entry ∧ store.Behind entry revoked) ∧
    ∀ entries : List CertificateRevocationEntry, (∀ issuerName serialNumber source,
      { store with revocationEntries := entries }.entriesOf issuerName serialNumber source =
        store.entriesOf issuerName serialNumber source) →
      validateCertificateRevocation path
        { options with store := some { store with revocationEntries := entries } }
        trustedAnchorIndex now =
          validateCertificateRevocation path options trustedAnchorIndex now := by
  have hok : validateCertificateRevocation path options trustedAnchorIndex now = .ok () ↔
      path ≠ [] ∧ ∀ certificate ∈ path.take (trustedAnchorIndex + 1),
        store.Accepts now certificate := by
    rw [validateCertificateRevocation_eq hmode hstore]
    split_ifs with hpath
    · exact ⟨nofun, fun h => absurd (List.length_eq_zero_iff.1 hpath) h.1⟩
    · rw [Incremental.forM_eq_ok, and_iff_right (mt List.length_eq_zero_iff.2 hpath)]
      exact forall₂_congr fun _ _ => validateRevocationOf_eq_ok
  refine ⟨hok, ?_, ?_⟩
  · intro h certificate hmem revoked hrevoked hconcerns _ hstatus
    exact ((hok.1 h).2 certificate hmem).behind hrevoked hconcerns hstatus
  · intro entries hsame
    have hturn : validateRevocationOf { store with revocationEntries := entries }
        .onlineRequired now = validateRevocationOf store .onlineRequired now := by
      funext certificate
      rw [validateRevocationOf_eq, validateRevocationOf_eq, decidingEntry_congr hsame]
    have hmode' : CertificateValidationOptions.OnlineRequired
        { options with store := some { store with revocationEntries := entries } } := hmode
    rw [validateCertificateRevocation_eq hmode hstore, validateCertificateRevocation_eq hmode' rfl,
      hturn]

/-! ### Two entries for one certificate -/

def singleCertificate : ParsedCertificate := { issuer := [0x30, 0x00], serialNumber := [2] }

def plainEntry (source : CertificateRevocationSource) (status : CertificateRevocationStatus) :
    CertificateRevocationEntry where
  issuerName := singleCertificate.issuer
  serialNumber := singleCertificate.serialNumber
  source := source
  status := status
  thisUpdate := 0
  nextUpdate := 0

def singleOptions (entries : List CertificateRevocationEntry) : CertificateValidationOptions where
  hostName := []
  store := some { revocationEntries := entries }
  revocationMode := .onlineRequired

theorem validateCertificateRevocation_decided_plain :
    validateCertificateRevocation [singleCertificate] (singleOptions [plainEntry .ocsp .good]) 0 0 =
      .ok () ↔ [singleCertificate] ≠ [] ∧ ∀ certificate ∈ [singleCertificate],
        CertificateStore.Accepts { revocationEntries := [plainEntry .ocsp .good] } 0 certificate :=
  (validateCertificateRevocation_decided [singleCertificate] (singleOptions [plainEntry .ocsp .good])
    { revocationEntries := [plainEntry .ocsp .good] } 0 0 (.inl rfl) rfl).1

/-- An entry that revokes the certificate is not looked at behind a good one of the same source,
nor behind an OCSP entry if it is a CRL entry; in front of it, it is. -/
theorem plainEntry_overridden :
    (¬ ∀ (path : List ParsedCertificate) (options : CertificateValidationOptions)
      (store : CertificateStore) (trustedAnchorIndex : ℕ) (now : ℤ),
      options.revocationMode = .onlineRequired → options.store = some store →
      validateCertificateRevocation path options trustedAnchorIndex now = .ok () →
        ∀ certificate ∈ path.take (trustedAnchorIndex + 1),
          ∀ entry ∈ store.revocationEntries, entry.Concerns certificate → entry.ValidAt now →
            entry.status ≠ .revoked) ∧
    validateCertificateRevocation [singleCertificate]
      (singleOptions [plainEntry .ocsp .good, plainEntry .crl .revoked]) 0 0 = .ok () ∧
    validateCertificateRevocation [singleCertificate]
      (singleOptions [plainEntry .ocsp .good, plainEntry .ocsp .revoked]) 0 0 = .ok () ∧
    validateCertificateRevocation [singleCertificate]
      (singleOptions [plainEntry .ocsp .revoked, plainEntry .ocsp .good]) 0 0 =
        .error statusTrustFailure := by
  refine ⟨fun h => ?_, by rfl, by rfl, by rfl⟩
  have hentry := h [singleCertificate]
    (singleOptions [plainEntry .ocsp .good, plainEntry .crl .revoked]) _ 0 0 rfl rfl rfl
    singleCertificate (List.mem_singleton_self _) (plainEntry .crl .revoked)
  exact hentry (by simp) ⟨rfl, rfl, nofun, nofun⟩ ⟨fun h => absurd rfl h, fun h => absurd rfl h⟩ rfl

end KernelHttp.Tls
