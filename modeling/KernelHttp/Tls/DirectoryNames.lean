/-
  Directory names as subtrees (`tls/CertificateValidator.cpp`).

  Lengths are encoded in one way only, so equal encodings are equal names (`name_eq_iff`).
-/
import KernelHttp.Tls.CertificatePath

namespace KernelHttp.Tls

open BigEndian

/-! ## Elements have one encoding -/

variable {rest rest' data x y name : Bytes} {e : DerElement} {rdns : List Bytes} {tag : UInt8}
    {n : ℕ}

theorem finishElement_eq_ok {header : Bytes}
    (h : finishElement tag header n rest = .ok (e, rest')) :
    e.tag = tag ∧ e.value.length = n ∧ e.full = header ++ e.value ∧ rest = e.value ++ rest' := by
  unfold finishElement at h
  split_ifs at h with hlen
  obtain ⟨rfl, rfl⟩ := Prod.mk.inj (Except.ok.inj h)
  refine ⟨rfl, ?_, rfl, (List.take_append_drop n rest).symm⟩
  rw [List.length_take]
  omega

/-- The octets of a length from 128 on: as few as there can be. -/
structure LongLength (octets : Bytes) (n : ℕ) : Prop where
  few : octets.length ≤ 8
  value : ofBigEndian octets = n
  long : 0x80 ≤ n
  minimal : octets.head? ≠ some 0

/-- **What `ReadElement` reads**: a header with the only encoding of the length, and the value. -/
inductive Header : UInt8 → ℕ → Bytes → Prop where
  | short {tag : UInt8} {c : UInt8} (h : c.toNat < 0x80) : Header tag c.toNat [tag, c]
  | long {tag : UInt8} {c : UInt8} {octets : Bytes} {n : ℕ} (hlength : LongLength octets n)
      (h : c.toNat = 0x80 + octets.length) : Header tag n (tag :: c :: octets)

theorem readElement_eq_ok (h : readElement data = .ok (e, rest)) :
    ∃ header, Header e.tag e.value.length header ∧ e.full = header ++ e.value ∧
      data = e.full ++ rest := by
  unfold readElement at h
  split at h
  case h_1 tag lengthByte tail =>
    split_ifs at h with hshort
    · obtain ⟨rfl, hlen, hfull, rfl⟩ := finishElement_eq_ok h
      refine ⟨[e.tag, lengthByte], hlen ▸ .short hshort, hfull, ?_⟩
      rw [hfull]
      rfl
    · dsimp only at h
      split_ifs at h with hcount hminimal
      obtain ⟨rfl, hlen, hfull, hrest⟩ := finishElement_eq_ok h
      rw [not_or, not_or, not_lt, not_lt] at hcount
      rw [not_or, not_lt] at hminimal
      obtain ⟨hzero, hfew, hroom⟩ := hcount
      obtain ⟨hhead, hlong⟩ := hminimal
      have hoctets : (tail.take (lengthByte.toNat - 0x80)).length = lengthByte.toNat - 0x80 := by
        rw [List.length_take]
        omega
      refine ⟨_, .long ⟨by omega, hlen.symm, hlen ▸ hlong, ?_⟩ (by omega), hfull, ?_⟩
      · intro hzero'
        rw [List.head?_take, if_neg hzero] at hzero'
        refine hhead ⟨?_, hzero'⟩
        by_contra hone
        -- One octet that is zero is no length from 128 on.
        obtain ⟨tail', rfl⟩ := List.head?_eq_some_iff.1 hzero'
        rw [show lengthByte.toNat - 0x80 = 1 by omega] at hlong
        simp [ofBigEndian] at hlong
      · rw [hfull, List.append_assoc, ← hrest, List.cons_append, List.cons_append,
          List.take_append_drop]
  · cases h

theorem LongLength.inj (hx : LongLength x n) (hy : LongLength y n) : x = y := by
  have hdrop {t : Bytes} (ht : LongLength t n) : t.dropWhile (· == 0) = t := by
    match t, ht with
    | [], _ => rfl
    | c :: t, ht =>
      have hc : c ≠ 0 := fun hc => ht.minimal (by rw [hc]; rfl)
      rw [List.dropWhile_cons_of_neg (by simpa using hc)]
  have hlen : x.length = y.length := by
    apply Nat.le_antisymm
    · rw [← hdrop hx, dropWhile_length_le, hx.value, ← hy.value]
      exact ofBigEndian_lt y
    · rw [← hdrop hy, dropWhile_length_le, hy.value, ← hx.value]
      exact ofBigEndian_lt x
  rw [← bigEndian_ofBigEndian x, ← bigEndian_ofBigEndian y, hlen, hx.value, hy.value]

theorem Header.inj {m : ℕ} (hx : Header tag n x) (hy : Header tag m y) (hnm : n = m) : x = y := by
  cases hx with
  | short hc =>
    cases hy with
    | short => rw [UInt8.toNat_inj.1 hnm]
    | long hlength =>
      have hlong := hlength.long
      omega
  | long hlength hc =>
    cases hy with
    | short =>
      have hlong := hlength.long
      omega
    | long hlength' hc' =>
      subst hnm
      obtain rfl := hlength.inj hlength'
      rw [UInt8.toNat_inj.1 (hc.trans hc'.symm)]

theorem readElement_inj {f : DerElement}
    (hx : readElement x = .ok (e, rest)) (hy : readElement y = .ok (f, rest')) (htag : e.tag = f.tag)
    (hvalue : e.value = f.value) : e.full = f.full := by
  obtain ⟨header, hheader, hfull, -⟩ := readElement_eq_ok hx
  obtain ⟨header', hheader', hfull', -⟩ := readElement_eq_ok hy
  rw [htag] at hheader
  rw [hfull, hfull', hheader.inj hheader' (by rw [hvalue]), hvalue]

/-! ## Names -/

/-- The relative names of a name that `ParseName` accepts, as they are encoded. -/
def rdnSequence (name : Bytes) : Option (List Bytes) :=
  match readExpected tagSequence name with
  | .ok (e, []) =>
    match parseName e {}, forElements (fun rdns set => .ok (rdns ++ [set.full])) [] e.value with
    | .ok _, .ok rdns => some rdns
    | _, _ => none
  | _ => none

theorem forElements_full {rdns' : List Bytes}
    (h : forElements (fun rdns set => .ok (rdns ++ [set.full])) rdns data = .ok rdns') :
    rdns'.flatten = rdns.flatten ++ data := by
  induction hn : data.length using Nat.strong_induction_on generalizing data rdns with
  | _ n ih =>
    subst hn
    match data with
    | [] =>
      rw [forElements] at h
      rw [Except.ok.inj h, List.append_nil]
    | c :: data =>
      rw [forElements] at h
      split at h
      case h_1 => cases h
      case h_2 e rest hread =>
        obtain ⟨-, -, -, hdata⟩ := readElement_eq_ok hread
        have hrest := ih rest.length (readElement_length hread) h rfl
        rw [hrest, hdata]
        simp

theorem rdnSequence_eq_some (h : rdnSequence name = some rdns) :
    ∃ e, readElement name = .ok (e, []) ∧ e.tag = tagSequence ∧ e.value = rdns.flatten := by
  unfold rdnSequence at h
  split at h
  case h_1 e hread =>
    split at h
    case h_1 rdns' _ hloop =>
      obtain rfl := Option.some.inj h
      obtain ⟨helement, htag⟩ := readExpected_eq_ok hread
      exact ⟨e, helement, htag, (forElements_full hloop).symm⟩
    case h_2 => cases h
  case h_2 => cases h

/-- **Names are equal exactly if their sequences are.** -/
theorem name_eq_iff {xs ys : List Bytes} (hx : rdnSequence x = some xs)
    (hy : rdnSequence y = some ys) : x = y ↔ xs = ys := by
  constructor
  · rintro rfl
    exact Option.some.inj (hx.symm.trans hy)
  · rintro rfl
    obtain ⟨e, hxread, hxtag, hxvalue⟩ := rdnSequence_eq_some hx
    obtain ⟨f, hyread, hytag, hyvalue⟩ := rdnSequence_eq_some hy
    have hfull := readElement_inj hxread hyread (hxtag.trans hytag.symm) (hxvalue.trans hyvalue.symm)
    obtain ⟨-, -, -, hxdata⟩ := readElement_eq_ok hxread
    obtain ⟨-, -, -, hydata⟩ := readElement_eq_ok hyread
    rw [hxdata, hydata, hfull]

/-! ## Subtrees -/

def InSubtree (name constraint : Bytes) : Prop :=
  ∃ xs ys, rdnSequence constraint = some xs ∧ rdnSequence name = some ys ∧ xs <+: ys

theorem inSubtree_self (h : (rdnSequence name).isSome) : InSubtree name name := by
  obtain ⟨xs, hxs⟩ := Option.isSome_iff_exists.1 h
  exact ⟨xs, xs, hxs, hxs, List.prefix_refl xs⟩

/-- **The subtree meaning**: names in an excluded subtree are rejected, and where there are
    permitted names just those in one of their subtrees, and in no excluded one, pass. -/
def SubtreeMeaning (subject issuer : ParsedCertificate) : Prop :=
  ((∃ constraint ∈ issuer.excludedDirectoryNames, InSubtree subject.subject constraint) →
    validateDirectoryNameAgainstConstraints subject issuer = .error statusTrustFailure) ∧
  (issuer.permittedDirectoryNames ≠ [] →
    (validateDirectoryNameAgainstConstraints subject issuer = .ok () ↔
      (∃ constraint ∈ issuer.permittedDirectoryNames, InSubtree subject.subject constraint) ∧
      ∀ constraint ∈ issuer.excludedDirectoryNames, ¬ InSubtree subject.subject constraint))

/-- What the source checks: whole names. -/
theorem validateDirectoryName_iff (subject issuer : ParsedCertificate) :
    validateDirectoryNameAgainstConstraints subject issuer = .ok () ↔
      subject.subject ∉ issuer.excludedDirectoryNames ∧
        (issuer.permittedDirectoryNames = [] ∨ subject.subject ∈ issuer.permittedDirectoryNames) := by
  have hany (names : List Bytes) : names.any (distinguishedNameEquals subject.subject) = true ↔
      subject.subject ∈ names := by
    simp [distinguishedNameEquals]
  rw [validateDirectoryNameAgainstConstraints, validateAgainstSubtrees]
  simp only [hany, List.length_eq_zero_iff]
  split_ifs with hexcluded hnone hpermitted
  · simp [hexcluded]
  · simp [hexcluded, hnone]
  · simp [hexcluded, hpermitted]
  · simp [hnone, hpermitted]

theorem validateDirectoryName_error (subject issuer : ParsedCertificate) :
    validateDirectoryNameAgainstConstraints subject issuer = .error statusTrustFailure ↔
      validateDirectoryNameAgainstConstraints subject issuer ≠ .ok () := by
  rw [validateDirectoryNameAgainstConstraints, validateAgainstSubtrees]
  split_ifs <;> simp

def Listed (name : Bytes) (constraints : List Bytes) : Prop :=
  ∃ constraint ∈ constraints, rdnSequence constraint = rdnSequence name

theorem listed_iff (hname : (rdnSequence name).isSome) (constraints : List Bytes) :
    Listed name constraints ↔ name ∈ constraints := by
  obtain ⟨xs, hxs⟩ := Option.isSome_iff_exists.1 hname
  constructor
  · rintro ⟨constraint, hmem, hsame⟩
    rwa [(name_eq_iff hxs (hsame.trans hxs)).2 rfl]
  · intro hmem
    exact ⟨name, hmem, rfl⟩

/-- **Directory names have subtree meaning** exactly where no longer name matters: a name below
    an excluded one is excluded itself, or there are permitted names and it is none of them;
    and a name below a permitted one, and below no excluded one, is a permitted one itself. -/
theorem directoryNames_subtree_iff {subject issuer : ParsedCertificate}
    (hsubject : (rdnSequence subject.subject).isSome) :
    SubtreeMeaning subject issuer ↔
      ((∃ constraint ∈ issuer.excludedDirectoryNames, InSubtree subject.subject constraint) →
        Listed subject.subject issuer.excludedDirectoryNames ∨
          (issuer.permittedDirectoryNames ≠ [] ∧
            ¬ Listed subject.subject issuer.permittedDirectoryNames)) ∧
      ((∃ constraint ∈ issuer.permittedDirectoryNames, InSubtree subject.subject constraint) →
        (∀ constraint ∈ issuer.excludedDirectoryNames, ¬ InSubtree subject.subject constraint) →
        Listed subject.subject issuer.permittedDirectoryNames) := by
  have hself := inSubtree_self hsubject
  rw [SubtreeMeaning, validateDirectoryName_error, ne_eq, validateDirectoryName_iff, not_and_or,
    not_not, not_or, listed_iff hsubject, listed_iff hsubject]
  constructor
  · rintro ⟨hexcluded, hpermitted⟩
    refine ⟨hexcluded, fun hbelow hnot => ?_⟩
    have hne : issuer.permittedDirectoryNames ≠ [] := by
      rintro hnil
      obtain ⟨constraint, hmem, -⟩ := hbelow
      rw [hnil] at hmem
      cases hmem
    rcases ((hpermitted hne).2 ⟨hbelow, hnot⟩).2 with hnil | hin
    · exact absurd hnil hne
    · exact hin
  · rintro ⟨hexcluded, hpermitted⟩
    refine ⟨hexcluded, fun hne => ?_⟩
    constructor
    · rintro ⟨hout, hnil | hin⟩
      · exact absurd hnil hne
      · refine ⟨⟨_, hin, hself⟩, fun constraint hmem hbelow => ?_⟩
        rcases hexcluded ⟨constraint, hmem, hbelow⟩ with h | ⟨-, h⟩
        · exact hout h
        · exact h hin
    · rintro ⟨hbelow, hnot⟩
      exact ⟨fun hmem => hnot _ hmem hself, Or.inr (hpermitted hbelow hnot)⟩

/-! ## Two names -/

/-- The relative name `O=A`. -/
def organizationA : Bytes :=
  [0x31, 0x0a, 0x30, 0x08, 0x06, 0x03, 0x55, 0x04, 0x0a, 0x0c, 0x01, 0x41]

/-- The relative name `CN=b`. -/
def commonNameB : Bytes :=
  [0x31, 0x0a, 0x30, 0x08, 0x06, 0x03, 0x55, 0x04, 0x03, 0x0c, 0x01, 0x62]

/-- The name `O=A`. -/
def shortName : Bytes := 0x30 :: 0x0c :: organizationA

/-- The name `O=A, CN=b`. -/
def longName : Bytes := 0x30 :: 0x18 :: (organizationA ++ commonNameB)

theorem rdnSequence_shortName : rdnSequence shortName = some [organizationA] := by decide +kernel

theorem rdnSequence_longName : rdnSequence longName = some [organizationA, commonNameB] := by
  decide +kernel

/-- Where the constraint is the name itself, the check has subtree meaning. -/
theorem directoryNames_subtree_short :
    SubtreeMeaning { subject := shortName } { excludedDirectoryNames := [shortName] } := by
  refine (directoryNames_subtree_iff ?_).2 ⟨fun _ => Or.inl ?_, ?_⟩
  · rw [rdnSequence_shortName]
    rfl
  · exact ⟨shortName, List.mem_singleton_self _, rfl⟩
  · rintro ⟨constraint, hmem, -⟩
    cases hmem

/-- **The subtree of `O=A` is excluded, and `O=A, CN=b` passes.** -/
theorem directoryNames_not_subtree :
    (rdnSequence longName).isSome ∧ (rdnSequence shortName).isSome ∧
      InSubtree longName shortName ∧
      validateDirectoryNameAgainstConstraints { subject := longName }
        { excludedDirectoryNames := [shortName] } = .ok () ∧
      ¬ SubtreeMeaning { subject := longName } { excludedDirectoryNames := [shortName] } := by
  have hbelow : InSubtree longName shortName :=
    ⟨_, _, rdnSequence_shortName, rdnSequence_longName, List.prefix_append _ _⟩
  have hpass : validateDirectoryNameAgainstConstraints { subject := longName }
      { excludedDirectoryNames := [shortName] } = .ok () := by
    rw [validateDirectoryName_iff]
    exact ⟨by decide, Or.inl rfl⟩
  refine ⟨?_, ?_, hbelow, hpass, ?_⟩
  · rw [rdnSequence_longName]
    rfl
  · rw [rdnSequence_shortName]
    rfl
  · rintro ⟨hexcluded, -⟩
    rw [hexcluded ⟨shortName, List.mem_singleton_self _, hbelow⟩] at hpass
    cases hpass

end KernelHttp.Tls
