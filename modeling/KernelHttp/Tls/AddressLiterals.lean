/-
  The address literals of `ParseIpLiteral`.

  `Ipv4Text` and `Ipv6Text` say what the text of an address is (RFC 4291, section 2.2).
-/
import KernelHttp.Tls.HostName

namespace KernelHttp.Tls

/-! ## Texts of addresses -/

def decimalValue (digits : Bytes) : ℕ :=
  digits.foldl (fun value c => value * 10 + (c.toNat - 48)) 0

def hexValue (digits : Bytes) : ℕ :=
  digits.foldl (fun value c => value * 16 + (hexDigit c).getD 0) 0

/-- A number of an IPv4 address. -/
structure DecimalOctet (digits : Bytes) (octet : UInt8) : Prop where
  ne : digits ≠ []
  decimal : ∀ c ∈ digits, isDecimalDigit c = true
  value : decimalValue digits = octet.toNat

/-- A group of an IPv6 address. -/
structure HexGroup (digits : Bytes) (group : ℕ) : Prop where
  length : 1 ≤ digits.length ∧ digits.length ≤ 4
  hexadecimal : ∀ c ∈ digits, (hexDigit c).isSome = true
  value : hexValue digits = group

/-- A text in dotted-decimal form. -/
def Ipv4Text (t address : Bytes) : Prop :=
  ∃ parts : List Bytes, parts.length = 4 ∧ t = [dot].intercalate parts ∧
    List.Forall₂ DecimalOctet parts address

def groupOctets (groups : List ℕ) : Bytes :=
  groups.flatMap fun g => [UInt8.ofNat (g / 256), UInt8.ofNat g]

/-- The text of an IPv6 address: eight groups, or fewer with `::` in one place. -/
inductive Ipv6Text (t address : Bytes) : Prop
  | full (parts : List Bytes) (groups : List ℕ) (hlength : parts.length = 8)
      (ht : t = [colon].intercalate parts) (hgroups : List.Forall₂ HexGroup parts groups)
      (haddress : address = groupOctets groups) : Ipv6Text t address
  | compressed (left right : List Bytes) (leftGroups rightGroups : List ℕ)
      (hlength : left.length + right.length ≤ 7)
      (ht : t = [colon].intercalate left ++ [colon, colon] ++ [colon].intercalate right)
      (hleft : List.Forall₂ HexGroup left leftGroups)
      (hright : List.Forall₂ HexGroup right rightGroups)
      (haddress : address = groupOctets
        (leftGroups ++ List.replicate (8 - (left.length + right.length)) 0 ++ rightGroups)) :
      Ipv6Text t address

/-- An address literal: the text of an address, one of IPv6 perhaps in brackets. -/
def AddressText (host address : Bytes) : Prop :=
  Ipv4Text host address ∨ ∃ t, (host = t ∨ host = [91] ++ t ++ [93]) ∧ Ipv6Text t address

/-! ## Runs of digits -/

section

variable {α : Type} {p : α → Bool} {run rest : List α}

/-- What may follow a run. -/
def EndsRun (p : α → Bool) (rest : List α) : Prop := ∀ c, rest.head? = some c → p c = false

theorem endsRun_nil : EndsRun p [] := by
  intro c hc
  cases hc

theorem takeWhile_run (hrun : ∀ c ∈ run, p c = true) (hrest : EndsRun p rest) :
    (run ++ rest).takeWhile p = run := by
  rw [List.takeWhile_append_of_pos hrun]
  cases rest with
  | nil => exact List.append_nil _
  | cons c rest => rw [List.takeWhile_cons_of_neg (by rw [hrest c rfl]; decide), List.append_nil]

theorem dropWhile_run (hrun : ∀ c ∈ run, p c = true) (hrest : EndsRun p rest) :
    (run ++ rest).dropWhile p = rest := by
  rw [List.dropWhile_append_of_pos hrun]
  cases rest with
  | nil => rfl
  | cons c rest => exact List.dropWhile_cons_of_neg (by rw [hrest c rfl]; decide)

end

/-! ## IPv4 -/

/-- A step of `ParseIpv4Literal` in a number. -/
def decimalStep (value : ℕ) (c : UInt8) : Option ℕ :=
  if value * 10 + (c.toNat - 48) > 255 then none else some (value * 10 + (c.toNat - 48))

theorem foldlM_decimalStep (digits : Bytes) : ∀ value n : ℕ, value ≤ 255 →
    (digits.foldlM decimalStep value = some n ↔
      digits.foldl (fun value c => value * 10 + (c.toNat - 48)) value = n ∧ n ≤ 255) := by
  have hmono (digits : Bytes) : ∀ value : ℕ,
      value ≤ digits.foldl (fun value c => value * 10 + (c.toNat - 48)) value := by
    induction digits with
    | nil => exact fun value => le_rfl
    | cons c digits ih =>
      intro value
      have h := ih (value * 10 + (c.toNat - 48))
      rw [List.foldl_cons]
      omega
  induction digits with
  | nil =>
    intro value n hvalue
    simp only [List.foldlM_nil, List.foldl_nil]
    constructor
    · intro h
      obtain rfl := Option.some.inj h
      exact ⟨rfl, hvalue⟩
    · rintro ⟨rfl, -⟩
      rfl
  | cons c digits ih =>
    intro value n hvalue
    rw [List.foldlM_cons, List.foldl_cons, decimalStep]
    split_ifs with hbig
    · have h := hmono digits (value * 10 + (c.toNat - 48))
      constructor
      · intro hnone
        cases hnone
      · rintro ⟨rfl, hn⟩
        omega
    · exact ih _ n (not_lt.1 hbig)

variable {digits rest : Bytes} {parts : List Bytes} {groups values : List ℕ} {group : ℕ}

theorem parseIpv4Part_eq_some {octet : UInt8} (hdigits : ∀ c ∈ digits, isDecimalDigit c = true) :
    parseIpv4Part digits = some octet ↔ DecimalOctet digits octet := by
  rw [parseIpv4Part]
  split_ifs with hlength
  · constructor
    · intro h
      cases h
    · intro h
      exact absurd (List.length_eq_zero_iff.1 hlength) h.ne
  · have hne : digits ≠ [] := fun h => hlength (List.length_eq_zero_iff.2 h)
    constructor
    · intro h
      obtain ⟨value, hvalue, h⟩ := Option.bind_eq_some_iff.1 h
      obtain ⟨hsum, hle⟩ := (foldlM_decimalStep digits 0 value (by omega)).1 hvalue
      obtain rfl := Option.some.inj h
      refine ⟨hne, hdigits, hsum.trans ?_⟩
      rw [UInt8.toNat_ofNat']
      omega
    · intro h
      have hlt := octet.toNat_lt
      refine Option.bind_eq_some_iff.2 ⟨octet.toNat, ?_, ?_⟩
      · exact (foldlM_decimalStep digits 0 _ (by omega)).2 ⟨h.value, by omega⟩
      · exact congrArg some UInt8.ofNat_toNat

theorem endsRun_dot : EndsRun isDecimalDigit (dot :: rest) := by
  intro c hc
  cases hc
  decide

theorem parseIpv4Parts_eq_some : ∀ (n : ℕ) (host address : Bytes),
    parseIpv4Parts n host = some address ↔ ∃ parts : List Bytes, parts.length = n + 1 ∧
      host = [dot].intercalate parts ∧ List.Forall₂ DecimalOctet parts address
  | 0, host, address => by
    rw [parseIpv4Parts]
    constructor
    · intro h
      obtain ⟨octet, hoctet, h⟩ := Option.bind_eq_some_iff.1 h
      split_ifs at h with hrest
      obtain rfl := Option.some.inj h
      have hhost : host.takeWhile isDecimalDigit = host := by
        have hsplit := List.takeWhile_append_dropWhile (p := isDecimalDigit) (l := host)
        rwa [hrest, List.append_nil] at hsplit
      have hpart := (parseIpv4Part_eq_some fun c => List.mem_takeWhile_imp).1 hoctet
      rw [hhost] at hpart
      exact ⟨[host], rfl, List.intercalate_singleton.symm, .cons hpart .nil⟩
    · rintro ⟨parts, hlength, rfl, hparts⟩
      obtain ⟨part, rfl⟩ := List.length_eq_one_iff.1 hlength
      obtain ⟨octet, rest, hpart, hrest, rfl⟩ := List.forall₂_cons_left_iff.1 hparts
      obtain rfl := List.forall₂_nil_left_iff.1 hrest
      have htake := takeWhile_run hpart.decimal endsRun_nil
      have hdrop := dropWhile_run hpart.decimal endsRun_nil
      rw [List.append_nil] at htake hdrop
      rw [List.intercalate_singleton, htake, hdrop,
        (parseIpv4Part_eq_some hpart.decimal).2 hpart]
      rfl
  | n + 1, host, address => by
    rw [parseIpv4Parts]
    constructor
    · intro h
      obtain ⟨octet, hoctet, h⟩ := Option.bind_eq_some_iff.1 h
      have hpart := (parseIpv4Part_eq_some fun c => List.mem_takeWhile_imp).1 hoctet
      have hsplit := List.takeWhile_append_dropWhile (p := isDecimalDigit) (l := host)
      split at h
      · cases h
      case _ d rest hdrop =>
        split_ifs at h with hd
        obtain rfl := not_not.1 hd
        obtain ⟨octets, hoctets, h⟩ := Option.bind_eq_some_iff.1 h
        obtain rfl := Option.some.inj h
        obtain ⟨parts, hlength, hrest, hparts⟩ :=
          (parseIpv4Parts_eq_some n rest octets).1 hoctets
        obtain ⟨q, ps, rfl⟩ := List.exists_cons_of_length_eq_add_one hlength
        refine ⟨host.takeWhile isDecimalDigit :: q :: ps, by rw [List.length_cons, hlength], ?_,
          .cons hpart hparts⟩
        rw [List.intercalate_cons_cons, ← hrest, List.append_assoc, List.singleton_append, ← hdrop,
          hsplit]
    · rintro ⟨parts, hlength, rfl, hparts⟩
      obtain ⟨part, tail, rfl⟩ := List.exists_cons_of_length_eq_add_one hlength
      rw [List.length_cons, Nat.add_left_inj] at hlength
      obtain ⟨q, ps, rfl⟩ := List.exists_cons_of_length_eq_add_one hlength
      obtain ⟨octet, octets, hpart, hrest, rfl⟩ := List.forall₂_cons_left_iff.1 hparts
      have hoctets := (parseIpv4Parts_eq_some n _ octets).2 ⟨q :: ps, hlength, rfl, hrest⟩
      rw [List.intercalate_cons_cons, List.append_assoc, List.singleton_append,
        takeWhile_run hpart.decimal endsRun_dot, dropWhile_run hpart.decimal endsRun_dot,
        (parseIpv4Part_eq_some hpart.decimal).2 hpart]
      simp only [Option.bind_eq_bind, Option.bind_some, ne_eq, not_true_eq_false, if_false, hoctets]

theorem parseIpv4Literal_eq_some (host address : Bytes) :
    parseIpv4Literal host = some address ↔ Ipv4Text host address :=
  parseIpv4Parts_eq_some 3 host address

/-! ## IPv6 -/

theorem hexDigit_colon : (hexDigit colon).isSome = false := by decide

theorem endsRun_colon : EndsRun (fun c => (hexDigit c).isSome) (colon :: rest) := by
  intro c hc
  cases hc
  exact hexDigit_colon

theorem HexGroup.exists_cons (h : HexGroup digits group) :
    ∃ c rest, digits = c :: rest ∧ c ≠ colon ∧ (hexDigit c).isSome = true := by
  cases digits with
  | nil => exact absurd h.length.1 (by decide)
  | cons c rest =>
    have hc := h.hexadecimal c (List.mem_cons_self ..)
    refine ⟨c, rest, rfl, ?_, hc⟩
    rintro rfl
    rw [hexDigit_colon] at hc
    cases hc

/-- What the scanner does at a group. -/
theorem parseIpv6Groups_run
    {compressIndex : Option ℕ} (hgroup : HexGroup digits group) (hroom : groups.length < 8)
    (hrest : EndsRun (fun c => (hexDigit c).isSome) rest) :
    parseIpv6Groups (digits ++ rest) groups compressIndex =
      match rest with
      | [] => some (groups ++ [group], compressIndex)
      | [_] => none
      | d :: e :: rest =>
        if d ≠ colon then none
        else if e = colon then
          if compressIndex.isSome then none
          else parseIpv6Groups rest (groups ++ [group]) (some (groups.length + 1))
        else parseIpv6Groups (e :: rest) (groups ++ [group]) compressIndex := by
  obtain ⟨c, run, rfl, hc, -⟩ := hgroup.exists_cons
  have htake := takeWhile_run hgroup.hexadecimal hrest
  have hdrop := dropWhile_run hgroup.hexadecimal hrest
  obtain ⟨hone, hfour⟩ := hgroup.length
  rw [List.cons_append] at htake hdrop ⊢
  conv_lhs => rw [parseIpv6Groups.eq_def]
  dsimp only
  rw [if_neg hc, if_neg (not_le.2 hroom), htake, if_neg (by omega)]
  have hvalue : (c :: run).foldl (fun value c => value * 16 + (hexDigit c).getD 0) 0 = group :=
    hgroup.value
  rw [hvalue]
  split
  · case h_1 hnil =>
    rw [hdrop] at hnil
    subst hnil
    rfl
  · case h_2 d hone =>
    rw [hdrop] at hone
    subst hone
    rfl
  · case h_3 d e rest' hcons =>
    rw [hdrop] at hcons
    subst hcons
    rfl

/-- Groups with colons between them, by induction on the groups. -/
theorem parseIpv6Groups_full
    (hparts : List.Forall₂ HexGroup parts values) : ∀ (groups : List ℕ) (compressIndex : Option ℕ),
    groups.length + parts.length ≤ 8 →
    parseIpv6Groups ([colon].intercalate parts) groups compressIndex =
      some (groups ++ values, compressIndex) := by
  induction hparts with
  | nil =>
    intro groups compressIndex _
    rw [List.intercalate_nil, parseIpv6Groups, List.append_nil]
  | @cons part value parts values hpart hparts ih =>
    intro groups compressIndex hlength
    rw [List.length_cons] at hlength
    cases hparts with
    | nil =>
      rw [List.intercalate_singleton, ← List.append_nil part,
        parseIpv6Groups_run hpart (by omega) endsRun_nil]
    | @cons next value' parts values' hnext hparts =>
      have hrest := ih (groups ++ [value]) compressIndex (by simp at hlength ⊢; omega)
      obtain ⟨e, rest, rfl, he, -⟩ := hnext.exists_cons
      rw [List.intercalate_cons_cons, List.append_assoc, List.singleton_append,
        parseIpv6Groups_run hpart (by omega) endsRun_colon]
      have hcons : ∃ more, [colon].intercalate ((e :: rest) :: parts) = e :: more := by
        cases parts with
        | nil => exact ⟨_, List.intercalate_singleton⟩
        | cons q parts =>
          rw [List.intercalate_cons_cons]
          exact ⟨_, rfl⟩
      obtain ⟨more, hmore⟩ := hcons
      rw [hmore] at hrest ⊢
      simp only [ne_eq, not_true_eq_false, if_false, he, hrest, List.append_assoc,
        List.singleton_append]

theorem parseIpv6Groups_compressed {left right : List Bytes} {leftGroups rightGroups : List ℕ}
    (hleft : List.Forall₂ HexGroup left leftGroups)
    (hright : List.Forall₂ HexGroup right rightGroups) : ∀ groups : List ℕ,
    groups.length + left.length + right.length ≤ 8 →
    parseIpv6Groups ([colon].intercalate left ++ [colon, colon] ++ [colon].intercalate right)
        groups none =
      some (groups ++ leftGroups ++ rightGroups, some (groups.length + left.length)) := by
  induction hleft with
  | nil =>
    intro groups hlength
    have hfull := parseIpv6Groups_full hright groups (some groups.length) (by simpa using hlength)
    rw [List.intercalate_nil, List.nil_append, List.cons_append, List.singleton_append,
      parseIpv6Groups.eq_def]
    simp only [if_true, ne_eq, not_true_eq_false, Option.isSome_none, Bool.false_eq_true, or_self,
      if_false, hfull, List.append_nil, List.length_nil, Nat.add_zero]
  | @cons part value parts values hpart hparts ih =>
    intro groups hlength
    rw [List.length_cons] at hlength
    cases hparts with
    | nil =>
      have hfull := parseIpv6Groups_full hright (groups ++ [value]) (some (groups.length + 1))
        (by simp at hlength ⊢; omega)
      rw [List.intercalate_singleton, List.append_assoc, List.cons_append, List.singleton_append,
        parseIpv6Groups_run hpart (by omega) endsRun_colon]
      simp only [ne_eq, not_true_eq_false, if_false, if_true, Option.isSome_none,
        Bool.false_eq_true, hfull, List.length_cons, List.length_nil, Nat.zero_add]
    | @cons next value' parts values' hnext hparts =>
      have hrest := ih (groups ++ [value]) (by simp at hlength ⊢; omega)
      obtain ⟨e, rest, rfl, he, -⟩ := hnext.exists_cons
      obtain ⟨more, hmore⟩ : ∃ more, [colon].intercalate ((e :: rest) :: parts) ++
          [colon, colon] ++ [colon].intercalate right = e :: more := by
        cases parts with
        | nil => exact ⟨_, by rw [List.intercalate_singleton]; rfl⟩
        | cons q parts => exact ⟨_, by rw [List.intercalate_cons_cons]; rfl⟩
      rw [hmore] at hrest
      rw [List.intercalate_cons_cons, List.append_assoc, List.append_assoc, List.append_assoc,
        ← List.append_assoc _ [colon, colon], hmore, List.singleton_append,
        parseIpv6Groups_run hpart (by omega) endsRun_colon]
      simp only [ne_eq, not_true_eq_false, if_false, he, hrest, List.append_assoc,
        List.singleton_append, List.length_append, List.length_cons, List.length_nil]
      simp only [List.cons_append, Option.some.injEq, Prod.mk.injEq, true_and]
      omega

/-- What the scanner has read from a place on. -/
inductive ReadsGroups (host : Bytes) (groups groups' : List ℕ) (index index' : Option ℕ) : Prop
  | full (parts : List Bytes) (values : List ℕ) (hparts : List.Forall₂ HexGroup parts values)
      (hhost : host = [colon].intercalate parts) (hgroups : groups' = groups ++ values)
      (hindex : index' = index) : ReadsGroups host groups groups' index index'
  | compressed (left right : List Bytes) (leftGroups rightGroups : List ℕ)
      (hleft : List.Forall₂ HexGroup left leftGroups)
      (hright : List.Forall₂ HexGroup right rightGroups)
      (hhost : host = [colon].intercalate left ++ [colon, colon] ++ [colon].intercalate right)
      (hgroups : groups' = groups ++ leftGroups ++ rightGroups) (hnone : index = none)
      (hindex : index' = some (groups.length + left.length)) :
      ReadsGroups host groups groups' index index'

/-- A group in front of what has been read. -/
theorem ReadsGroups.cons {digits rest : Bytes} {group : ℕ} {groups groups' : List ℕ}
    {index index' : Option ℕ} (hgroup : HexGroup digits group)
    (h : ReadsGroups rest (groups ++ [group]) groups' index index') (hne : rest ≠ [])
    (hcolon : rest.head? ≠ some colon) :
    ReadsGroups (digits ++ [colon] ++ rest) groups groups' index index' := by
  cases h with
  | full parts values hparts hhost hgroups hindex =>
    cases parts with
    | nil => exact absurd hhost hne
    | cons part parts =>
      refine .full (digits :: part :: parts) (group :: values) (.cons hgroup hparts) ?_ ?_ hindex
      · rw [List.intercalate_cons_cons, ← hhost]
      · rw [hgroups, List.append_assoc, List.singleton_append]
  | compressed left right leftGroups rightGroups hleft hright hhost hgroups hnone hindex =>
    cases left with
    | nil =>
      rw [hhost] at hcolon
      exact absurd rfl hcolon
    | cons part left =>
      refine .compressed (digits :: part :: left) right (group :: leftGroups) rightGroups
        (.cons hgroup hleft) hright ?_ ?_ hnone ?_
      · rw [List.intercalate_cons_cons, hhost]
        simp only [List.append_assoc]
      · rw [hgroups]
        simp only [List.append_assoc, List.cons_append, List.nil_append]
      · rw [hindex, List.length_append, List.length_singleton, List.length_cons, List.length_cons,
          List.length_cons]
        exact congrArg some (by omega)

theorem parseIpv6Groups_reads {host : Bytes} {groups' : List ℕ} {index index' : Option ℕ}
    (h : parseIpv6Groups host groups index = some (groups', index')) :
    ReadsGroups host groups groups' index index' := by
  induction hn : host.length using Nat.strongRecOn generalizing host groups index with
  | _ n ih =>
    subst hn
    rw [parseIpv6Groups.eq_def] at h
    split at h
    · cases h
      exact .full [] [] .nil rfl (List.append_nil _).symm rfl
    · case h_2 c host =>
      by_cases hc : c = colon
      · -- `::` in front
        subst hc
        rw [if_pos rfl] at h
        split at h
        · cases h
        case _ d rest =>
          split_ifs at h with hd
          rw [not_or, not_not] at hd
          obtain ⟨rfl, hindex⟩ := hd
          have hnone : index = none := by simpa using hindex
          have hreads := ih rest.length (by simp) h rfl
          cases hreads with
          | full parts values hparts hhost hgroups hindex' =>
            exact .compressed [] parts [] values .nil hparts (by rw [hhost]; rfl)
              (by rw [hgroups, List.append_nil]) hnone hindex'
          | compressed _ _ _ _ _ _ _ _ hsome _ => cases hsome
      · -- a group in front
        rw [if_neg hc] at h
        by_cases hroom : groups.length ≥ 8
        · rw [if_pos hroom] at h
          cases h
        rw [if_neg hroom] at h
        dsimp only at h
        have hsplit := List.takeWhile_append_dropWhile (p := fun c => (hexDigit c).isSome)
          (l := c :: host)
        generalize hrun : (c :: host).takeWhile (fun c => (hexDigit c).isSome) = run at h hsplit
        have hhex : ∀ c ∈ run, (hexDigit c).isSome = true := by
          rw [← hrun]
          exact fun c => List.mem_takeWhile_imp
        by_cases hlength : run.length > 4 ∨ run.length = 0
        · rw [if_pos hlength] at h
          cases h
        rw [if_neg hlength] at h
        have hgroup : HexGroup run (hexValue run) := ⟨by omega, hhex, rfl⟩
        split at h
        · case h_1 hdrop =>
          cases h
          rw [hdrop, List.append_nil] at hsplit
          exact .full [run] [_] (.cons hgroup .nil)
            (hsplit.symm.trans List.intercalate_singleton.symm) rfl rfl
        · cases h
        · case h_3 d e rest hdrop =>
          have hshorter : rest.length + 1 < (c :: host).length := by
            rw [← hsplit, hdrop]
            simp
            omega
          by_cases hd : d ≠ colon
          · rw [if_pos hd] at h
            cases h
          rw [if_neg hd] at h
          obtain rfl := not_not.1 hd
          by_cases he : e = colon
          · subst he
            rw [if_pos rfl] at h
            split_ifs at h with hindex
            have hnone : index = none := by simpa using hindex
            have hreads := ih rest.length (by omega) h rfl
            cases hreads with
            | full parts values hparts hhost hgroups hindex' =>
              refine .compressed [run] parts [_] values (.cons hgroup .nil) hparts ?_ hgroups hnone
                hindex'
              rw [← hsplit, hdrop, List.intercalate_singleton, hhost]
              simp
            | compressed _ _ _ _ _ _ _ _ hsome _ => cases hsome
          · rw [if_neg he] at h
            have hreads := ih (e :: rest).length (by simpa using hshorter) h rfl
            have hcons := hreads.cons hgroup (List.cons_ne_nil _ _)
              (fun hhead => he (Option.some.inj hhead))
            rw [← hsplit, hdrop]
            simpa using hcons

theorem forall₂_length
    (h : List.Forall₂ HexGroup parts values) : values.length = parts.length := h.length_eq.symm

/-- What `ParseIpv6Literal` makes of a text without brackets. -/
def parseIpv6Text (t : Bytes) : Option Bytes := do
  let (groups, compressIndex) ← parseIpv6Groups t [] none
  let groups ← expandIpv6Groups groups compressIndex
  some (groupOctets groups)

theorem parseIpv6Text_eq_some (t address : Bytes) :
    parseIpv6Text t = some address ↔ Ipv6Text t address := by
  constructor
  · intro h
    obtain ⟨⟨groups, index⟩, hread, h⟩ := Option.bind_eq_some_iff.1 h
    obtain ⟨expanded, hexpand, h⟩ := Option.bind_eq_some_iff.1 h
    obtain rfl := Option.some.inj h
    cases parseIpv6Groups_reads hread with
    | full parts values hparts hhost hgroups hindex =>
      rw [hindex, hgroups, List.nil_append, expandIpv6Groups] at hexpand
      split_ifs at hexpand with hlength
      obtain rfl := Option.some.inj hexpand
      rw [not_not, forall₂_length hparts] at hlength
      exact .full parts values hlength hhost hparts rfl
    | compressed left right leftGroups rightGroups hleft hright hhost hgroups _ hindex =>
      rw [hindex, hgroups, List.nil_append, expandIpv6Groups] at hexpand
      rw [List.length_append, forall₂_length hleft, forall₂_length hright, List.length_nil,
        Nat.zero_add, ← forall₂_length hleft, List.take_left, List.drop_left] at hexpand
      split_ifs at hexpand with hlength
      obtain rfl := Option.some.inj hexpand
      rw [forall₂_length hleft] at hlength ⊢
      exact .compressed left right leftGroups rightGroups (by omega) hhost hleft hright rfl
  · intro h
    cases h with
    | full parts groups hlength ht hgroups haddress =>
      have hread := parseIpv6Groups_full hgroups [] none (by rw [hlength]; decide)
      have hcount : groups.length = 8 := (forall₂_length hgroups).trans hlength
      have hexpand : expandIpv6Groups ([] ++ groups) none = some groups := by
        rw [List.nil_append, expandIpv6Groups, if_neg (not_not_intro hcount)]
      rw [parseIpv6Text, ht, hread, haddress]
      simp only [Option.bind_eq_bind, Option.bind_some, hexpand]
    | compressed left right leftGroups rightGroups hlength ht hleft hright haddress =>
      have hread := parseIpv6Groups_compressed hleft hright [] (by simpa using by omega)
      have hexpand : expandIpv6Groups ([] ++ leftGroups ++ rightGroups)
          (some (([] : List ℕ).length + left.length)) =
          some (leftGroups ++ List.replicate (8 - (left.length + right.length)) 0 ++
            rightGroups) := by
        rw [List.nil_append, expandIpv6Groups, List.length_append, forall₂_length hleft,
          forall₂_length hright, if_neg (by omega), List.length_nil, Nat.zero_add,
          ← forall₂_length hleft, List.take_left, List.drop_left]
      rw [parseIpv6Text, ht, hread, haddress]
      simp only [Option.bind_eq_bind, Option.bind_some, hexpand]

/-- The text of an address begins with a digit or a colon. -/
theorem Ipv6Text.head {t address : Bytes} (h : Ipv6Text t address) :
    ∃ c rest, t = c :: rest ∧ (c = colon ∨ (hexDigit c).isSome = true) := by
  have hparts {part : Bytes} (parts : List Bytes) {group : ℕ} (hgroup : HexGroup part group)
      (more : Bytes) : ∃ c rest, [colon].intercalate (part :: parts) ++ more = c :: rest ∧
      (c = colon ∨ (hexDigit c).isSome = true) := by
    obtain ⟨c, rest, rfl, -, hc⟩ := hgroup.exists_cons
    cases parts with
    | nil => exact ⟨c, _, by rw [List.intercalate_singleton]; rfl, .inr hc⟩
    | cons q parts => exact ⟨c, _, by rw [List.intercalate_cons_cons]; rfl, .inr hc⟩
  cases h with
  | full parts groups hlength ht hgroups haddress =>
    obtain ⟨part, rest, rfl⟩ := List.exists_cons_of_length_eq_add_one hlength
    obtain ⟨group, _, hgroup, -, -⟩ := List.forall₂_cons_left_iff.1 hgroups
    obtain ⟨c, more, heq, hc⟩ := hparts rest hgroup []
    exact ⟨c, more, ht.trans ((List.append_nil _).symm.trans heq), hc⟩
  | compressed left right leftGroups rightGroups hlength ht hleft hright haddress =>
    cases hleft with
    | nil => exact ⟨colon, _, ht, .inl rfl⟩
    | @cons part group parts groups hgroup hrest =>
      obtain ⟨c, more, heq, hc⟩ :=
        hparts parts hgroup ([colon, colon] ++ [colon].intercalate right)
      exact ⟨c, more, ht.trans ((List.append_assoc ..).trans heq), hc⟩

theorem stripBrackets_cases (host : Bytes) :
    host = stripBrackets host ∨ host = [91] ++ stripBrackets host ++ [93] := by
  rw [stripBrackets]
  split_ifs with h
  · obtain ⟨hlength, hfirst, hlast⟩ := h
    obtain ⟨c, rest, rfl⟩ := List.exists_cons_of_length_pos (by omega : 0 < host.length)
    obtain rfl := Option.some.inj hfirst
    have hne : rest ≠ [] := by
      rintro rfl
      exact absurd hlength (by decide)
    have hlast : rest.getLast hne = 93 := by
      rw [List.getLast?_cons, List.getLast?_eq_some_getLast hne] at hlast
      exact Option.some.inj hlast
    refine .inr ?_
    rw [List.drop_one, List.tail_cons, List.append_assoc, ← hlast, List.dropLast_append_getLast hne]
    rfl
  · exact .inl rfl

theorem stripBrackets_brackets (t : Bytes) : stripBrackets ([91] ++ t ++ [93]) = t := by
  have hlast : ([91] ++ t ++ [93]).getLast? = some 93 := List.getLast?_concat
  rw [stripBrackets, if_pos ⟨by simp, rfl, hlast⟩]
  simp

theorem parseIpv6Literal_eq_some (host address : Bytes) :
    parseIpv6Literal host = some address ↔
      ∃ t, (host = t ∨ host = [91] ++ t ++ [93]) ∧ Ipv6Text t address := by
  have heq : parseIpv6Literal host = some address ↔ Ipv6Text (stripBrackets host) address := by
    rw [← parseIpv6Text_eq_some, parseIpv6Literal]
    split_ifs with hlength
    · have hnone : parseIpv6Text [] = none := by decide +kernel
      rw [List.length_eq_zero_iff.1 hlength, hnone]
      simp
    · rfl
  rw [heq]
  constructor
  · intro h
    exact ⟨_, stripBrackets_cases host, h⟩
  · rintro ⟨t, rfl | rfl, ht⟩
    · obtain ⟨c, rest, rfl, hc⟩ := ht.head
      have hne : c ≠ 91 := by
        rintro rfl
        revert hc
        decide
      rw [stripBrackets, if_neg fun h => hne (Option.some.inj h.2.1)]
      exact ht
    · rw [stripBrackets_brackets]
      exact ht

theorem parseIpLiteral_eq_some (host address : Bytes) :
    parseIpLiteral host = some address ↔ AddressText host address := by
  rw [parseIpLiteral, AddressText, ← parseIpv4Literal_eq_some, ← parseIpv6Literal_eq_some,
    Option.or_eq_some_iff]
  constructor
  · rintro (h | ⟨-, h⟩)
    · exact .inl h
    · exact .inr h
  · rintro (h | h)
    · exact .inl h
    · -- a text of the one kind has a colon, and one of the other kind has none
      refine .inr ⟨?_, h⟩
      rcases h4 : parseIpv4Literal host with _ | octets
      · rfl
      · have hcolon := parseIpv4Parts_octets h4 colon (parseIpv6Literal_colon h)
        exact absurd hcolon (by decide)

/-! ## Names of a certificate -/

/-- A host of a name: the name itself up to case, or, where its first label is `*`, with one
whole label in the place of the star. -/
def HostOf (pattern host : Bytes) : Prop :=
  host ≠ [] ∧ pattern.map toLowerAscii = host.map toLowerAscii ∨
  ∃ parent ≠ [], pattern = 42 :: dot :: parent ∧ ∃ label ≠ [], dot ∉ label ∧ ∃ rest,
    host = label ++ dot :: rest ∧ parent.map toLowerAscii = rest.map toLowerAscii

/-- Only a capital letter changes, and it becomes a small one. -/
theorem toLowerAscii_eq {c d : UInt8} (hd : d.toNat < 97) (h : toLowerAscii c = d) : c = d := by
  rw [toLowerAscii] at h
  split_ifs at h with hup
  · subst h
    simp only [isUpperAscii, Bool.and_eq_true, decide_eq_true_eq] at hup
    rw [UInt8.toNat_add] at hd
    have h32 : (32 : UInt8).toNat = 32 := rfl
    omega
  · exact h

theorem hostNameMatches_wildcard {parent : Bytes} (hparent : parent ≠ []) (host : Bytes) :
    hostNameMatches (42 :: dot :: parent) host = true ↔ ∃ label ≠ [], dot ∉ label ∧ ∃ rest,
      host = label ++ dot :: rest ∧ parent.map toLowerAscii = rest.map toLowerAscii := by
  have hpos := List.length_pos_iff.2 hparent
  have hwild : (42 :: dot :: parent).length > 2 ∧ (42 :: dot :: parent)[0]? = some 42 ∧
      (42 :: dot :: parent)[1]? = some dot := ⟨by simp only [List.length_cons]; omega, rfl, rfl⟩
  rw [hostNameMatches, if_pos hwild]
  simp only [List.drop_one, List.tail_cons, List.length_cons, Bool.if_false_left, Bool.and_eq_true,
    Bool.not_eq_true', decide_eq_false_iff_not, textEqualsIgnoreCase_iff, List.contains_eq_mem]
  constructor
  · rintro ⟨hne, hlong, hdot, hsame⟩
    obtain ⟨d, rest, hdrop, hd, hrest⟩ := List.map_eq_cons_iff.1 hsame.symm
    obtain rfl := toLowerAscii_eq (d := dot) (by decide) hd
    refine ⟨host.take (host.length - (parent.length + 1)), ?_, hdot, rest, ?_, hrest.symm⟩
    · rw [← List.length_pos_iff, List.length_take]
      omega
    · rw [← hdrop, List.take_append_drop]
  · rintro ⟨label, hlabel, hdot, rest, rfl, hrest⟩
    have hlength : parent.length = rest.length := by simpa using congrArg List.length hrest
    have hpos := List.length_pos_iff.2 hlabel
    have hn : (label ++ dot :: rest).length - (parent.length + 1) = label.length := by
      rw [List.length_append, List.length_cons]
      omega
    rw [hn, List.take_left, List.drop_left]
    simp [hdot, hrest]
    omega

theorem hostNameMatches_iff (pattern host : Bytes) :
    hostNameMatches pattern host = true ↔ HostOf pattern host := by
  by_cases hwild : pattern.length > 2 ∧ pattern[0]? = some 42 ∧ pattern[1]? = some dot
  · obtain ⟨parent, hparent, rfl⟩ : ∃ parent ≠ [], pattern = 42 :: dot :: parent := by
      obtain ⟨hlong, h0, h1⟩ := hwild
      obtain ⟨star, t, rfl⟩ := List.exists_cons_of_length_pos (show 0 < pattern.length by omega)
      obtain ⟨d, parent, rfl⟩ := List.exists_cons_of_length_pos (show 0 < t.length by simp at hlong; omega)
      cases h0
      cases h1
      exact ⟨parent, List.length_pos_iff.1 (by simpa using hlong), rfl⟩
    rw [hostNameMatches_wildcard hparent]
    constructor
    · exact fun h => .inr ⟨parent, hparent, rfl, h⟩
    · rintro (⟨-, h⟩ | ⟨_, -, hpattern, h⟩)
      · obtain ⟨star, t, rfl, hstar, ht⟩ := List.map_eq_cons_iff.1 h.symm
        obtain ⟨d, rest, rfl, hd, hrest⟩ := List.map_eq_cons_iff.1 ht
        obtain rfl := toLowerAscii_eq (d := dot) (by decide) hd
        obtain rfl := toLowerAscii_eq (d := 42) (by decide) hstar
        exact ⟨[42], List.cons_ne_nil _ _, by decide, rest, rfl, hrest.symm⟩
      · cases hpattern
        exact h
  · rw [hostNameMatches, if_neg hwild, HostOf]
    have hplain : ¬ ∃ parent ≠ [], pattern = 42 :: dot :: parent := by
      rintro ⟨parent, hparent, rfl⟩
      have := List.length_pos_iff.2 hparent
      exact hwild ⟨by simp only [List.length_cons]; omega, rfl, rfl⟩
    constructor
    · intro h
      split_ifs at h with hempty
      rw [not_or] at hempty
      exact .inl ⟨fun h0 => hempty.2 (by rw [h0]; rfl), textEqualsIgnoreCase_iff.1 h⟩
    · rintro (⟨hhost, h⟩ | ⟨parent, hparent, hpattern, -⟩)
      · rw [if_neg, textEqualsIgnoreCase_iff]
        · exact h
        · have hlength : pattern.length = host.length := by simpa using congrArg List.length h
          rw [hlength, or_self, List.length_eq_zero_iff]
          exact hhost
      · exact absurd ⟨parent, hparent, hpattern⟩ hplain

/-- **`ValidateHostName` accepts** an address that the certificate has, and of other texts the hosts
of its names: an address is never a name. -/
theorem validateHostName_eq_ok (leaf : ParsedCertificate) (hostName : Bytes) :
    validateHostName leaf hostName = .ok () ↔
      (∃ address ∈ leaf.ipAddresses, AddressText hostName address) ∨
      (¬ ∃ address, AddressText hostName address) ∧
        ∃ pattern ∈ leaf.dnsNames, HostOf pattern hostName := by
  simp only [← parseIpLiteral_eq_some, ← hostNameMatches_iff]
  rw [validateHostName]
  by_cases hempty : hostName = []
  · subst hempty
    have hip : parseIpLiteral [] = none := rfl
    simp [hip, hostNameMatches]
  · rw [if_neg (by simpa using hempty)]
    cases hip : parseIpLiteral hostName with
    | some address => simp
    | none => simp

end KernelHttp.Tls
