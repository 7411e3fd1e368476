/-
  Certificates in PEM bundles (`DecodePemCertificate` of
  `tls/CertificateValidator.cpp`).

  A bundle is a run of blocks, each a certificate in base64 between two markers; what stands
  around the blocks is skipped.
-/
import KernelHttp.Tls.HostName

namespace KernelHttp.Tls

open Incremental

/-- `CertificateMaxAuthorityDerLength`: the capacity of the scratch buffer. -/
def certificateMaxAuthorityDerLength : ℕ := 32768

def pemCertificateBegin : Bytes := text "-----BEGIN CERTIFICATE-----"

def pemCertificateEnd : Bytes := text "-----END CERTIFICATE-----"

/-! ## `DecodePemCertificate` -/

/-- `FindPattern`: the text before the first occurrence, and the text behind it. -/
def findPattern (pattern : Bytes) : Bytes → Option (Bytes × Bytes)
  | [] => none
  | c :: data =>
    if pattern.isPrefixOf (c :: data) then some ([], (c :: data).drop pattern.length)
    else (findPattern pattern data).map fun found => (c :: found.1, found.2)

def isPemWhitespace (value : UInt8) : Bool :=
  value == 32 || value == 13 || value == 10 || value == 9

def decodeBase64Char (input : UInt8) : Option UInt8 :=
  if 65 ≤ input.toNat ∧ input.toNat ≤ 90 then some (input - 65)
  else if 97 ≤ input.toNat ∧ input.toNat ≤ 122 then some (input - 97 + 26)
  else if 48 ≤ input.toNat ∧ input.toNat ≤ 57 then some (input - 48 + 52)
  else if input = 43 then some 62
  else if input = 47 then some 63
  else none

/-- The locals of the loop of `DecodePemCertificate`; an entry of the quartet is a value and
    whether it is padding. -/
structure Base64State where
  quartet : List (UInt8 × Bool) := []
  destination : Bytes := []
  completed : Bool := false

def flushBase64Quartet (quartet : List (UInt8 × Bool)) (destination : Bytes) :
    Except NTSTATUS Base64State :=
  let value := fun i => (quartet.getD i (0, false)).1.toNat
  let padding := fun i => (quartet.getD i (0, false)).2
  if padding 0 ∨ padding 1 ∨ (padding 2 ∧ ¬ padding 3) then .error statusInvalidNetworkResponse
  else
    let bytesToWrite := if padding 2 then 1 else if padding 3 then 2 else 3
    if destination.length > certificateMaxAuthorityDerLength ∨
        bytesToWrite > certificateMaxAuthorityDerLength - destination.length then
      .error statusBufferTooSmall
    else
      let value := value 0 * 2 ^ 18 + value 1 * 2 ^ 12 + value 2 * 2 ^ 6 + value 3
      let octets := [UInt8.ofNat (value / 2 ^ 16), UInt8.ofNat (value / 2 ^ 8), UInt8.ofNat value]
      .ok ⟨[], destination ++ octets.take bytesToWrite, padding 2 || padding 3⟩

/-- A turn of the loop of `DecodePemCertificate`. -/
def decodePemChar (s : Base64State) (input : UInt8) : Except NTSTATUS Base64State :=
  if isPemWhitespace input then .ok s
  else if s.completed then .error statusInvalidNetworkResponse
  else
    match if input = 61 then some (0, true) else (decodeBase64Char input).map (·, false) with
    | none => .error statusInvalidNetworkResponse
    | some entry =>
      let quartet := s.quartet ++ [entry]
      if quartet.length = 4 then flushBase64Quartet quartet s.destination
      else .ok { s with quartet := quartet }

/-- `DecodePemCertificate`: the certificate, and the text behind its block. -/
def decodePemCertificate (data : Bytes) : Except NTSTATUS (Bytes × Bytes) :=
  match findPattern pemCertificateBegin data with
  | none => .error statusNotFound
  | some (_, data) =>
    match findPattern pemCertificateEnd data with
    | none => .error statusInvalidNetworkResponse
    | some (body, rest) => do
      let s ← body.foldlM decodePemChar {}
      if s.quartet.length ≠ 0 ∨ s.destination.length = 0 then .error statusInvalidNetworkResponse
      else .ok (s.destination, rest)

/-! ## Patterns -/

section

variable {pattern before : Bytes}

/-- Nothing but the pattern behind `before` is an occurrence of it. -/
def FirstBehind (pattern before : Bytes) : Prop :=
  ∀ a b, before = a ++ b → b ≠ [] → ¬ pattern <+: b ++ pattern

theorem FirstBehind.tail {c : UInt8} (h : FirstBehind pattern (c :: before)) :
    FirstBehind pattern before := by
  intro a b hab hb
  exact h (c :: a) b (by rw [hab]; rfl) hb

theorem firstBehind_of_notMem {c : UInt8} {tail : Bytes} (h : c ∉ before) :
    FirstBehind (c :: tail) before := by
  rintro a b rfl hb hstarts
  obtain ⟨d, b, rfl⟩ := List.exists_cons_of_ne_nil hb
  rw [List.cons_append, List.cons_prefix_cons] at hstarts
  exact h (List.mem_append_right a (hstarts.1 ▸ List.mem_cons_self))

theorem findPattern_first (hne : pattern ≠ []) (h : FirstBehind pattern before) (rest : Bytes) :
    findPattern pattern (before ++ (pattern ++ rest)) = some (before, rest) := by
  induction before with
  | nil =>
    obtain ⟨c, tail, rfl⟩ := List.exists_cons_of_ne_nil hne
    have hstarts : (c :: tail).isPrefixOf (c :: tail ++ rest) = true :=
      List.isPrefixOf_iff_prefix.2 (List.prefix_append _ _)
    rw [List.nil_append, List.cons_append] at *
    rw [findPattern, if_pos hstarts, ← List.cons_append, List.drop_left]
  | cons c before ih =>
    have hnot : ¬ pattern.isPrefixOf (c :: (before ++ (pattern ++ rest))) = true := by
      rw [List.isPrefixOf_iff_prefix]
      intro hstarts
      refine h [] (c :: before) rfl (List.cons_ne_nil _ _) ?_
      refine List.prefix_of_prefix_length_le hstarts ⟨rest, by simp⟩ ?_
      rw [List.length_append]
      exact Nat.le_add_left _ _
    rw [List.cons_append, findPattern, if_neg hnot, ih h.tail]
    rfl

theorem findPattern_eq_none {data : Bytes} (h : ¬ pattern <:+: data) :
    findPattern pattern data = none := by
  induction data with
  | nil => rfl
  | cons c data ih =>
    have hstarts : ¬ pattern.isPrefixOf (c :: data) = true :=
      fun hp => h (List.isPrefixOf_iff_prefix.1 hp).isInfix
    rw [findPattern, if_neg hstarts, ih fun hi => h (hi.trans (List.suffix_cons c data).isInfix)]
    rfl

end

/-! ## Base64 -/

def encodeBase64Digit (n : ℕ) : UInt8 :=
  if n < 26 then UInt8.ofNat (65 + n)
  else if n < 52 then UInt8.ofNat (97 + (n - 26))
  else if n < 62 then UInt8.ofNat (48 + (n - 52))
  else if n = 62 then 43
  else 47

/-- Octets in base64, padded to whole quartets. -/
def encodeBase64 : Bytes → Bytes
  | [] => []
  | [a] => [encodeBase64Digit (a.toNat / 4), encodeBase64Digit (a.toNat % 4 * 16), 61, 61]
  | [a, b] =>
    [encodeBase64Digit (a.toNat / 4), encodeBase64Digit (a.toNat % 4 * 16 + b.toNat / 16),
      encodeBase64Digit (b.toNat % 16 * 4), 61]
  | a :: b :: c :: rest =>
    encodeBase64Digit (a.toNat / 4) ::
      encodeBase64Digit (a.toNat % 4 * 16 + b.toNat / 16) ::
      encodeBase64Digit (b.toNat % 16 * 4 + c.toNat / 64) ::
      encodeBase64Digit (c.toNat % 64) :: encodeBase64 rest

variable {der : Bytes} {n : ℕ}

theorem encodeBase64Digit_spec (h : n < 64) :
    isPemWhitespace (encodeBase64Digit n) = false ∧ encodeBase64Digit n ≠ 61 ∧
      encodeBase64Digit n ≠ 45 ∧ decodeBase64Char (encodeBase64Digit n) = some (UInt8.ofNat n) := by
  have hall : ∀ n ∈ List.range 64, isPemWhitespace (encodeBase64Digit n) = false ∧
      encodeBase64Digit n ≠ 61 ∧ encodeBase64Digit n ≠ 45 ∧
      decodeBase64Char (encodeBase64Digit n) = some (UInt8.ofNat n) := by decide
  exact hall n (List.mem_range.2 h)

/-- An octet that the loop takes as an entry of a quartet. -/
def ReadsAs (c : UInt8) (entry : UInt8 × Bool) : Prop :=
  isPemWhitespace c = false ∧
    (if c = 61 then some (0, true) else (decodeBase64Char c).map (·, false)) = some entry

theorem readsAs_digit (h : n < 64) :
    ReadsAs (encodeBase64Digit n) (UInt8.ofNat n, false) := by
  obtain ⟨hwhite, hpad, -, hvalue⟩ := encodeBase64Digit_spec h
  refine ⟨hwhite, ?_⟩
  rw [if_neg hpad, hvalue]
  rfl

theorem readsAs_padding : ReadsAs 61 (0, true) := ⟨rfl, rfl⟩

theorem ReadsAs.decodePemChar {c : UInt8} {entry : UInt8 × Bool} (h : ReadsAs c entry)
    (quartet : List (UInt8 × Bool)) (destination : Bytes) :
    decodePemChar ⟨quartet, destination, false⟩ c =
      if (quartet ++ [entry]).length = 4 then flushBase64Quartet (quartet ++ [entry]) destination
      else .ok ⟨quartet ++ [entry], destination, false⟩ := by
  rw [Tls.decodePemChar, h.1]
  simp only [Bool.false_eq_true, if_false, h.2]

theorem foldlM_quartet {c₀ c₁ c₂ c₃ : UInt8} {e₀ e₁ e₂ e₃ : UInt8 × Bool} (h₀ : ReadsAs c₀ e₀)
    (h₁ : ReadsAs c₁ e₁) (h₂ : ReadsAs c₂ e₂) (h₃ : ReadsAs c₃ e₃) (rest destination : Bytes) :
    (c₀ :: c₁ :: c₂ :: c₃ :: rest).foldlM decodePemChar ⟨[], destination, false⟩ =
      (flushBase64Quartet [e₀, e₁, e₂, e₃] destination >>= rest.foldlM decodePemChar) := by
  have hone : decodePemChar ⟨[], destination, false⟩ c₀ = .ok ⟨[e₀], destination, false⟩ :=
    h₀.decodePemChar [] destination
  have htwo : decodePemChar ⟨[e₀], destination, false⟩ c₁ = .ok ⟨[e₀, e₁], destination, false⟩ :=
    h₁.decodePemChar [e₀] destination
  have hthree : decodePemChar ⟨[e₀, e₁], destination, false⟩ c₂ =
      .ok ⟨[e₀, e₁, e₂], destination, false⟩ := h₂.decodePemChar [e₀, e₁] destination
  have hfour : decodePemChar ⟨[e₀, e₁, e₂], destination, false⟩ c₃ =
      flushBase64Quartet [e₀, e₁, e₂, e₃] destination := h₃.decodePemChar [e₀, e₁, e₂] destination
  rw [List.foldlM_cons, bind_of_ok hone, List.foldlM_cons, bind_of_ok htwo, List.foldlM_cons,
    bind_of_ok hthree, List.foldlM_cons, hfour]

theorem flushBase64Quartet_octets (n₀ n₁ n₂ n₃ a b c : ℕ) (p₂ p₃ : Bool) {count : ℕ}
    (destination : Bytes) (hp : p₂ = true → p₃ = true)
    (hcount : count = if p₂ then 1 else if p₃ then 2 else 3)
    (hroom : destination.length + count ≤ certificateMaxAuthorityDerLength)
    (hn : n₀ < 64 ∧ n₁ < 64 ∧ n₂ < 64 ∧ n₃ < 64)
    (hvalue : n₀ * 2 ^ 18 + n₁ * 2 ^ 12 + n₂ * 2 ^ 6 + n₃ = a * 2 ^ 16 + b * 2 ^ 8 + c)
    (hbc : b < 256 ∧ c < 256) :
    flushBase64Quartet [(UInt8.ofNat n₀, false), (UInt8.ofNat n₁, false), (UInt8.ofNat n₂, p₂),
      (UInt8.ofNat n₃, p₃)] destination =
      .ok ⟨[], destination ++ [UInt8.ofNat a, UInt8.ofNat b, UInt8.ofNat c].take count,
        p₂ || p₃⟩ := by
  have htoNat {n : ℕ} (h : n < 64) : (UInt8.ofNat n).toNat = n :=
    UInt8.toNat_ofNat_of_lt' (h.trans (by decide))
  have hoctet {n m : ℕ} (h : n % 256 = m % 256) : UInt8.ofNat n = UInt8.ofNat m :=
    UInt8.toNat_inj.1 (by simpa using h)
  have hpadding : ¬ (false = true ∨ false = true ∨ (p₂ = true ∧ ¬ p₃ = true)) := by
    rintro (h | h | ⟨h, hnot⟩)
    · cases h
    · cases h
    · exact hnot (hp h)
  have hlength : ¬ (destination.length > certificateMaxAuthorityDerLength ∨
      count > certificateMaxAuthorityDerLength - destination.length) := by
    omega
  unfold flushBase64Quartet
  simp only [List.getD_cons_zero, List.getD_cons_succ]
  rw [if_neg hpadding, ← hcount, if_neg hlength, htoNat hn.1, htoNat hn.2.1, htoNat hn.2.2.1,
    htoNat hn.2.2.2, hvalue]
  rw [hoctet (n := (a * 2 ^ 16 + b * 2 ^ 8 + c) / 2 ^ 16) (m := a) (by omega),
    hoctet (n := (a * 2 ^ 16 + b * 2 ^ 8 + c) / 2 ^ 8) (m := b) (by omega),
    hoctet (n := a * 2 ^ 16 + b * 2 ^ 8 + c) (m := c) (by omega)]

theorem foldlM_encodeBase64 (der : Bytes) : ∀ destination : Bytes,
    destination.length + der.length ≤ certificateMaxAuthorityDerLength →
    ∃ completed, (encodeBase64 der).foldlM decodePemChar ⟨[], destination, false⟩ =
      .ok ⟨[], destination ++ der, completed⟩ := by
  fun_induction encodeBase64 der with
  | case1 => exact fun destination _ => ⟨false, by rw [List.append_nil]; rfl⟩
  | case2 a =>
    intro destination hroom
    have ha := UInt8.toNat_lt a
    have hflush := flushBase64Quartet_octets (a.toNat / 4) (a.toNat % 4 * 16) 0 0 a.toNat 0 0
      true true destination (fun _ => rfl) rfl hroom (by omega) (by omega) (by omega)
    rw [foldlM_quartet (readsAs_digit (by omega)) (readsAs_digit (by omega)) readsAs_padding
      readsAs_padding]
    refine ⟨true, (bind_of_ok hflush _).trans ?_⟩
    rw [UInt8.ofNat_toNat]
    rfl
  | case3 a b =>
    intro destination hroom
    have ha := UInt8.toNat_lt a
    have hb := UInt8.toNat_lt b
    have hflush := flushBase64Quartet_octets (a.toNat / 4) (a.toNat % 4 * 16 + b.toNat / 16)
      (b.toNat % 16 * 4) 0 a.toNat b.toNat 0 false true destination (fun _ => rfl) rfl hroom
      (by omega) (by omega) (by omega)
    rw [foldlM_quartet (readsAs_digit (by omega)) (readsAs_digit (by omega))
      (readsAs_digit (by omega)) readsAs_padding]
    refine ⟨true, (bind_of_ok hflush _).trans ?_⟩
    rw [UInt8.ofNat_toNat, UInt8.ofNat_toNat]
    rfl
  | case4 a b c rest ih =>
    intro destination hroom
    have ha := UInt8.toNat_lt a
    have hb := UInt8.toNat_lt b
    have hc := UInt8.toNat_lt c
    simp only [List.length_cons] at hroom
    have hflush := flushBase64Quartet_octets (a.toNat / 4) (a.toNat % 4 * 16 + b.toNat / 16)
      (b.toNat % 16 * 4 + c.toNat / 64) (c.toNat % 64) a.toNat b.toNat c.toNat false false
      destination nofun rfl (by simp; omega) (by omega) (by omega) (by omega)
    obtain ⟨completed, hrest⟩ := ih (destination ++ [a, b, c]) (by simp; omega)
    rw [foldlM_quartet (readsAs_digit (by omega)) (readsAs_digit (by omega))
      (readsAs_digit (by omega)) (readsAs_digit (by omega))]
    refine ⟨completed, (bind_of_ok hflush _).trans ?_⟩
    rw [UInt8.ofNat_toNat, UInt8.ofNat_toNat, UInt8.ofNat_toNat]
    exact hrest.trans (by simp)

/-! ## Blocks -/

/-- The text of a certificate, with what stands before it. -/
inductive PemBlock (der : Bytes) : Bytes → Prop
  | block (before body : Bytes) (hfirst : FirstBehind pemCertificateBegin before)
      (hbody : (body.filter fun c => !isPemWhitespace c) = encodeBase64 der) (hne : der ≠ [])
      (hle : der.length ≤ certificateMaxAuthorityDerLength) :
      PemBlock der (before ++ pemCertificateBegin ++ body ++ pemCertificateEnd)

def pemText (der : Bytes) : Bytes := pemCertificateBegin ++ encodeBase64 der ++ pemCertificateEnd

theorem foldlM_decodePemChar_filter (body : Bytes) : ∀ s : Base64State,
    body.foldlM decodePemChar s = (body.filter fun c => !isPemWhitespace c).foldlM decodePemChar s := by
  induction body with
  | nil => exact fun _ => rfl
  | cons c body ih =>
    intro s
    rw [List.foldlM_cons]
    cases hc : isPemWhitespace c with
    | true =>
      have hskip : decodePemChar s c = .ok s := by rw [decodePemChar, if_pos hc]
      rw [List.filter_cons_of_neg (by simp [hc]), bind_of_ok hskip, ih]
    | false =>
      rw [List.filter_cons_of_pos (by simp [hc]), List.foldlM_cons]
      exact congrArg (decodePemChar s c >>= ·) (funext ih)

/-- An octet of a text in base64 is no white space and no hyphen. -/
theorem encodeBase64_mem (der : Bytes) :
    ∀ c ∈ encodeBase64 der, isPemWhitespace c = false ∧ c ≠ 45 := by
  have hdigit {n : ℕ} (h : n < 64) :
      isPemWhitespace (encodeBase64Digit n) = false ∧ encodeBase64Digit n ≠ 45 :=
    ⟨(encodeBase64Digit_spec h).1, (encodeBase64Digit_spec h).2.2.1⟩
  have hpadding : isPemWhitespace 61 = false ∧ (61 : UInt8) ≠ 45 := by decide
  fun_induction encodeBase64 der with
  | case1 => exact nofun
  | case2 a =>
    have ha := UInt8.toNat_lt a
    simp only [List.forall_mem_cons]
    exact ⟨hdigit (by omega), hdigit (by omega), hpadding, hpadding, nofun⟩
  | case3 a b =>
    have ha := UInt8.toNat_lt a
    have hb := UInt8.toNat_lt b
    simp only [List.forall_mem_cons]
    exact ⟨hdigit (by omega), hdigit (by omega), hdigit (by omega), hpadding, nofun⟩
  | case4 a b c rest ih =>
    have ha := UInt8.toNat_lt a
    have hb := UInt8.toNat_lt b
    have hc := UInt8.toNat_lt c
    simp only [List.forall_mem_cons]
    exact ⟨hdigit (by omega), hdigit (by omega), hdigit (by omega), hdigit (by omega), ih⟩

theorem pemBlock_pemText (hne : der ≠ [])
    (hle : der.length ≤ certificateMaxAuthorityDerLength) : PemBlock der (pemText der) := by
  have hfirst : FirstBehind pemCertificateBegin [] := by
    rintro a b hab hb
    exact absurd (List.append_eq_nil_iff.1 hab.symm).2 hb
  have hbody : ((encodeBase64 der).filter fun c => !isPemWhitespace c) = encodeBase64 der :=
    List.filter_eq_self.2 fun c hc => by rw [(encodeBase64_mem der c hc).1]; rfl
  have hblock := PemBlock.block [] (encodeBase64 der) hfirst hbody hne hle
  rwa [List.nil_append] at hblock

/-- **A block is read as the certificate it was made of.** -/
theorem decodePemCertificate_block {block : Bytes} (h : PemBlock der block) (rest : Bytes) :
    decodePemCertificate (block ++ rest) = .ok (der, rest) := by
  cases h with
  | block before body hfirst hbody hne hle =>
    have hhyphen : (45 : UInt8) ∉ body := by
      intro hmem
      have : (45 : UInt8) ∈ body.filter fun c => !isPemWhitespace c :=
        List.mem_filter.2 ⟨hmem, by decide⟩
      exact (encodeBase64_mem der _ (hbody ▸ this)).2 rfl
    have hbegin := findPattern_first (by decide) hfirst (body ++ (pemCertificateEnd ++ rest))
    have hnone : FirstBehind pemCertificateEnd body := firstBehind_of_notMem hhyphen
    have hend := findPattern_first (by decide) hnone rest
    obtain ⟨completed, hfold⟩ := foldlM_encodeBase64 der [] (by simpa using hle)
    rw [← hbody, ← foldlM_decodePemChar_filter] at hfold
    have hlength : ¬ (([] : List (UInt8 × Bool)).length ≠ 0 ∨ der.length = 0) := by
      simpa using hne
    rw [decodePemCertificate, List.append_assoc, List.append_assoc, List.append_assoc, hbegin]
    dsimp only
    rw [hend]
    exact (bind_of_ok hfold _).trans (if_neg hlength)

end KernelHttp.Tls
