/-
  Host names (the anonymous namespace of
  `tls/CertificateValidator.cpp`).
-/
import KernelHttp.Lib.Incremental
import KernelHttp.Tls.Certificate

namespace KernelHttp.Tls

open Incremental

def statusTrustFailure : NTSTATUS := 0xC0000190
def statusNotFound : NTSTATUS := 0xC0000225

def certificateMaxNormalizedDnsNameLength : ℕ := 255

/-- `'.'`. -/
def dot : UInt8 := 46

def containsNonAscii (value : Bytes) : Bool := value.any (·.toNat > 0x7f)

def isValidDnsLabelByte (c : UInt8) : Bool :=
  (65 ≤ c.toNat && c.toNat ≤ 90) || (97 ≤ c.toNat && c.toNat ≤ 122) ||
    (48 ≤ c.toNat && c.toNat ≤ 57) || c.toNat == 45

/-! ## Normalization -/

/-- The capacity of the buffer that a name is written to. -/
class NameCapacity where
  capacity : ℕ

/-- The buffers of the callers. -/
instance : NameCapacity := ⟨certificateMaxNormalizedDnsNameLength + 1⟩

def appendOutputChar [NameCapacity] (output : Bytes) (c : UInt8) : Except NTSTATUS Bytes :=
  if output.length ≥ NameCapacity.capacity then .error statusBufferTooSmall
  else .ok (output ++ [c])

theorem nameCapacity_eq : NameCapacity.capacity = 256 := rfl

theorem appendOutputChar_of_lt {output : Bytes} (h : output.length < 256) (c : UInt8) :
    appendOutputChar output c = .ok (output ++ [c]) := if_neg (Nat.not_le.2 h)

/-- The continuation octets of `DecodeUtf8CodePoint`. -/
def decodeContinuation : ℕ → ℕ → Bytes → Except NTSTATUS (ℕ × Bytes)
  | 0, value, text => .ok (value, text)
  | _ + 1, _, [] => .error statusInvalidParameter
  | count + 1, value, next :: text =>
    if next.toNat / 64 ≠ 2 then .error statusInvalidParameter
    else decodeContinuation count (value * 64 + next.toNat % 64) text

/-- One code point, without overlong forms and surrogates. -/
def decodeUtf8CodePoint (text : Bytes) : Except NTSTATUS (ℕ × Bytes) :=
  match text with
  | [] => .error statusInvalidParameter
  | first :: rest =>
    let first := first.toNat
    if first < 0x80 then .ok (first, rest)
    else
      let lead : Option (ℕ × ℕ × ℕ) :=
        if first / 32 = 6 then some (2, first % 32, 0x80)
        else if first / 16 = 14 then some (3, first % 16, 0x800)
        else if first / 8 = 30 then some (4, first % 8, 0x10000)
        else none
      match lead with
      | none => .error statusInvalidParameter
      | some (expectedLength, value, least) => do
        let (value, rest) ← decodeContinuation (expectedLength - 1) value rest
        if value < least ∨ (0xd800 ≤ value ∧ value ≤ 0xdfff) ∨ value > 0x10ffff then
          .error statusInvalidParameter
        else .ok (value, rest)

variable {enableIdna : Bool} {rest a b output output' label encoded host h : Bytes}
    {codePoints : List ℕ} {c : UInt8} {count v value codePoint basicCount n : ℕ}

theorem decodeContinuation_length {text : Bytes}
    (h : decodeContinuation count value text = .ok (v, rest)) : rest.length ≤ text.length := by
  induction count generalizing value text with
  | zero =>
    obtain ⟨-, rfl⟩ := Prod.mk.inj (Except.ok.inj h)
    exact le_rfl
  | succ count ih =>
    cases text with
    | nil => cases h
    | cons next text =>
      rw [decodeContinuation] at h
      split_ifs at h
      have := ih h
      rw [List.length_cons]
      omega

theorem decodeUtf8CodePoint_length {text : Bytes}
    (h : decodeUtf8CodePoint text = .ok (codePoint, rest)) : rest.length < text.length := by
  unfold decodeUtf8CodePoint at h
  split at h
  · cases h
  rw [List.length_cons]
  dsimp only at h
  split at h
  · obtain ⟨-, rfl⟩ := Prod.mk.inj (Except.ok.inj h)
    omega
  split at h
  · cases h
  case _ expectedLength value least _ =>
    rcases hd : decodeContinuation (expectedLength - 1) value _ with e | ⟨v, r⟩
    · rw [hd] at h
      cases h
    · rw [hd] at h
      simp only [bind, Except.bind] at h
      split at h
      · cases h
      obtain ⟨-, rfl⟩ := Prod.mk.inj (Except.ok.inj h)
      have := decodeContinuation_length hd
      omega

/-- The code points of a label (the first loop of `PunycodeEncodeLabel`). -/
def decodeLabel (label : Bytes) : Except NTSTATUS (List ℕ) :=
  match label with
  | [] => .ok []
  | c :: label =>
    match _h : decodeUtf8CodePoint (c :: label) with
    | .error status => .error status
    | .ok (codePoint, rest) =>
      if codePoint = 46 then .error statusInvalidParameter
      else if codePoint < 0x80 ∧ ¬ isValidDnsLabelByte (UInt8.ofNat codePoint) then
        .error statusInvalidParameter
      else
        match decodeLabel rest with
        | .error status => .error status
        | .ok codePoints => .ok (codePoint :: codePoints)
termination_by label.length
decreasing_by exact decodeUtf8CodePoint_length _h

def encodePunycodeDigit (digit : ℕ) : UInt8 :=
  UInt8.ofNat (if digit < 26 then 97 + digit else 48 + (digit - 26))

/-- The loop of `AdaptPunycodeBias`. -/
def scalePunycodeDelta (delta k : ℕ) : ℕ × ℕ :=
  if delta > 455 then scalePunycodeDelta (delta / 35) (k + 36) else (delta, k)
termination_by delta

/-- The bias for the next delta. -/
def adaptPunycodeBias (delta numPoints : ℕ) (firstTime : Bool) : ℕ :=
  let delta := if firstTime then delta / 700 else delta / 2
  let (delta, k) := scalePunycodeDelta (delta + delta / numPoints) 0
  k + 36 * delta / (delta + 38)

/-- The digits of `delta`: the loop over `k`. -/
def appendPunycodeDelta [NameCapacity] (bias q k : ℕ) (output : Bytes) : Except NTSTATUS Bytes :=
  let t := if k ≤ bias then 1 else if k ≥ bias + 26 then 26 else k - bias
  if _h : q < t then appendOutputChar output (encodePunycodeDigit q)
  else
    match appendOutputChar output (encodePunycodeDigit (t + (q - t) % (36 - t))) with
    | .error status => .error status
    | .ok output => appendPunycodeDelta bias ((q - t) / (36 - t)) (k + 36) output
termination_by q
decreasing_by
  have ht : 1 ≤ t := by
    simp only [t]
    split_ifs <;> omega
  exact lt_of_le_of_lt (Nat.div_le_self _ _) (by omega)

/-- The locals of the main loop of `PunycodeEncodeLabel`. -/
structure PunycodeState where
  delta : ℕ
  bias : ℕ
  handledCount : ℕ
  output : Bytes

/-- A code point in a round for `n`. -/
def punycodeCodePoint [NameCapacity] (n basicCount : ℕ) (s : PunycodeState) (codePoint : ℕ) :
    Except NTSTATUS PunycodeState :=
  if codePoint < n then
    if s.delta = 0xffffffff then .error statusIntegerOverflow
    else .ok { s with delta := s.delta + 1 }
  else if codePoint = n then do
    let output ← appendPunycodeDelta s.bias s.delta 36 s.output
    .ok { delta := 0
          bias := adaptPunycodeBias s.delta (s.handledCount + 1) (s.handledCount == basicCount)
          handledCount := s.handledCount + 1
          output := output }
  else .ok s

/-- The rounds of `PunycodeEncodeLabel`, at most one for each code point. -/
def punycodeRounds [NameCapacity] (codePoints : List ℕ) (basicCount : ℕ) :
    ℕ → ℕ → PunycodeState → Except NTSTATUS Bytes
  | 0, _, s => .ok s.output
  | rounds + 1, n, s =>
    if s.handledCount ≥ codePoints.length then .ok s.output
    else
      let m := codePoints.foldl (fun m c => if n ≤ c ∧ c < m then c else m) 0x10ffff
      if m = 0x10ffff ∨ m < n ∨ m - n > (0xffffffff - s.delta) / (s.handledCount + 1) then
        .error statusIntegerOverflow
      else do
        let s ← codePoints.foldlM (punycodeCodePoint m basicCount)
          { s with delta := s.delta + (m - n) * (s.handledCount + 1) }
        if s.delta = 0xffffffff ∨ m = 0x10ffff then .error statusIntegerOverflow
        else punycodeRounds codePoints basicCount rounds (m + 1) { s with delta := s.delta + 1 }

/-- A code point below `0x80`, in lower case. -/
def lowerCodePoint (codePoint : ℕ) : UInt8 := toLowerAscii (UInt8.ofNat codePoint)

/-- The hyphen behind the basic code points. -/
def appendDelimiter [NameCapacity] (basicCount : ℕ) (output : Bytes) : Except NTSTATUS Bytes :=
  if basicCount ≠ 0 then appendOutputChar output 45 else .ok output

/-- The second half of `PunycodeEncodeLabel`: the name of the code points. -/
def encodeCodePoints [NameCapacity] (codePoints : List ℕ) (output : Bytes) :
    Except NTSTATUS Bytes :=
  let basic := codePoints.filter (· < 0x80)
  if basic.length = codePoints.length then
    (codePoints.map lowerCodePoint).foldlM appendOutputChar output
  else do
    let output ← (text "xn--").foldlM appendOutputChar output
    let output ← (basic.map lowerCodePoint).foldlM appendOutputChar output
    let output ← appendDelimiter basic.length output
    punycodeRounds codePoints basic.length codePoints.length 128
      { delta := 0, bias := 72, handledCount := basic.length, output := output }

/-- `PunycodeEncodeLabel`, behind what was written before. -/
def punycodeEncodeLabel [NameCapacity] (label output : Bytes) : Except NTSTATUS Bytes := do
  let codePoints ← decodeLabel label
  let encoded ← encodeCodePoints codePoints output
  if encoded.length - output.length ≤ 63 then .ok encoded else .error statusInvalidParameter

/-- The loop of `NormalizeDnsName`. -/
def normalizeLabels [NameCapacity] (host output : Bytes) : Except NTSTATUS Bytes :=
  match host with
  | [] => .ok output
  | c :: host =>
    if c = dot then .error statusInvalidParameter
    else
      match punycodeEncodeLabel (c :: host.takeWhile (· ≠ dot)) output with
      | .error status => .error status
      | .ok output =>
        match _h : host.dropWhile (· ≠ dot) with
        | [] => .ok output
        | _ :: rest =>
          match appendOutputChar output dot with
          | .error status => .error status
          | .ok output => normalizeLabels rest output
termination_by host.length
decreasing_by
  have := (List.dropWhile_suffix (fun x : UInt8 => decide (x ≠ dot)) (l := host)).length_le
  rw [_h, List.length_cons] at this
  simp only [List.length_cons]
  omega

/-- Lower case, IDNA labels as A-labels. -/
def normalizeDnsName (host : Bytes) (enableIdna : Bool) : Except NTSTATUS Bytes :=
  if host.length = 0 then .error statusInvalidParameter
  else if containsNonAscii host ∧ ¬ enableIdna then .error statusNotSupported
  else do
    let output ← normalizeLabels host []
    if output.length = 0 ∨ output.length > certificateMaxNormalizedDnsNameLength then
      .error statusInvalidParameter
    else .ok output

/-! ## Addresses -/

def isDecimalDigit (c : UInt8) : Bool := 48 ≤ c.toNat && c.toNat ≤ 57

/-- The digits of a part of `ParseIpv4Literal`. -/
def parseIpv4Part (digits : Bytes) : Option UInt8 :=
  if digits.length = 0 then none
  else do
    let value ← digits.foldlM (fun value c =>
      let value := value * 10 + (c.toNat - 48)
      if value > 255 then none else some value) 0
    some (UInt8.ofNat value)

/-- The loop of `ParseIpv4Literal`, at a part with `parts` parts behind it. -/
def parseIpv4Parts : ℕ → Bytes → Option Bytes
  | 0, host => do
    let value ← parseIpv4Part (host.takeWhile isDecimalDigit)
    if host.dropWhile isDecimalDigit = [] then some [value] else none
  | parts + 1, host => do
    let value ← parseIpv4Part (host.takeWhile isDecimalDigit)
    match host.dropWhile isDecimalDigit with
    | [] => none
    | d :: rest =>
      if d ≠ dot then none
      else do
        let values ← parseIpv4Parts parts rest
        some (value :: values)

def parseIpv4Literal (host : Bytes) : Option Bytes := parseIpv4Parts 3 host

/-- `HexValue`. -/
def hexDigit (c : UInt8) : Option ℕ :=
  if 48 ≤ c.toNat ∧ c.toNat ≤ 57 then some (c.toNat - 48)
  else if 97 ≤ c.toNat ∧ c.toNat ≤ 102 then some (10 + c.toNat - 97)
  else if 65 ≤ c.toNat ∧ c.toNat ≤ 70 then some (10 + c.toNat - 65)
  else none

/-- `':'`. -/
def colon : UInt8 := 58

/-- The groups of `ParseIpv6Literal` and the index of `::`. -/
def parseIpv6Groups (host : Bytes) (groups : List ℕ) (compressIndex : Option ℕ) :
    Option (List ℕ × Option ℕ) :=
  match host with
  | [] => some (groups, compressIndex)
  | c :: host =>
    if c = colon then
      match host with
      | [] => none
      | d :: rest =>
        if d ≠ colon ∨ compressIndex.isSome then none
        else parseIpv6Groups rest groups (some groups.length)
    else if groups.length ≥ 8 then none
    else
      let digits := (c :: host).takeWhile fun c => (hexDigit c).isSome
      if digits.length > 4 ∨ digits.length = 0 then none
      else
        let value := digits.foldl (fun value c => value * 16 + (hexDigit c).getD 0) 0
        match _h : (c :: host).dropWhile fun c => (hexDigit c).isSome with
        | [] => some (groups ++ [value], compressIndex)
        | [_] => none
        | d :: e :: rest =>
          if d ≠ colon then none
          else if e = colon then
            if compressIndex.isSome then none
            else parseIpv6Groups rest (groups ++ [value]) (some (groups.length + 1))
          else parseIpv6Groups (e :: rest) (groups ++ [value]) compressIndex
termination_by host.length
decreasing_by
  all_goals simp only [List.length_cons]
  · omega
  all_goals
    have := (List.dropWhile_suffix (fun c => (hexDigit c).isSome) (l := c :: host)).length_le
    rw [_h] at this
    simp only [List.length_cons] at this ⊢
    omega

/-- The end of `ParseIpv6Literal`: zeros in the place of `::`. -/
def expandIpv6Groups (groups : List ℕ) (compressIndex : Option ℕ) : Option (List ℕ) :=
  match compressIndex with
  | none => if groups.length ≠ 8 then none else some groups
  | some index =>
    if groups.length ≥ 8 then none
    else some (groups.take index ++ List.replicate (8 - groups.length) 0 ++ groups.drop index)

/-- What `ParseIpv6Literal` reads: the text between brackets. -/
def stripBrackets (host : Bytes) : Bytes :=
  if host.length ≥ 2 ∧ host.head? = some 91 ∧ host.getLast? = some 93 then
    (host.drop 1).dropLast
  else host

def parseIpv6Literal (host : Bytes) : Option Bytes :=
  if (stripBrackets host).length = 0 then none
  else do
    let (groups, compressIndex) ← parseIpv6Groups (stripBrackets host) [] none
    let groups ← expandIpv6Groups groups compressIndex
    some (groups.flatMap fun g => [UInt8.ofNat (g / 256), UInt8.ofNat g])

def parseIpLiteral (host : Bytes) : Option Bytes :=
  (parseIpv4Literal host).or (parseIpv6Literal host)

/-! ## Names of a certificate -/

/-- Equal up to case, or a wildcard for the first label. -/
def hostNameMatches (pattern host : Bytes) : Bool :=
  if pattern.length = 0 ∨ host.length = 0 then false
  else if pattern.length > 2 ∧ pattern[0]? = some 42 ∧ pattern[1]? = some dot then
    let suffix := pattern.drop 1
    if host.length ≤ suffix.length then false
    else
      let labelLength := host.length - suffix.length
      !(host.take labelLength).contains dot && textEqualsIgnoreCase suffix (host.drop labelLength)
  else textEqualsIgnoreCase pattern host

/-- An address matches an address entry, a name a name entry. -/
def validateHostName (leaf : ParsedCertificate) (hostName : Bytes) : Except NTSTATUS Unit :=
  if hostName.length = 0 then .error statusInvalidParameter
  else
    match parseIpLiteral hostName with
    | some hostAddress =>
      if leaf.ipAddresses.contains hostAddress then .ok () else .error statusTrustFailure
    | none =>
      if leaf.dnsNames.any fun pattern => hostNameMatches pattern hostName then .ok ()
      else .error statusTrustFailure

/-! ## What a normalized name is made of -/

/-- An octet that `NormalizeDnsName` writes. -/
def isNormalizedByte (c : UInt8) : Bool := (isValidDnsLabelByte c && !isUpperAscii c) || c == dot

/-- `output'` is `output` and more octets of a normalized name. -/
def Extends (output output' : Bytes) : Prop :=
  ∃ t, output' = output ++ t ∧ ∀ c ∈ t, isNormalizedByte c = true

theorem Extends.refl (output : Bytes) : Extends output output :=
  ⟨[], (List.append_nil _).symm, by simp⟩

theorem Extends.trans {c : Bytes} (hab : Extends a b) (hbc : Extends b c) : Extends a c := by
  obtain ⟨t, rfl, ht⟩ := hab
  obtain ⟨u, rfl, hu⟩ := hbc
  refine ⟨t ++ u, List.append_assoc _ _ _, fun c hc => ?_⟩
  rcases List.mem_append.1 hc with hc | hc
  · exact ht c hc
  · exact hu c hc

theorem appendOutputChar_eq
    (h : appendOutputChar output c = .ok output') : output' = output ++ [c] := by
  unfold appendOutputChar at h
  split_ifs at h
  exact (Except.ok.inj h).symm

theorem foldlM_appendOutputChar {cs : Bytes}
    (h : cs.foldlM appendOutputChar output = .ok output') : output' = output ++ cs := by
  induction cs generalizing output with
  | nil => simpa [pure, Except.pure] using (Except.ok.inj h).symm
  | cons c cs ih =>
    rw [List.foldlM_cons] at h
    obtain ⟨o, hc, h⟩ := bind_eq_ok h
    rw [ih h, appendOutputChar_eq hc, List.append_assoc, List.singleton_append]

theorem appendOutputChar_extends
    (h : appendOutputChar output c = .ok output') (hc : isNormalizedByte c = true) :
    Extends output output' :=
  ⟨[c], appendOutputChar_eq h, by simpa using hc⟩

theorem encodePunycodeDigit_normalized {digit : ℕ} (h : digit < 36) :
    isNormalizedByte (encodePunycodeDigit digit) = true := by
  have hall : ∀ d ∈ List.range 36, isNormalizedByte (encodePunycodeDigit d) = true := by decide
  exact hall digit (List.mem_range.2 h)

theorem appendPunycodeDelta_extends {bias q k : ℕ}
    (h : appendPunycodeDelta bias q k output = .ok output') : Extends output output' := by
  induction q using Nat.strongRecOn generalizing k output with
  | _ q ih =>
    rw [appendPunycodeDelta] at h
    set t := if k ≤ bias then 1 else if k ≥ bias + 26 then 26 else k - bias with ht
    have ht1 : 1 ≤ t ∧ t ≤ 26 := by
      rw [ht]
      split_ifs <;> omega
    split at h
    · exact appendOutputChar_extends h (encodePunycodeDigit_normalized (by omega))
    · have hmod : (q - t) % (36 - t) < 36 - t := Nat.mod_lt _ (by omega)
      split at h
      · cases h
      case _ o ho =>
        have hlt : (q - t) / (36 - t) < q := lt_of_le_of_lt (Nat.div_le_self _ _) (by omega)
        exact (appendOutputChar_extends ho (encodePunycodeDigit_normalized (by omega))).trans
          (ih _ hlt h)

variable {s s' : PunycodeState}

theorem punycodeCodePoint_extends
    (h : punycodeCodePoint n basicCount s codePoint = .ok s') : Extends s.output s'.output := by
  unfold punycodeCodePoint at h
  split_ifs at h
  · obtain rfl := Except.ok.inj h
    exact .refl _
  · obtain ⟨o, ha, h⟩ := bind_eq_ok h
    obtain rfl := Except.ok.inj h
    exact appendPunycodeDelta_extends ha
  · obtain rfl := Except.ok.inj h
    exact .refl _

theorem foldlM_punycodeCodePoint
    (h : codePoints.foldlM (punycodeCodePoint n basicCount) s = .ok s') :
    Extends s.output s'.output := by
  induction codePoints generalizing s with
  | nil =>
    obtain rfl := Except.ok.inj h
    exact .refl _
  | cons c codePoints ih =>
    rw [List.foldlM_cons] at h
    obtain ⟨s₁, hc, h⟩ := bind_eq_ok h
    exact (punycodeCodePoint_extends hc).trans (ih h)

theorem punycodeRounds_extends {rounds : ℕ}
    (h : punycodeRounds codePoints basicCount rounds n s = .ok output) :
    Extends s.output output := by
  induction rounds generalizing n s with
  | zero =>
    obtain rfl := Except.ok.inj h
    exact .refl _
  | succ rounds ih =>
    rw [punycodeRounds] at h
    dsimp only at h
    split_ifs at h
    · obtain rfl := Except.ok.inj h
      exact .refl _
    · generalize codePoints.foldl (fun m c => if n ≤ c ∧ c < m then c else m) 0x10ffff = m at h
      obtain ⟨s₁, hf, h⟩ := bind_eq_ok h
      split_ifs at h
      have hround := foldlM_punycodeCodePoint hf
      have hrest := ih h
      exact hround.trans hrest

/-! ### Code points -/

/-- An ASCII octet is its code point; another first octet starts a code point beyond ASCII. -/
theorem decodeUtf8CodePoint_cons {text : Bytes}
    (h : decodeUtf8CodePoint (c :: text) = .ok (codePoint, rest)) :
    (c.toNat < 0x80 ∧ codePoint = c.toNat ∧ rest = text) ∨ (0x80 ≤ c.toNat ∧ 0x80 ≤ codePoint) := by
  unfold decodeUtf8CodePoint at h
  dsimp only at h
  split_ifs at h with hc
  · obtain ⟨rfl, rfl⟩ := Prod.mk.inj (Except.ok.inj h)
    exact .inl ⟨hc, rfl, rfl⟩
  all_goals
    refine .inr ⟨by omega, ?_⟩
    obtain ⟨⟨value, rest'⟩, -, h⟩ := bind_eq_ok h
    split_ifs at h with hl
    obtain ⟨rfl, -⟩ := Prod.mk.inj (Except.ok.inj h)
    omega

theorem decodeLabel_cons (h : decodeLabel (c :: label) = .ok codePoints) :
    ∃ codePoint rest tail, decodeUtf8CodePoint (c :: label) = .ok (codePoint, rest) ∧
      (codePoint < 0x80 → isValidDnsLabelByte (UInt8.ofNat codePoint) = true) ∧
      decodeLabel rest = .ok tail ∧ codePoints = codePoint :: tail := by
  rw [decodeLabel] at h
  split at h
  · cases h
  case _ codePoint rest hd =>
    split_ifs at h with h1 h2
    split at h
    · cases h
    case _ tail ht =>
      refine ⟨codePoint, rest, tail, hd, fun hlt => ?_, ht, (Except.ok.inj h).symm⟩
      by_contra hv
      exact h2 ⟨hlt, hv⟩

/-- The code points below `0x80` are label octets. -/
theorem decodeLabel_valid (h : decodeLabel label = .ok codePoints) :
    ∀ c ∈ codePoints, c < 0x80 → isValidDnsLabelByte (UInt8.ofNat c) = true := by
  induction hn : label.length using Nat.strongRecOn generalizing label codePoints with
  | _ n ih =>
    cases label with
    | nil =>
      rw [decodeLabel] at h
      obtain rfl := Except.ok.inj h
      simp
    | cons c label =>
      obtain ⟨codePoint, rest, tail, hd, hv, ht, rfl⟩ := decodeLabel_cons h
      rintro d (_ | ⟨_, hmem⟩) hlt
      · exact hv hlt
      · exact ih _ (hn ▸ decodeUtf8CodePoint_length hd) ht rfl d hmem hlt

/-- An ASCII label is its own code points. -/
theorem decodeLabel_ascii
    (h : decodeLabel label = .ok codePoints) (ha : containsNonAscii label = false) :
    codePoints = label.map UInt8.toNat := by
  induction label generalizing codePoints with
  | nil =>
    rw [decodeLabel] at h
    exact (Except.ok.inj h).symm
  | cons c label ih =>
    obtain ⟨codePoint, rest, tail, hd, -, ht, rfl⟩ := decodeLabel_cons h
    simp only [containsNonAscii, List.any_cons, Bool.or_eq_false_iff, decide_eq_false_iff_not]
      at ha
    rcases decodeUtf8CodePoint_cons hd with ⟨-, rfl, rfl⟩ | ⟨hge, -⟩
    · rw [List.map_cons, ih ht ha.2]
    · omega

/-- A label with other octets has a code point beyond ASCII. -/
theorem decodeLabel_nonAscii
    (h : decodeLabel label = .ok codePoints) (ha : containsNonAscii label = true) :
    ∃ c ∈ codePoints, 0x80 ≤ c := by
  induction label generalizing codePoints with
  | nil => cases ha
  | cons c label ih =>
    obtain ⟨codePoint, rest, tail, hd, -, ht, rfl⟩ := decodeLabel_cons h
    rcases decodeUtf8CodePoint_cons hd with ⟨hlt, rfl, rfl⟩ | ⟨-, hge⟩
    · have hrest : containsNonAscii rest = true := by
        simp only [containsNonAscii, List.any_cons, Bool.or_eq_true, decide_eq_true_eq] at ha
        rcases ha with ha | ha
        · omega
        · exact ha
      obtain ⟨d, hmem, hd⟩ := ih ht hrest
      exact ⟨d, List.mem_cons_of_mem _ hmem, hd⟩
    · exact ⟨codePoint, List.mem_cons_self, hge⟩

theorem lowerCodePoint_normalized (hv : isValidDnsLabelByte (UInt8.ofNat codePoint) = true) :
    isNormalizedByte (lowerCodePoint codePoint) = true := by
  have hall : ∀ c : UInt8, isValidDnsLabelByte c = true →
      isNormalizedByte (toLowerAscii c) = true := by decide +kernel
  exact hall _ hv

/-! ### Labels and names -/

/-- What a label or a name becomes: octets of a normalized name, which are the text in lower
    case if it is ASCII and have an `x` otherwise. -/
structure Normalizes (text output : Bytes) : Prop where
  octets : ∀ c ∈ output, isNormalizedByte c = true
  ascii : containsNonAscii text = false → output = text.map toLowerAscii
  nonAscii : containsNonAscii text = true → (120 : UInt8) ∈ output

theorem encodeCodePoints_ascii
    (h : encodeCodePoints codePoints output = .ok encoded) (ha : ∀ c ∈ codePoints, c < 0x80) :
    encoded = output ++ codePoints.map lowerCodePoint := by
  have hf : codePoints.filter (· < 0x80) = codePoints :=
    List.filter_eq_self.2 fun c hc => decide_eq_true (ha c hc)
  unfold encodeCodePoints at h
  dsimp only at h
  rw [if_pos (by rw [hf])] at h
  exact foldlM_appendOutputChar h

theorem encodeCodePoints_nonAscii
    (h : encodeCodePoints codePoints output = .ok encoded) (hn : ∃ c ∈ codePoints, 0x80 ≤ c)
    (hv : ∀ c ∈ codePoints, c < 0x80 → isValidDnsLabelByte (UInt8.ofNat c) = true) :
    Extends (output ++ text "xn--") encoded := by
  have hlen : (codePoints.filter (· < 0x80)).length ≠ codePoints.length := by
    intro hlen
    obtain ⟨c, hc, hge⟩ := hn
    have := List.filter_eq_self.1 (List.filter_sublist.eq_of_length hlen) c hc
    have := of_decide_eq_true this
    omega
  unfold encodeCodePoints at h
  dsimp only at h
  rw [if_neg hlen] at h
  obtain ⟨o₁, h1, hr⟩ := bind_eq_ok h
  obtain rfl := foldlM_appendOutputChar h1
  obtain ⟨o₂, h2, hr'⟩ := bind_eq_ok hr
  obtain ⟨o₃, h3, hrounds⟩ := bind_eq_ok hr'
  have hbasic : Extends (output ++ text "xn--") o₂ := by
    refine ⟨_, foldlM_appendOutputChar h2, fun c hc => ?_⟩
    obtain ⟨d, hd, rfl⟩ := List.mem_map.1 hc
    obtain ⟨hmem, hlt⟩ := List.mem_filter.1 hd
    exact lowerCodePoint_normalized (hv d hmem (of_decide_eq_true hlt))
  have hhyphen : Extends o₂ o₃ := by
    unfold appendDelimiter at h3
    split_ifs at h3
    · exact appendOutputChar_extends h3 rfl
    · obtain rfl := Except.ok.inj h3
      exact .refl _
  exact (hbasic.trans hhyphen).trans (punycodeRounds_extends hrounds)

theorem punycodeEncodeLabel_normalizes (h : punycodeEncodeLabel label output = .ok encoded) :
    ∃ t, encoded = output ++ t ∧ Normalizes label t := by
  unfold punycodeEncodeLabel at h
  obtain ⟨codePoints, hd, h⟩ := bind_eq_ok h
  obtain ⟨encoded', he, h⟩ := bind_eq_ok h
  split_ifs at h
  obtain rfl := Except.ok.inj h
  have hv := decodeLabel_valid hd
  rcases ha : containsNonAscii label with _ | _
  · obtain rfl := decodeLabel_ascii hd ha
    have hlt : ∀ c ∈ label.map UInt8.toNat, c < 0x80 := by
      intro c hc
      obtain ⟨d, hd, rfl⟩ := List.mem_map.1 hc
      have := List.any_eq_false.1 ha d hd
      rw [decide_eq_true_eq] at this
      omega
    refine ⟨_, encodeCodePoints_ascii he hlt, fun c hc => ?_, fun _ => ?_, fun hn => ?_⟩
    · obtain ⟨d, hd, rfl⟩ := List.mem_map.1 hc
      exact lowerCodePoint_normalized (hv d hd (hlt d hd))
    · rw [List.map_map]
      refine List.map_congr_left fun c _ => ?_
      rw [Function.comp_apply, lowerCodePoint, UInt8.ofNat_toNat]
    · cases ha.symm.trans hn
  · obtain ⟨t, rfl, ht⟩ := encodeCodePoints_nonAscii he (decodeLabel_nonAscii hd ha) hv
    refine ⟨text "xn--" ++ t, List.append_assoc _ _ _, fun c hc => ?_, fun hn => ?_, fun _ => ?_⟩
    · rcases List.mem_append.1 hc with hc | hc
      · exact (show ∀ c ∈ text "xn--", isNormalizedByte c = true by decide +kernel) c hc
      · exact ht c hc
    · cases ha.symm.trans hn
    · exact List.mem_append_left _ (by decide +kernel)

theorem Normalizes.append {s t : Bytes} (hs : Normalizes a s) (ht : Normalizes b t) :
    Normalizes (a ++ b) (s ++ t) := by
  have hany : containsNonAscii (a ++ b) = (containsNonAscii a || containsNonAscii b) :=
    List.any_append
  refine ⟨fun c hc => ?_, fun h => ?_, fun h => ?_⟩
  · rcases List.mem_append.1 hc with hc | hc
    · exact hs.octets c hc
    · exact ht.octets c hc
  · rw [hany, Bool.or_eq_false_iff] at h
    rw [hs.ascii h.1, ht.ascii h.2, List.map_append]
  · rw [hany, Bool.or_eq_true] at h
    rcases h with h | h
    · exact List.mem_append_left _ (hs.nonAscii h)
    · exact List.mem_append_right _ (ht.nonAscii h)

theorem Normalizes.nil : Normalizes [] [] := ⟨by simp, fun _ => rfl, fun h => by cases h⟩

theorem Normalizes.dot : Normalizes [Tls.dot] [Tls.dot] :=
  ⟨by decide +kernel, fun _ => by decide +kernel, fun h => by cases h⟩

theorem normalizeLabels_normalizes (h : normalizeLabels host output = .ok encoded) :
    ∃ t, encoded = output ++ t ∧ Normalizes host t := by
  induction hn : host.length using Nat.strongRecOn generalizing host output with
  | _ n ih =>
    cases host with
    | nil =>
      rw [normalizeLabels] at h
      exact ⟨[], by simpa using (Except.ok.inj h).symm, .nil⟩
    | cons c host =>
      rw [normalizeLabels] at h
      split_ifs at h with hc
      split at h
      · cases h
      case _ o ho =>
        obtain ⟨t, rfl, ht⟩ := punycodeEncodeLabel_normalizes ho
        have hsplit := List.takeWhile_append_dropWhile (p := fun x => decide (x ≠ dot)) (l := host)
        split at h
        case h_1 hdrop =>
          rw [hdrop, List.append_nil] at hsplit
          rw [hsplit] at ht
          exact ⟨t, (Except.ok.inj h).symm, ht⟩
        case h_2 d rest hdrop =>
          have hd : d = dot := by
            have := List.head?_dropWhile_not (fun x => decide (x ≠ dot)) host
            rw [hdrop] at this
            simpa using this
          subst hd
          split at h
          · cases h
          case _ o' ho' =>
            rw [appendOutputChar_eq ho'] at h
            have hlt : rest.length < n := by
              rw [← hn, List.length_cons, ← hsplit, hdrop, List.length_append, List.length_cons]
              omega
            obtain ⟨u, rfl, hu⟩ := ih _ hlt h rfl
            refine ⟨t ++ ([dot] ++ u), by simp, ?_⟩
            have hall := ht.append (Normalizes.dot.append hu)
            rwa [List.singleton_append, ← hdrop, List.cons_append, hsplit] at hall

/-- What `NormalizeDnsName` does to a name. -/
theorem normalizeDnsName_normalizes
    (he : normalizeDnsName host enableIdna = .ok h) : h ≠ [] ∧ Normalizes host h := by
  unfold normalizeDnsName at he
  split_ifs at he
  obtain ⟨output, hl, he⟩ := bind_eq_ok he
  split_ifs at he with hlen
  obtain rfl := Except.ok.inj he
  obtain ⟨t, rfl, ht⟩ := normalizeLabels_normalizes hl
  refine ⟨fun hnil => hlen (.inl (by rw [hnil]; rfl)), ht⟩

theorem normalizeDnsName_ascii
    (he : normalizeDnsName host enableIdna = .ok h) (ha : containsNonAscii host = false) :
    h = host.map toLowerAscii :=
  (normalizeDnsName_normalizes he).2.ascii ha

/-! ### Addresses and normalized names -/

theorem parseIpv4Parts_octets {parts : ℕ} {values : Bytes}
    (h : parseIpv4Parts parts host = some values) :
    ∀ c ∈ host, isDecimalDigit c = true ∨ c = dot := by
  have hsplit (host : Bytes) : ∀ c ∈ host, isDecimalDigit c = true ∨
      c ∈ host.dropWhile isDecimalDigit := by
    intro c hc
    rw [← List.takeWhile_append_dropWhile (p := isDecimalDigit) (l := host)] at hc
    exact (List.mem_append.1 hc).imp_left List.mem_takeWhile_imp
  induction parts generalizing host values with
  | zero =>
    obtain ⟨value, -, h⟩ := Option.bind_eq_some_iff.1 h
    split_ifs at h with hd
    intro c hc
    have := hsplit host c hc
    rw [hd] at this
    exact this.imp_right fun h => by cases h
  | succ parts ih =>
    obtain ⟨value, -, h⟩ := Option.bind_eq_some_iff.1 h
    split at h
    · cases h
    case _ d rest hd =>
      split_ifs at h with hdot
      obtain ⟨values', hrec, -⟩ := Option.bind_eq_some_iff.1 h
      intro c hc
      have := hsplit host c hc
      rw [hd] at this
      rcases this with hc | hc
      · exact .inl hc
      rcases List.mem_cons.1 hc with rfl | hc
      · exact .inr (not_not.1 hdot)
      · exact ih hrec c hc

theorem parseIpv6Groups_colon {groups groups' : List ℕ} {index index' : Option ℕ}
    (h : parseIpv6Groups host groups index = some (groups', index')) (hc : colon ∉ host) :
    index' = index ∧ groups'.length ≤ groups.length + 1 := by
  unfold parseIpv6Groups at h
  split at h
  · obtain ⟨rfl, rfl⟩ := Prod.mk.inj (Option.some.inj h)
    exact ⟨rfl, by omega⟩
  case _ c host =>
    rw [List.mem_cons, not_or] at hc
    rw [if_neg (Ne.symm hc.1)] at h
    split at h
    · cases h
    dsimp only at h
    split at h
    · cases h
    split at h
    · obtain ⟨rfl, rfl⟩ := Prod.mk.inj (Option.some.inj h)
      exact ⟨rfl, by simp⟩
    · cases h
    case _ d e rest hdrop =>
      have hmem : d ∈ c :: host :=
        (List.dropWhile_suffix _).subset (hdrop ▸ List.mem_cons_self)
      have hd : d ≠ colon := by
        rintro rfl
        rcases List.mem_cons.1 hmem with h' | h'
        · exact hc.1 h'
        · exact hc.2 h'
      rw [if_pos hd] at h
      cases h

theorem stripBrackets_subset (host : Bytes) : ∀ c ∈ stripBrackets host, c ∈ host := by
  intro c hc
  unfold stripBrackets at hc
  split_ifs at hc
  · exact List.mem_of_mem_drop (List.mem_of_mem_dropLast hc)
  · exact hc

/-- An IPv6 address has a colon. -/
theorem parseIpv6Literal_colon {address : Bytes} (h : parseIpv6Literal host = some address) :
    colon ∈ host := by
  by_contra hc
  unfold parseIpv6Literal at h
  split_ifs at h
  obtain ⟨⟨groups, index⟩, hg, h⟩ := Option.bind_eq_some_iff.1 h
  obtain ⟨expanded, he, -⟩ := Option.bind_eq_some_iff.1 h
  obtain ⟨rfl, hlen⟩ := parseIpv6Groups_colon hg fun hm => hc (stripBrackets_subset host _ hm)
  rw [List.length_nil] at hlen
  unfold expandIpv6Groups at he
  dsimp only at he
  rw [if_pos (by omega)] at he
  cases he

theorem parseIpLiteral_normalizeDnsName
    (he : normalizeDnsName host enableIdna = .ok h) (hip : parseIpLiteral host = none) :
    parseIpLiteral h = none := by
  obtain ⟨-, hn⟩ := normalizeDnsName_normalizes he
  obtain ⟨h4, h6⟩ := Option.or_eq_none_iff.1 hip
  refine Option.or_eq_none_iff.2 ⟨?_, ?_⟩
  · rcases h' : parseIpv4Literal h with _ | address
    · rfl
    have hoct := parseIpv4Parts_octets h'
    have hascii : containsNonAscii host = false := by
      by_contra hna
      rw [Bool.not_eq_false] at hna
      rcases hoct _ (hn.nonAscii hna) with hx | hx <;> revert hx <;> decide
    have hsame : ∀ c ∈ host, toLowerAscii c = id c := by
      intro c hc
      have hmem : toLowerAscii c ∈ h := hn.ascii hascii ▸ List.mem_map_of_mem hc
      have hlow := hoct _ hmem
      rw [toLowerAscii]
      split_ifs with hup
      · exfalso
        rw [toLowerAscii, if_pos hup] at hlow
        simp only [isUpperAscii, isDecimalDigit, Bool.and_eq_true, decide_eq_true_eq] at hup hlow
        rcases hlow with hlow | hlow
        · rw [UInt8.toNat_add] at hlow
          have : (32 : UInt8).toNat = 32 := rfl
          omega
        · have := congrArg UInt8.toNat hlow
          rw [UInt8.toNat_add] at this
          have h32 : (32 : UInt8).toNat = 32 := rfl
          have hdot : dot.toNat = 46 := rfl
          omega
      · rfl
    rw [hn.ascii hascii, List.map_congr_left hsame, List.map_id] at h'
    rw [h4] at h'
    cases h'
  · rcases h' : parseIpv6Literal h with _ | address
    · rfl
    exact absurd (hn.octets _ (parseIpv6Literal_colon h')) (by decide)

theorem parseIpLiteral_normalizeDnsName_upper :
    normalizeDnsName (text "1.2.3.A") true = .ok (text "1.2.3.a") ∧
      parseIpLiteral (text "1.2.3.a") = none := by
  have he : normalizeDnsName (text "1.2.3.A") true = .ok (text "1.2.3.a") := by decide +kernel
  exact ⟨he, parseIpLiteral_normalizeDnsName he (by decide +kernel)⟩

end KernelHttp.Tls
