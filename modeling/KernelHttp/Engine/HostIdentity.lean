/-
  The host that is connected to and the host that is verified.

  The URL parser and the certificate validator have their own copies of `PunycodeEncodeLabel`.
-/
import KernelHttp.Engine.UrlAgreement
import KernelHttp.Tls.AddressLiterals

namespace KernelHttp.Engine

open Incremental Tls

/-! ## The functions of `UrlParser.cpp` -/

namespace UrlParser

def decodeUtf8CodePoint (text : Bytes) : Except NTSTATUS (ℕ × Bytes) := Tls.decodeUtf8CodePoint text

def adaptPunycodeBias (delta numPoints : ℕ) (firstTime : Bool) : ℕ :=
  Tls.adaptPunycodeBias delta numPoints firstTime

def appendOutputChar (capacity : ℕ) (output : Bytes) (c : UInt8) : Except NTSTATUS Bytes :=
  @Tls.appendOutputChar ⟨capacity⟩ output c

def punycodeEncodeLabel (capacity : ℕ) (label output : Bytes) : Except NTSTATUS Bytes :=
  @Tls.punycodeEncodeLabel ⟨capacity⟩ label output

/-- They are the functions of `CertificateValidator.cpp`, with buffers of one capacity. -/
theorem functions_eq : decodeUtf8CodePoint = Tls.decodeUtf8CodePoint ∧
    adaptPunycodeBias = Tls.adaptPunycodeBias ∧ appendOutputChar 256 = Tls.appendOutputChar ∧
    punycodeEncodeLabel 256 = Tls.punycodeEncodeLabel := ⟨rfl, rfl, rfl, rfl⟩

end UrlParser

section

variable (capacity : ℕ)

/-- `NormalizeDnsName`, into a buffer of any capacity. -/
def normalizeDnsNameInto (host : Bytes) (enableIdna : Bool) : Except NTSTATUS Bytes :=
  if host.length = 0 ∨ capacity = 0 then .error statusInvalidParameter
  else if containsNonAscii host ∧ ¬ enableIdna then .error statusNotSupported
  else do
    let output ← @normalizeLabels ⟨capacity⟩ host []
    if output.length = 0 ∨ output.length > certificateMaxNormalizedDnsNameLength ∨
        output.length ≥ capacity then
      .error statusInvalidParameter
    else .ok output

/-! ## `NormalizeDnsHost` -/

def labelEnd (host : Bytes) (labelStart : ℕ) : ℕ :=
  labelStart + ((host.drop labelStart).takeWhile (· ≠ dot)).length

/-- The loop of `NormalizeDnsHost`, from an offset. -/
def normalizeHostFrom (host : Bytes) (labelStart : ℕ) (output : Bytes) :
    Except NTSTATUS Bytes :=
  if _h : labelStart < host.length then
    let inputOffset := labelEnd host labelStart
    let labelLength := inputOffset - labelStart
    if labelLength = 0 then .error statusInvalidParameter
    else
      match UrlParser.punycodeEncodeLabel capacity ((host.drop labelStart).take labelLength) output with
      | .error status => .error status
      | .ok output =>
        if inputOffset < host.length then
          match UrlParser.appendOutputChar capacity output dot with
          | .error status => .error status
          | .ok output => normalizeHostFrom host (inputOffset + 1) output
        else .ok output
  else .ok output
termination_by host.length - labelStart
decreasing_by
  have hend : labelStart ≤ labelEnd host labelStart := Nat.le_add_right _ _
  omega

def normalizeDnsHost (host : Bytes) : Except NTSTATUS Bytes :=
  if host.length = 0 ∨ capacity = 0 then .error statusInvalidParameter
  else do
    let output ← normalizeHostFrom capacity host 0 []
    if output.length = 0 ∨ output.length > 255 ∨ output.length ≥ capacity then
      .error statusInvalidParameter
    else .ok output

theorem labelEnd_sub (host : Bytes) (labelStart : ℕ) :
    labelEnd host labelStart - labelStart =
      ((host.drop labelStart).takeWhile (· ≠ dot)).length :=
  Nat.add_sub_cancel_left _ _

theorem take_takeWhile (t : Bytes) (p : UInt8 → Bool) :
    t.take (t.takeWhile p).length = t.takeWhile p :=
  (List.prefix_iff_eq_take.1 (List.takeWhile_prefix p)).symm

theorem drop_labelEnd (host : Bytes) (labelStart : ℕ) :
    host.drop (labelEnd host labelStart) = (host.drop labelStart).dropWhile (· ≠ dot) := by
  rw [labelEnd, ← List.drop_drop]
  generalize host.drop labelStart = t
  induction t with
  | nil => rfl
  | cons c t ih =>
    rw [List.takeWhile_cons, List.dropWhile_cons]
    split
    · rwa [List.length_cons, List.drop_succ_cons]
    · rfl

theorem normalizeHostFrom_eq (host : Bytes) (labelStart : ℕ) (output : Bytes) :
    normalizeHostFrom capacity host labelStart output =
      @normalizeLabels ⟨capacity⟩ (host.drop labelStart) output := by
  induction hn : host.length - labelStart using Nat.strongRecOn generalizing labelStart output with
  | _ n ih =>
    rw [normalizeHostFrom]
    by_cases hlt : labelStart < host.length
    · obtain ⟨c, rest, hdrop⟩ : ∃ c rest, host.drop labelStart = c :: rest :=
        List.exists_cons_of_ne_nil (mt List.drop_eq_nil_iff.1 (Nat.not_le.2 hlt))
      have hlabel := labelEnd_sub host labelStart
      rw [dif_pos hlt, hdrop, @normalizeLabels.eq_2 ⟨capacity⟩]
      rw [hdrop] at hlabel
      by_cases hc : c = dot
      · rw [if_pos hc, if_pos]
        rw [hlabel, hc]
        rfl
      · have htake : (c :: rest).takeWhile (· ≠ dot) = c :: rest.takeWhile (· ≠ dot) :=
          List.takeWhile_cons_of_pos (decide_eq_true hc)
        have hne : labelEnd host labelStart - labelStart ≠ 0 := by
          rw [hlabel, htake]
          exact Nat.succ_ne_zero _
        rw [if_neg hc, if_neg hne, hlabel, take_takeWhile, htake, UrlParser.punycodeEncodeLabel]
        cases @punycodeEncodeLabel ⟨capacity⟩ (c :: rest.takeWhile (· ≠ dot)) output with
        | error status => rfl
        | ok encoded =>
          -- what stands behind the label
          have hbehind := drop_labelEnd host labelStart
          have hcdecide : decide (c ≠ dot) = true := decide_eq_true hc
          rw [hdrop, List.dropWhile_cons, if_pos hcdecide] at hbehind
          dsimp only
          cases hend : rest.dropWhile (· ≠ dot) with
          | nil => rw [if_neg (Nat.not_lt.2 (List.drop_eq_nil_iff.1 (hbehind.trans hend)))]
          | cons d rest' =>
            have hinside : labelEnd host labelStart < host.length := by
              by_contra hle
              rw [List.drop_eq_nil_iff.2 (Nat.not_lt.1 hle), hend] at hbehind
              cases hbehind
            have hnext : host.drop (labelEnd host labelStart + 1) = rest' := by
              rw [← List.drop_drop, hbehind, hend]
              rfl
            rw [if_pos hinside, UrlParser.appendOutputChar]
            cases @appendOutputChar ⟨capacity⟩ encoded dot with
            | error status => rfl
            | ok encoded =>
              have hstart : labelStart ≤ labelEnd host labelStart := Nat.le_add_right _ _
              exact (ih _ (by omega) _ encoded rfl).trans (by rw [hnext])
    · rw [dif_neg hlt, List.drop_eq_nil_iff.2 (Nat.not_lt.1 hlt), @normalizeLabels.eq_1 ⟨capacity⟩]

/-- **`NormalizeDnsHost` and `NormalizeDnsName` agree.** -/
theorem normalizeDnsHost_eq (host : Bytes) :
    normalizeDnsHost capacity host = normalizeDnsNameInto capacity host true := by
  rw [normalizeDnsHost, normalizeDnsNameInto, normalizeHostFrom_eq, List.drop_zero,
    if_neg (by simp : ¬ (containsNonAscii host = true ∧ ¬ true = true))]
  rfl

end

/-! ## The capacity of the callers -/

theorem normalizeDnsNameInto_eq (host : Bytes) (enableIdna : Bool) :
    normalizeDnsNameInto 256 host enableIdna = normalizeDnsName host enableIdna := by
  rw [normalizeDnsNameInto, normalizeDnsName]
  have hguard : (host.length = 0 ∨ 256 = 0) = (host.length = 0) := by simp
  have hlimit (n : ℕ) : (n = 0 ∨ n > certificateMaxNormalizedDnsNameLength ∨ n ≥ 256) =
      (n = 0 ∨ n > certificateMaxNormalizedDnsNameLength) := by
    rw [certificateMaxNormalizedDnsNameLength]
    simp only [eq_iff_iff]
    omega
  simp only [hguard, hlimit]
  rfl

theorem normalizeDnsHost_callers (host : Bytes) :
    normalizeDnsHost 256 host = normalizeDnsName host true := by
  rw [normalizeDnsHost_eq, normalizeDnsNameInto_eq]

/-! ## Accepted hosts -/

theorem parseUrlParts_host {websocketUrl : Bool} {schemeCapacity pathCapacity : ℕ} {url : Bytes}
    {parts : UrlParts}
    (h : parseUrlParts websocketUrl schemeCapacity pathCapacity url = .ok parts) :
    HostText parts.host := by
  unfold parseUrlParts at h
  dsimp only at h
  split_ifs at h with _ _ _ hat
  obtain ⟨⟨host, ipv6Literal, portText⟩, hsplit, h⟩ := bind_eq_ok h
  dsimp only at h
  split_ifs at h with hvalid
  obtain ⟨port, -, h⟩ := bind_eq_ok h
  obtain ⟨path, -, h⟩ := bind_eq_ok h
  obtain ⟨scheme, -, h⟩ := bind_eq_ok h
  obtain ⟨host', hhost, h⟩ := bind_eq_ok h
  obtain rfl := Except.ok.inj h
  obtain ⟨hmem, hliteral⟩ := splitAuthority_ok hsplit
  refine copyNormalizedHostText_ok hhost hvalid hliteral ?_
  intro c hc
  have hends := List.mem_takeWhile_imp (hmem c hc)
  have hne : c ≠ atSign := fun h => hat (h ▸ hmem c hc)
  simp only [not_or, decide_eq_true_eq] at hends
  simp [hends, hne]

variable {host : Bytes}

theorem LiteralText.ascii (h : LiteralText host) :
    containsNonAscii host = false := by
  refine List.any_eq_false.2 fun c hc => ?_
  have hbyte := h.octets c hc
  simp only [isLiteralByte, Bool.and_eq_true, decide_eq_true_eq] at hbyte
  rw [decide_eq_true_eq]
  omega

/-- A host that stood in brackets is no name. -/
theorem LiteralText.refused (h : LiteralText host) (enableIdna : Bool) :
    ∃ status, normalizeDnsName host enableIdna = .error status := by
  cases hname : normalizeDnsName host enableIdna with
  | error status => exact ⟨status, rfl⟩
  | ok name =>
    obtain ⟨-, -, htext⟩ := normalizeDnsName_text hname
    obtain rfl := normalizeDnsName_ascii hname h.ascii
    exact absurd (by decide) (htext.delimiter _ (mem_map_toLowerAscii_colon h.colon))

/-- What the certificate validator makes of an accepted host. -/
structure VerifiedAsConnected (host : Bytes) : Prop where
  name : colon ∉ host → normalizeDnsName host true = .ok host
  bracketed : colon ∈ host → ∃ status, normalizeDnsName host true = .error status

/-- **A host that the URL parser accepts is verified under the same name, or not at all.** -/
theorem HostText.verified (h : HostText host) : VerifiedAsConnected host := by
  cases h with
  | name hne hle ht =>
    refine ⟨fun _ => normalizeDnsName_of_text hne hle ht true, fun hcolon => ?_⟩
    exact absurd (by decide) (ht.delimiter colon hcolon)
  | literal ht => exact ⟨fun hcolon => absurd ht.colon hcolon, fun _ => ht.refused true⟩

/-- **The host that is connected to is the host that is verified.** -/
theorem hosts_agree :
    (∀ (capacity : ℕ) (host : Bytes),
      normalizeDnsHost capacity host = normalizeDnsNameInto capacity host true) ∧
    (∀ host : Bytes, normalizeDnsHost 256 host = normalizeDnsName host true) ∧
    (∀ (url : Bytes) (parts : UrlParts), parseUrlIntoRequest url = .ok parts →
      VerifiedAsConnected parts.host) ∧
    (∀ (websocketUrl : Bool) (schemeCapacity pathCapacity : ℕ) (url : Bytes) (parts : UrlParts),
      parseUrlParts websocketUrl schemeCapacity pathCapacity url = .ok parts →
      VerifiedAsConnected parts.host) ∧
    ∀ host address : Bytes, parseIpLiteral host = some address ↔ AddressText host address :=
  ⟨normalizeDnsHost_eq, normalizeDnsHost_callers, fun _ _ h => (parseUrl_urlText h).host.verified,
    fun _ _ _ _ _ h => (parseUrlParts_host h).verified, parseIpLiteral_eq_some⟩

/-- `https://[a:g]/` -/
def bracketedUrl : Bytes := text "https://[a:g]/"

/-- A name with a colon in brackets is accepted, and it is neither an address nor a name. -/
theorem bracketedHost_noName : ∃ parts, parseUrlIntoRequest bracketedUrl = .ok parts ∧
    parseIpLiteral parts.host = none ∧
    normalizeDnsName parts.host true = .error statusInvalidParameter := by
  refine ⟨⟨text "https", text "a:g", text "/", 443⟩, ?_, ?_, ?_⟩
  all_goals decide +kernel

end KernelHttp.Engine
