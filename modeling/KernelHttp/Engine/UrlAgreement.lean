/-
  The two URL parsers, and what they accept (`engine/UrlParser.cpp`).

  `UrlText` says what an accepted URL is made of; its parts are read back from the URL they make.
-/
import KernelHttp.Engine.Punycode
import KernelHttp.Engine.RedirectChain
import KernelHttp.Http1.RequestRoundTrip

namespace KernelHttp.Engine

open Incremental Http1

/-! ## The second parser -/

/-- The scheme is one that `ParseUrlParts` takes. -/
def isSupportedScheme (websocketUrl : Bool) (scheme : Bytes) : Bool :=
  if websocketUrl then
    textEqualsIgnoreCase scheme (text "ws") || textEqualsIgnoreCase scheme (text "wss")
  else textEqualsIgnoreCase scheme (text "http") || textEqualsIgnoreCase scheme (text "https")

/-- The port of an authority in `ParseUrlParts`. -/
def partsPort (scheme : Bytes) : Option Bytes → Except NTSTATUS ℕ
  | none =>
    .ok (if textEqualsIgnoreCase scheme (text "https") ∨ textEqualsIgnoreCase scheme (text "wss")
      then 443 else 80)
  | some t => parsePort t

/-- The request target in `ParseUrlParts`. -/
def partsTarget (pathCapacity : ℕ) (rest : Bytes) : Except NTSTATUS Bytes :=
  let target := rest.takeWhile (· ≠ hash)
  if target.length = 0 then
    if pathCapacity < 2 then .error statusBufferTooSmall else .ok [slash]
  else
    let queryOnly := target.head? = some question
    let requestTargetLength := target.length + (if queryOnly then 1 else 0)
    if requestTargetLength ≥ pathCapacity then .error statusBufferTooSmall
    else if ¬ isValidRequestTargetText target then .error statusInvalidParameter
    else .ok ((if queryOnly then [slash] else []) ++ target)

/-- `ParseUrlParts`, into a host of `KhMaxHostLength + 1` octets. -/
def parseUrlParts (websocketUrl : Bool) (schemeCapacity pathCapacity : ℕ) (url : Bytes) :
    Except NTSTATUS UrlParts :=
  let scheme := url.takeWhile (· ≠ colon)
  let behind := url.dropWhile (· ≠ colon)
  if scheme = [] ∨ behind.length < 3 ∨ (behind.drop 1).take 2 ≠ [slash, slash] then
    .error statusInvalidParameter
  else if ¬ isSupportedScheme websocketUrl scheme then .error statusNotSupported
  else
    let ends := fun c => c = slash ∨ c = question ∨ c = hash
    let authority := (behind.drop 3).takeWhile fun c => ¬ ends c
    if authority = [] then .error statusInvalidParameter
    else if atSign ∈ authority then .error statusNotSupported
    else do
      let (host, ipv6Literal, portText) ← splitAuthority authority
      if ¬ isValidHostText host ipv6Literal then .error statusInvalidParameter
      else do
        let port ← partsPort scheme portText
        let path ← partsTarget pathCapacity ((behind.drop 3).dropWhile fun c => ¬ ends c)
        let scheme ← copyLowerText scheme schemeCapacity
        let host ← copyNormalizedHostText host ipv6Literal
        .ok ⟨scheme, host, path, port⟩

variable {ipv6Literal : Bool} {scheme rest url t path host : Bytes} {r : KhRequest} {c : UInt8}
    {parts : UrlParts} {n value capacity : ℕ}

theorem partsPort_eq (h : isSupportedScheme false scheme = true) :
    partsPort scheme = parsePortOrDefault scheme := by
  have hwss : ¬ textEqualsIgnoreCase scheme (text "wss") = true := by
    intro hwss
    rw [textEqualsIgnoreCase_iff] at hwss
    simp only [isSupportedScheme, Bool.false_eq_true, if_false, Bool.or_eq_true,
      textEqualsIgnoreCase_iff, hwss] at h
    revert h
    decide +kernel
  funext t
  cases t with
  | none => simp [partsPort, parsePortOrDefault, hwss]
  | some t => rfl

theorem partsTarget_eq : partsTarget (khMaxPathLength + 1) = parseTarget := by
  funext rest
  unfold partsTarget parseTarget
  dsimp only
  by_cases hnil : rest.takeWhile (· ≠ hash) = []
  · rw [if_pos hnil, if_pos (List.length_eq_zero_iff.2 hnil)]
    rfl
  · rw [if_neg hnil, if_neg (mt List.length_eq_zero_iff.1 hnil)]
    simp only [ge_iff_le, Nat.succ_le_iff, gt_iff_lt]
    by_cases hq : (rest.takeWhile (· ≠ hash)).head? = some question
    · simp only [hq, if_true, List.singleton_append]
    · simp only [hq, if_false, List.nil_append]

theorem behind_iff (behind : Bytes) (hcolon : behind.head? = some colon ∨ behind = []) :
    (behind.length < 3 ∨ (behind.drop 1).take 2 ≠ [slash, slash]) ↔
      ∀ rest, behind ≠ 58 :: 47 :: 47 :: rest := by
  match behind, hcolon with
  | [], _ => simp
  | [c], _ => simp
  | [c, d], _ => simp
  | c :: d :: e :: rest, hcolon =>
    have hc : c = 58 := by simpa [colon] using hcolon
    subst hc
    simp only [List.length_cons, List.drop_succ_cons, List.drop_zero, List.take_succ_cons,
      List.take_zero, ne_eq, List.cons.injEq, slash]
    constructor
    · rintro (hlt | hne) rest' ⟨-, hd, he, -⟩
      · omega
      · exact hne ⟨hd, he, trivial⟩
    · exact fun h => .inr fun ⟨hd, he, _⟩ => h rest ⟨trivial, hd, he, rfl⟩

theorem dropWhile_head (url : Bytes) :
    (url.dropWhile (· ≠ colon)).head? = some colon ∨ url.dropWhile (· ≠ colon) = [] := by
  cases h : url.dropWhile (· ≠ colon) with
  | nil => exact .inr rfl
  | cons c rest =>
    have := List.head_dropWhile_not (fun c : UInt8 => decide (c ≠ colon)) (l := url)
      (by rw [h]; exact List.cons_ne_nil _ _)
    simp only [h, List.head_cons, decide_eq_false_iff_not, not_not] at this
    exact .inl (by rw [this]; rfl)

theorem parseUrlIntoRequest_of_behind (h : url.dropWhile (· ≠ colon) = 58 :: 47 :: 47 :: rest) :
    parseUrlIntoRequest url =
      if url.takeWhile (· ≠ colon) = [] then .error statusInvalidParameter
      else if ¬ isSupportedScheme false (url.takeWhile (· ≠ colon)) then .error statusNotSupported
      else parseHierarchy (url.takeWhile (· ≠ colon)) rest := by
  simp only [parseUrlIntoRequest, h, isSupportedScheme, Bool.false_eq_true, if_false,
    Bool.or_eq_true, not_or]

theorem parseUrlIntoRequest_of_not_behind
    (h : ∀ rest, url.dropWhile (· ≠ colon) ≠ 58 :: 47 :: 47 :: rest) :
    parseUrlIntoRequest url = .error statusInvalidParameter := by
  unfold parseUrlIntoRequest
  generalize url.dropWhile (· ≠ colon) = behind at h
  split
  · exact absurd rfl (h _)
  · rfl

/-- **The two parsers agree.** -/
theorem parseUrlParts_eq (url : Bytes) :
    parseUrlParts false (khMaxSchemeLength + 1) (khMaxPathLength + 1) url =
      parseUrlIntoRequest url := by
  have hbehind := behind_iff _ (dropWhile_head url)
  by_cases h : ∃ rest, url.dropWhile (· ≠ colon) = 58 :: 47 :: 47 :: rest
  · obtain ⟨rest, hrest⟩ := h
    rw [parseUrlIntoRequest_of_behind hrest]
    unfold parseUrlParts
    rw [hrest]
    simp only [List.drop_succ_cons, List.drop_zero, partsTarget_eq]
    by_cases hnil : url.takeWhile (· ≠ colon) = []
    · rw [if_pos hnil, if_pos (.inl hnil)]
    · have hthree : ¬ (url.takeWhile (· ≠ colon) = [] ∨ (58 :: 47 :: 47 :: rest).length < 3 ∨
          (47 :: 47 :: rest).take 2 ≠ [slash, slash]) := by
        rintro (h | h | h)
        · exact hnil h
        · exact absurd h (by simp)
        · exact h rfl
      rw [if_neg hnil, if_neg hthree]
      by_cases hs : isSupportedScheme false (url.takeWhile (· ≠ colon)) = true
      · rw [if_neg (not_not.2 hs), if_neg (not_not.2 hs), partsPort_eq hs]
        rfl
      · rw [if_pos hs, if_pos hs]
  · rw [parseUrlIntoRequest_of_not_behind fun rest hrest => h ⟨rest, hrest⟩]
    exact if_pos (.inr (hbehind.2 fun rest hrest => h ⟨rest, hrest⟩))

/-! ## Request targets -/

/-- Every `'%'` of the text is followed by two hexadecimal digits. -/
def EscapesComplete (t : Bytes) : Prop :=
  ∀ a b, t = a ++ percent :: b →
    ∃ d e rest, b = d :: e :: rest ∧ isHexDigit d = true ∧ isHexDigit e = true

theorem isHexDigit_spec (h : isHexDigit c = true) :
    isValidRequestTargetByte c = true ∧ c ≠ percent := by
  revert c
  decide +kernel

theorem escapesComplete_cons (hc : c ≠ percent) :
    EscapesComplete (c :: t) ↔ EscapesComplete t := by
  constructor
  · rintro h a b rfl
    exact h (c :: a) b rfl
  · rintro h a b hab
    cases a with
    | nil => exact absurd (List.cons.inj hab).1 hc
    | cons x a => exact h a b (List.cons.inj hab).2

theorem escapesComplete_percent {d e : UInt8} :
    EscapesComplete (percent :: d :: e :: t) ↔
      isHexDigit d = true ∧ isHexDigit e = true ∧ EscapesComplete t := by
  constructor
  · intro h
    obtain ⟨d', e', rest, hb, hd, he⟩ := h [] (d :: e :: t) rfl
    obtain ⟨rfl, rfl, -⟩ : d = d' ∧ e = e' ∧ t = rest := by simpa using hb
    have hdn := (isHexDigit_spec hd).2
    have hen := (isHexDigit_spec he).2
    refine ⟨hd, he, ?_⟩
    rintro a b rfl
    exact h (percent :: d :: e :: a) b rfl
  · rintro ⟨hd, he, h⟩ a b hab
    match a with
    | [] => exact ⟨d, e, t, (List.cons.inj hab).2.symm, hd, he⟩
    | x :: a =>
      have htail := (escapesComplete_cons (isHexDigit_spec hd).2).2
        ((escapesComplete_cons (isHexDigit_spec he).2).2 h)
      exact htail a b (List.cons.inj hab).2

/-- What the check of a request target accepts. -/
theorem isValidRequestTargetText_iff (t : Bytes) :
    isValidRequestTargetText t = true ↔
      (∀ c ∈ t, isValidRequestTargetByte c = true) ∧ EscapesComplete t := by
  fun_induction isValidRequestTargetText t with
  | case1 => simp [EscapesComplete]
  | case2 c rest ihEscape ih =>
    by_cases hc : c = percent
    · subst hc
      rw [if_pos rfl]
      have hincomplete : rest.length < 2 → ¬ EscapesComplete (percent :: rest) := by
        intro hlt h
        obtain ⟨d, e, rest', rfl, -⟩ := h [] rest rfl
        exact absurd hlt (by simp)
      match rest with
      | [] => simp [hincomplete]
      | [d] => simp [hincomplete]
      | d :: e :: rest =>
        rw [escapesComplete_percent]
        simp only [Bool.and_eq_true, ihEscape, List.forall_mem_cons]
        constructor
        · rintro ⟨hp, ⟨hd, he⟩, hall, hrest⟩
          exact ⟨⟨hp, (isHexDigit_spec hd).1, (isHexDigit_spec he).1, hall⟩, hd, he, hrest⟩
        · rintro ⟨⟨hp, -, -, hall⟩, hd, he, hrest⟩
          exact ⟨hp, ⟨hd, he⟩, hall, hrest⟩
    · rw [if_neg hc, escapesComplete_cons hc, Bool.and_eq_true, ih, List.forall_mem_cons,
        and_assoc]

/-- A target of the request line, which begins with `'/'`. -/
structure TargetText (t : Bytes) : Prop where
  slash : ∃ rest, t = slash :: rest
  octets : ∀ c ∈ t, 0x20 < c.toNat ∧ c.toNat ≠ 0x7f ∧ c ≠ hash
  escapes : EscapesComplete t
  le : t.length ≤ khMaxPathLength

theorem isValidRequestTargetByte_iff :
    isValidRequestTargetByte c = true ↔ 0x20 < c.toNat ∧ c.toNat ≠ 0x7f := by
  simp [isValidRequestTargetByte]

theorem targetText_of_valid (hslash : ∃ rest, t = slash :: rest) (hhash : hash ∉ t)
    (hvalid : isValidRequestTargetText t = true) (hle : t.length ≤ khMaxPathLength) :
    TargetText t := by
  obtain ⟨hall, hescapes⟩ := (isValidRequestTargetText_iff t).1 hvalid
  refine ⟨hslash, ?_, hescapes, hle⟩
  intro c hc
  obtain ⟨hgt, hne⟩ := isValidRequestTargetByte_iff.1 (hall c hc)
  exact ⟨hgt, hne, fun h => hhash (h ▸ hc)⟩

theorem TargetText.valid (h : TargetText t) : isValidRequestTargetText t = true :=
  (isValidRequestTargetText_iff t).2
    ⟨fun c hc => isValidRequestTargetByte_iff.2 ⟨(h.octets c hc).1, (h.octets c hc).2.1⟩, h.escapes⟩

theorem hash_not_mem_takeWhile (rest : Bytes) : hash ∉ rest.takeWhile (· ≠ hash) := by
  intro hmem
  have := List.mem_takeWhile_imp hmem
  simp at this

theorem parseTarget_ok (h : parseTarget rest = .ok path)
    (hhead : ∀ c, rest.head? = some c → c = slash ∨ c = question ∨ c = hash) :
    TargetText path := by
  have hhash := hash_not_mem_takeWhile rest
  have hstarts : ∀ c, (rest.takeWhile (· ≠ hash)).head? = some c → c = slash ∨ c = question := by
    intro c hc
    cases rest with
    | nil => simp at hc
    | cons d rest =>
      rw [List.takeWhile_cons] at hc
      by_cases hd : d = hash
      · simp [hd] at hc
      · obtain rfl : d = c := by simpa [hd] using hc
        rcases hhead d rfl with h | h | h
        · exact .inl h
        · exact .inr h
        · exact absurd h hd
  unfold parseTarget at h
  dsimp only at h
  generalize rest.takeWhile (· ≠ hash) = target at h hhash hstarts
  cases target with
  | nil =>
    obtain rfl := Except.ok.inj h
    exact targetText_of_valid ⟨[], rfl⟩ (by decide) (by decide +kernel) (by decide +kernel)
  | cons c t =>
    rw [if_neg (List.cons_ne_nil _ _), List.head?_cons] at h
    by_cases hq : some c = some question
    · simp only [if_pos hq] at h
      split_ifs at h with hlong hvalid
      · obtain rfl := Except.ok.inj h
        obtain ⟨hall, hescapes⟩ := (isValidRequestTargetText_iff _).1 hvalid
        refine targetText_of_valid ⟨_, rfl⟩ ?_ ?_ (Nat.not_lt.1 hlong)
        · rw [List.mem_cons, not_or]
          exact ⟨by decide, hhash⟩
        · exact (isValidRequestTargetText_iff _).2
            ⟨List.forall_mem_cons.2 ⟨by decide, hall⟩,
              (escapesComplete_cons (by decide)).2 hescapes⟩
    · simp only [if_neg hq] at h
      split_ifs at h with hlong hvalid
      · obtain rfl := Except.ok.inj h
        have hc : c = slash := (hstarts c rfl).resolve_right fun h => hq (h ▸ rfl)
        exact targetText_of_valid ⟨t, by rw [hc]⟩ hhash hvalid (Nat.not_lt.1 hlong)

theorem parseTarget_of_text (h : TargetText path) : parseTarget path = .ok path := by
  obtain ⟨rest, hpath⟩ := h.slash
  have htake : path.takeWhile (· ≠ hash) = path :=
    List.takeWhile_eq_self_iff.2 fun c hc => decide_eq_true (h.octets c hc).2.2
  have hne : path ≠ [] := by rw [hpath]; exact List.cons_ne_nil _ _
  have hhead : ¬ path.head? = some question := by
    rw [hpath, List.head?_cons]
    decide
  simp only [parseTarget, htake, if_neg hne, if_neg hhead, Nat.add_zero,
    if_neg (Nat.not_lt.2 h.le), h.valid, not_true_eq_false, if_false]

/-! ## Ports -/

/-- A digit of `ParsePort`. -/
def portStep (value : ℕ) (c : UInt8) : Except NTSTATUS ℕ :=
  if ¬ isDigit c then .error statusInvalidParameter
  else if value * 10 + (c.toNat - 48) > 0xffff then .error statusInvalidParameter
  else .ok (value * 10 + (c.toNat - 48))

theorem parsePort_eq (h : t ≠ []) :
    parsePort t = (t.foldlM portStep 0 >>= fun value =>
      if value = 0 then .error statusInvalidParameter else .ok value) :=
  if_neg h

theorem foldlM_portStep_le (hvalue : value ≤ 0xffff)
    (h : t.foldlM portStep value = .ok n) : n ≤ 0xffff := by
  induction t generalizing value with
  | nil => exact Except.ok.inj h ▸ hvalue
  | cons c t ih =>
    rw [List.foldlM_cons] at h
    obtain ⟨value', hstep, h⟩ := bind_eq_ok h
    refine ih ?_ h
    unfold portStep at hstep
    split_ifs at hstep with hdigit hlarge
    exact Except.ok.inj hstep ▸ Nat.not_lt.1 hlarge

theorem parsePort_ok (h : parsePort t = .ok n) : 1 ≤ n ∧ n ≤ 0xffff := by
  by_cases ht : t = []
  · rw [parsePort, if_pos ht] at h
    cases h
  · rw [parsePort_eq ht] at h
    obtain ⟨value, hfold, h⟩ := bind_eq_ok h
    split_ifs at h with hzero
    obtain rfl := Except.ok.inj h
    exact ⟨Nat.one_le_iff_ne_zero.2 hzero, foldlM_portStep_le (Nat.zero_le _) hfold⟩

theorem parsePortOrDefault_ok {t : Option Bytes}
    (h : parsePortOrDefault scheme t = .ok n) : 1 ≤ n ∧ n ≤ 0xffff := by
  cases t with
  | none =>
    obtain rfl := Except.ok.inj h
    split <;> decide
  | some t => exact parsePort_ok h

theorem le_foldl_digits (t : Bytes) (value : ℕ) :
    value ≤ t.foldl (fun n c => n * 10 + (c.toNat - 48)) value := by
  induction t generalizing value with
  | nil => exact le_rfl
  | cons c t ih =>
    calc value ≤ value * 10 + (c.toNat - 48) := by omega
      _ ≤ _ := ih _

theorem foldlM_portStep_digits (hdigits : ∀ c ∈ t, isDigit c = true)
    (hle : t.foldl (fun n c => n * 10 + (c.toNat - 48)) value ≤ 0xffff) :
    t.foldlM portStep value = .ok (t.foldl (fun n c => n * 10 + (c.toNat - 48)) value) := by
  induction t generalizing value with
  | nil => rfl
  | cons c t ih =>
    have hc : isDigit c = true := hdigits c List.mem_cons_self
    have hstep : portStep value c = .ok (value * 10 + (c.toNat - 48)) := by
      rw [portStep, if_neg (not_not.2 hc)]
      exact if_neg (Nat.not_lt.2 ((le_foldl_digits t _).trans hle))
    rw [List.foldlM_cons, bind_of_ok hstep]
    exact ih (fun c hc => hdigits c (List.mem_cons_of_mem _ hc)) hle

theorem parsePort_decimalText (h : 1 ≤ n ∧ n ≤ 0xffff) :
    parsePort (decimalText n) = .ok n := by
  have hvalue : (decimalText n).foldl (fun n c => n * 10 + (c.toNat - 48)) 0 = n :=
    numeral_decimalText n
  have hfold : (decimalText n).foldlM portStep 0 = .ok n :=
    (foldlM_portStep_digits (decimalDigits_digits n _) (hvalue.trans_le h.2)).trans
      (congrArg _ hvalue)
  rw [parsePort_eq (decimalText_ne_nil n), bind_of_ok hfold]
  exact if_neg (by omega)

/-! ## Hosts -/

/-- An octet that an address literal may hold. -/
def isLiteralByte (c : UInt8) : Bool :=
  0x20 < c.toNat && c.toNat < 0x7f &&
    !([percent, slash, question, hash, atSign, closeBracket].contains c)

/-- An address literal, without its brackets. -/
structure LiteralText (t : Bytes) : Prop where
  colon : colon ∈ t
  octets : ∀ c ∈ t, isLiteralByte c = true
  lower : t.map toLowerAscii = t
  le : t.length ≤ khMaxHostLength

/-- The host of an accepted URL. -/
inductive HostText (t : Bytes) : Prop
  | name (hne : t ≠ []) (hle : t.length ≤ khMaxHostLength) (ht : NameText t) : HostText t
  | literal (ht : LiteralText t) : HostText t

/-- The kinds of octets that an authority is made of. -/
theorem octet_kinds (c : UInt8) :
    (isLiteralByte c = true → isLiteralByte (toLowerAscii c) = true ∧
      toLowerAscii (toLowerAscii c) = toLowerAscii c) ∧
    (isLabelByte c = true →
      c ∉ [percent, slash, colon, question, hash, atSign, openBracket, closeBracket]) ∧
    (isLabelByte c = true ↔
      (97 ≤ c.toNat ∧ c.toNat ≤ 122) ∨ (48 ≤ c.toNat ∧ c.toNat ≤ 57) ∨ c.toNat = 45) ∧
    (isDigit c = true → c ∉ [slash, colon, question, hash, atSign]) := by
  revert c
  decide +kernel

theorem isLiteralByte_lower (h : isLiteralByte c = true) :
    isLiteralByte (toLowerAscii c) = true ∧ toLowerAscii (toLowerAscii c) = toLowerAscii c :=
  (octet_kinds c).1 h

theorem isLabelByte_delimiter (h : isLabelByte c = true) :
    c ∉ [percent, slash, colon, question, hash, atSign, openBracket, closeBracket] :=
  (octet_kinds c).2.1 h

theorem isLabelByte_iff : isLabelByte c = true ↔
    (97 ≤ c.toNat ∧ c.toNat ≤ 122) ∨ (48 ≤ c.toNat ∧ c.toNat ≤ 57) ∨ c.toNat = 45 :=
  (octet_kinds c).2.2.1

/-- What an authority in brackets, or with a name, is split into. -/
theorem splitAuthority_ok {authority : Bytes} {port : Option Bytes}
    (h : splitAuthority authority = .ok (host, ipv6Literal, port)) :
    (∀ c ∈ host, c ∈ authority) ∧ (ipv6Literal = true → colon ∈ host ∧ closeBracket ∉ host) := by
  unfold splitAuthority at h
  split at h
  case _ rest =>
    dsimp only at h
    have hclose : closeBracket ∉ rest.takeWhile (· ≠ closeBracket) := by
      intro hmem
      have := List.mem_takeWhile_imp hmem
      simp at this
    split at h
    · cases h
    · split_ifs at h with hhost
      rw [not_or, not_not] at hhost
      have hmem : ∀ c ∈ rest.takeWhile (· ≠ closeBracket), c ∈ 91 :: rest := fun c hc =>
        List.mem_cons_of_mem _ ((List.takeWhile_prefix _).subset hc)
      split at h
      · cases h
        exact ⟨hmem, fun _ => ⟨hhost.2, hclose⟩⟩
      · cases h
        exact ⟨hmem, fun _ => ⟨hhost.2, hclose⟩⟩
      · cases h
  case _ =>
    split at h
    · cases h
      exact ⟨fun c hc => hc, fun hv6 => by cases hv6⟩
    · split_ifs at h
      cases h
      exact ⟨fun c hc => (List.takeWhile_prefix _).subset hc, fun hv6 => by cases hv6⟩

theorem mem_map_toLowerAscii_colon (h : colon ∈ t) : colon ∈ t.map toLowerAscii :=
  List.mem_map.2 ⟨colon, h, by decide⟩

/-- What `CopyNormalizedHostText` keeps as the host. -/
theorem copyNormalizedHostText_ok {source : Bytes}
    (h : copyNormalizedHostText source ipv6Literal = .ok host)
    (hvalid : isValidHostText source ipv6Literal = true)
    (hliteral : ipv6Literal = true → colon ∈ source ∧ closeBracket ∉ source)
    (hauthority : ∀ c ∈ source, c ∉ [slash, question, hash, atSign]) : HostText host := by
  cases ipv6Literal with
  | false =>
    obtain ⟨hne, hle, ht⟩ := normalizeDnsName_text h
    exact .name hne hle ht
  | true =>
    obtain ⟨hcolon, hclose⟩ := hliteral rfl
    have hbyte : ∀ c ∈ source, isLiteralByte c = true := by
      intro c hc
      have hoctet := List.all_eq_true.1 (Bool.and_eq_true_iff.1 hvalid).2 c hc
      have hdelimiter := hauthority c hc
      have hne : c ≠ closeBracket := fun h => hclose (h ▸ hc)
      simp only [List.mem_cons, List.not_mem_nil, or_false, not_or] at hdelimiter
      simp only [Bool.not_true, Bool.false_and, Bool.not_false, Bool.and_true, Bool.true_and,
        Bool.and_eq_true, Bool.not_eq_true', Bool.or_eq_false_iff, decide_eq_false_iff_not,
        not_le, beq_eq_false_iff_ne] at hoctet
      have hlt : c.toNat < 0x7f := by
        have := hoctet.1.1.2
        omega
      simp [isLiteralByte, hoctet, hdelimiter, hne, hlt]
    have hlower := copyLowerText_ok h
    rw [copyNormalizedHostText, if_pos rfl, copyLowerText] at h
    split_ifs at h with hlength
    subst hlower
    refine .literal ⟨mem_map_toLowerAscii_colon hcolon, ?_, ?_, ?_⟩
    · intro c hc
      obtain ⟨d, hd, rfl⟩ := List.mem_map.1 hc
      exact (isLiteralByte_lower (hbyte d hd)).1
    · rw [List.map_map]
      exact List.map_congr_left fun c hc => (isLiteralByte_lower (hbyte c hc)).2
    · rw [List.length_map]
      exact Nat.lt_succ_iff.1 (not_le.1 (not_or.1 hlength).2)

/-! ## Accepted URLs -/

/-- What an accepted URL is made of. -/
structure UrlText (parts : UrlParts) : Prop where
  scheme : parts.scheme = text "http" ∨ parts.scheme = text "https"
  host : HostText parts.host
  path : TargetText parts.path
  port : 1 ≤ parts.port ∧ parts.port ≤ 0xffff

theorem parseHierarchy_ok (h : parseHierarchy scheme rest = .ok parts) :
    HostText parts.host ∧ TargetText parts.path ∧ 1 ≤ parts.port ∧ parts.port ≤ 0xffff := by
  unfold parseHierarchy at h
  dsimp only at h
  split_ifs at h with hnil hat
  obtain ⟨⟨host, ipv6Literal, portText⟩, hsplit, h⟩ := bind_eq_ok h
  dsimp only at h
  split_ifs at h with hvalid
  obtain ⟨port, hport, h⟩ := bind_eq_ok h
  obtain ⟨path, hpath, h⟩ := bind_eq_ok h
  obtain ⟨scheme, hscheme, h⟩ := bind_eq_ok h
  obtain ⟨host', hhost, h⟩ := bind_eq_ok h
  obtain rfl := Except.ok.inj h
  obtain ⟨hmem, hliteral⟩ := splitAuthority_ok hsplit
  refine ⟨copyNormalizedHostText_ok hhost hvalid hliteral ?_, parseTarget_ok hpath ?_,
    parsePortOrDefault_ok hport⟩
  · intro c hc
    have hends := List.mem_takeWhile_imp (hmem c hc)
    have hne : c ≠ atSign := fun h => hat (h ▸ hmem c hc)
    simp only [not_or, decide_eq_true_eq] at hends
    simp [hends, hne]
  · intro c hc
    have hhead := List.head?_dropWhile_not
      (fun c : UInt8 => decide ¬ (c = slash ∨ c = question ∨ c = hash)) rest
    rw [hc] at hhead
    simp only [decide_eq_false_iff_not, not_not] at hhead
    exact hhead

/-- An accepted URL is a text of this form. -/
theorem parseUrl_urlText (h : parseUrlIntoRequest url = .ok parts) : UrlText parts := by
  obtain ⟨-, -, -, -, hscheme⟩ := parseUrl_scheme h
  by_cases hbehind : ∃ rest, url.dropWhile (· ≠ colon) = 58 :: 47 :: 47 :: rest
  · obtain ⟨rest, hrest⟩ := hbehind
    rw [parseUrlIntoRequest_of_behind hrest] at h
    split_ifs at h
    obtain ⟨hhost, hpath, hport⟩ := parseHierarchy_ok h
    exact ⟨hscheme, hhost, hpath, hport⟩
  · rw [parseUrlIntoRequest_of_not_behind fun rest hrest => hbehind ⟨rest, hrest⟩] at h
    cases h

/-! ## The URL that the parts make -/

def authorityHost (host : Bytes) : Bytes :=
  if colon ∈ host then openBracket :: host ++ [closeBracket] else host

/-- The port as it stands in an authority. -/
def portSuffix : Option Bytes → Bytes
  | none => []
  | some t => colon :: t

/-- The text of the port, which may be left out where it is that of the scheme. -/
def portText (explicitPort : Bool) (parts : UrlParts) : Option Bytes :=
  if explicitPort = false ∧ isDefaultPort parts.scheme parts.port = true then none
  else some (decimalText parts.port)

def rebuiltUrl (explicitPort : Bool) (parts : UrlParts) : Bytes :=
  parts.scheme ++ text "://" ++
    (authorityHost parts.host ++ portSuffix (portText explicitPort parts) ++ parts.path)

theorem appendRedirectText_ok {destination result : Bytes}
    (h : appendRedirectText capacity destination t = .ok result) : result = destination ++ t := by
  unfold appendRedirectText at h
  split_ifs at h
  exact (Except.ok.inj h).symm

theorem buildHostHeaderValue_ok {value : Bytes} (h : buildHostHeaderValue r capacity = .ok value) :
    value = authorityHost r.host ++ portSuffix (portText false r.urlParts) := by
  have hhost : (if colon ∈ r.host then openBracket :: r.host ++ [closeBracket] else r.host) =
      authorityHost r.host := rfl
  unfold buildHostHeaderValue at h
  dsimp only at h
  rw [hhost] at h
  split_ifs at h with _ _ hdefault
  · obtain rfl := Except.ok.inj h
    rw [portText, if_pos ⟨rfl, hdefault⟩, portSuffix, List.append_nil]
  · obtain rfl := Except.ok.inj h
    rw [portText, if_neg fun hport => hdefault hport.2]
    rfl

theorem appendRedirectOrigin_ok {origin : Bytes}
    (h : appendRedirectOrigin capacity r = .ok origin) :
    origin ++ r.path = rebuiltUrl false r.urlParts := by
  obtain ⟨destination, hscheme, h⟩ := bind_eq_ok h
  obtain ⟨destination', hslashes, h⟩ := bind_eq_ok h
  obtain ⟨authority, hauthority, h⟩ := bind_eq_ok h
  obtain rfl := Except.ok.inj h
  obtain rfl := appendRedirectText_ok hscheme
  obtain rfl := appendRedirectText_ok hslashes
  rw [buildHostHeaderValue_ok hauthority, rebuiltUrl, List.nil_append, List.append_assoc]
  rfl

theorem takeWhile_ne_append (h : c ∉ t) :
    (t ++ c :: rest).takeWhile (· ≠ c) = t := by
  rw [List.takeWhile_append_of_pos fun a ha => decide_eq_true (ne_of_mem_of_not_mem ha h)]
  simp

theorem dropWhile_ne_append (h : c ∉ t) :
    (t ++ c :: rest).dropWhile (· ≠ c) = c :: rest := by
  rw [List.dropWhile_append_of_pos fun a ha => decide_eq_true (ne_of_mem_of_not_mem ha h)]
  simp

theorem dropWhile_ne_self (h : c ∉ t) : t.dropWhile (· ≠ c) = [] :=
  List.dropWhile_eq_nil_iff.2 fun _ ha => decide_eq_true (ne_of_mem_of_not_mem ha h)

theorem splitAuthority_literal (hcolon : colon ∈ host)
    (hclose : closeBracket ∉ host) (port : Option Bytes) :
    splitAuthority (openBracket :: host ++ [closeBracket] ++ portSuffix port) =
      .ok (host, true, port) := by
  have hne : ¬ (host = [] ∨ colon ∉ host) := by
    rw [not_or, not_not]
    exact ⟨List.ne_nil_of_mem hcolon, hcolon⟩
  rw [List.append_assoc, List.cons_append, List.singleton_append]
  cases port with
  | none =>
    simp only [splitAuthority, openBracket, takeWhile_ne_append hclose, dropWhile_ne_append hclose,
      if_neg hne, portSuffix]
  | some t =>
    simp only [splitAuthority, openBracket, takeWhile_ne_append hclose, dropWhile_ne_append hclose,
      if_neg hne]
    rfl

theorem splitAuthority_name (hcolon : colon ∉ host) (hopen : openBracket ∉ host)
    (port : Option Bytes) (hport : ∀ t, port = some t → colon ∉ t) :
    splitAuthority (host ++ portSuffix port) = .ok (host, false, port) := by
  have hbracket : ∀ rest, host ++ portSuffix port ≠ 91 :: rest := by
    rintro rest h
    cases host with
    | nil =>
      cases port with
      | none => cases h
      | some t => exact absurd (List.cons.inj h).1 (by decide)
    | cons c host => exact hopen ((List.cons.inj h).1 ▸ List.mem_cons_self)
  unfold splitAuthority
  split
  case _ hrest => exact absurd hrest (hbracket _)
  case _ =>
    cases port with
    | none => rw [portSuffix, List.append_nil, dropWhile_ne_self hcolon]
    | some t =>
      rw [portSuffix, dropWhile_ne_append hcolon, takeWhile_ne_append hcolon]
      exact if_neg (hport t rfl)

theorem NameText.octets (h : NameText t) :
    ∀ c ∈ t, isLabelByte c = true ∨ c = Tls.dot := by
  induction h with
  | nil => exact nofun
  | label _ ht => exact fun c hc => .inl (ht.octets c hc)
  | cons _ ht _ ih =>
    intro c hc
    rcases List.mem_append.1 hc with hc | hc
    · exact .inl (ht.octets c hc)
    · rcases List.mem_cons.1 hc with rfl | hc
      · exact .inr rfl
      · exact ih c hc

theorem NameText.delimiter (h : NameText t) : ∀ c ∈ t,
    c ∉ [percent, slash, colon, question, hash, atSign, openBracket, closeBracket] := by
  intro c hc
  rcases h.octets c hc with hlabel | rfl
  · exact isLabelByte_delimiter hlabel
  · decide

theorem NameText.printable (h : NameText t) : ∀ c ∈ t,
    0x20 < c.toNat ∧ c.toNat < 0x7f := by
  intro c hc
  rcases h.octets c hc with hlabel | rfl
  · have := isLabelByte_iff.1 hlabel
    omega
  · decide

theorem splitAuthority_of_text (h : HostText host) (port : Option Bytes)
    (hport : ∀ t, port = some t → colon ∉ t) :
    splitAuthority (authorityHost host ++ portSuffix port) =
      .ok (host, decide (colon ∈ host), port) := by
  cases h with
  | name hne hle ht =>
    have hcolon : colon ∉ host := fun h => ht.delimiter _ h (by decide)
    have hopen : openBracket ∉ host := fun h => ht.delimiter _ h (by decide)
    rw [authorityHost, if_neg hcolon, decide_eq_false hcolon]
    exact splitAuthority_name hcolon hopen port hport
  | literal ht =>
    have hclose : closeBracket ∉ host := fun h => absurd (ht.octets _ h) (by decide)
    rw [authorityHost, if_pos ht.colon, decide_eq_true ht.colon]
    exact splitAuthority_literal ht.colon hclose port

theorem HostText.valid (h : HostText host) :
    isValidHostText host (decide (colon ∈ host)) = true := by
  unfold isValidHostText
  rw [Bool.and_eq_true, List.all_eq_true, bne_iff_ne]
  cases h with
  | name hne hle ht =>
    refine ⟨hne, ?_⟩
    intro c hc
    have hcolon : colon ∉ host := fun h => ht.delimiter _ h (by decide)
    have hdelimiter := ht.delimiter c hc
    obtain ⟨hgt, hlt⟩ := ht.printable c hc
    simp only [List.mem_cons, List.not_mem_nil, or_false, not_or] at hdelimiter
    simp [hcolon, hdelimiter, hgt, hlt.ne]
  | literal ht =>
    refine ⟨List.ne_nil_of_mem ht.colon, ?_⟩
    intro c hc
    have hbyte := ht.octets c hc
    simp only [isLiteralByte, List.contains_eq_mem, List.mem_cons, List.not_mem_nil, or_false,
      not_or, Bool.and_eq_true, decide_eq_true_eq, Bool.not_eq_true', decide_eq_false_iff_not]
      at hbyte
    have hascii : c.toNat < 0x80 := by omega
    simp [ht.colon, hbyte, hbyte.1.2.ne, hascii]

theorem HostText.normalized (h : HostText host) :
    copyNormalizedHostText host (decide (colon ∈ host)) = .ok host := by
  cases h with
  | name hne hle ht =>
    have hcolon : colon ∉ host := fun h => ht.delimiter _ h (by decide)
    rw [decide_eq_false hcolon]
    exact normalizeDnsName_of_text hne hle ht true
  | literal ht =>
    have hlength : ¬ (host.length = 0 ∨ host.length ≥ khMaxHostLength + 1) := by
      rw [not_or, not_le, List.length_eq_zero_iff]
      exact ⟨List.ne_nil_of_mem ht.colon, Nat.lt_succ_of_le ht.le⟩
    rw [decide_eq_true ht.colon, copyNormalizedHostText, if_pos rfl, copyLowerText, if_neg hlength,
      ht.lower]

theorem authorityHost_delimiter (h : HostText host) :
    ∀ c ∈ authorityHost host, c ∉ [slash, question, hash, atSign] := by
  intro c hc
  cases h with
  | name hne hle ht =>
    have hcolon : colon ∉ host := fun h => ht.delimiter _ h (by decide)
    rw [authorityHost, if_neg hcolon] at hc
    have := ht.delimiter c hc
    simp only [List.mem_cons, List.not_mem_nil, or_false, not_or] at this ⊢
    tauto
  | literal ht =>
    rw [authorityHost, if_pos ht.colon, List.cons_append, List.mem_cons, List.mem_append,
      List.mem_singleton] at hc
    rcases hc with rfl | hc | rfl
    · decide
    · have := ht.octets c hc
      simp only [isLiteralByte, List.contains_eq_mem, List.mem_cons, List.not_mem_nil, or_false,
        not_or, Bool.and_eq_true, decide_eq_true_eq, Bool.not_eq_true', decide_eq_false_iff_not]
        at this ⊢
      tauto
    · decide

theorem isDigit_delimiter (h : isDigit c = true) :
    c ∉ [slash, colon, question, hash, atSign] :=
  (octet_kinds c).2.2.2 h

theorem portText_digits {explicitPort : Bool}
    (h : portText explicitPort parts = some t) : ∀ c ∈ t, isDigit c = true := by
  unfold portText at h
  split_ifs at h
  obtain rfl := Option.some.inj h
  exact decimalDigits_digits _ _

/-- The two schemes, as `ParseUrlIntoRequest` writes them. -/
theorem scheme_spec (h : scheme = text "http" ∨ scheme = text "https") :
    scheme ≠ [] ∧ colon ∉ scheme ∧ isSupportedScheme false scheme = true ∧
      copyLowerText scheme (khMaxSchemeLength + 1) = .ok scheme := by
  rcases h with rfl | rfl <;> decide +kernel

theorem parsePortOrDefault_portText (h : UrlText parts) (explicitPort : Bool) :
    parsePortOrDefault parts.scheme (portText explicitPort parts) = .ok parts.port := by
  unfold portText
  split_ifs with hdefault
  · have hhttp : ¬ textEqualsIgnoreCase (text "http") (text "https") = true := by decide +kernel
    have hhttps : textEqualsIgnoreCase (text "https") (text "https") = true := by decide +kernel
    have hports : ∀ port, (isDefaultPort (text "http") port = true → port = 80) ∧
        (isDefaultPort (text "https") port = true → port = 443) := by
      intro port
      have hws : ¬ textEqualsIgnoreCase (text "http") (text "wss") = true ∧
          ¬ textEqualsIgnoreCase (text "https") (text "http") = true ∧
          ¬ textEqualsIgnoreCase (text "https") (text "ws") = true := by decide +kernel
      constructor
      · simp [isDefaultPort, hhttp, hws]
      · simp [isDefaultPort, hws]
    rcases h.scheme with hs | hs
    · rw [hs] at hdefault ⊢
      rw [(hports _).1 hdefault.2, parsePortOrDefault, if_neg hhttp]
    · rw [hs] at hdefault ⊢
      rw [(hports _).2 hdefault.2, parsePortOrDefault, if_pos hhttps]
  · exact parsePort_decimalText h.port

theorem authority_delimiter (h : UrlText parts) (explicitPort : Bool) :
    ∀ c ∈ authorityHost parts.host ++ portSuffix (portText explicitPort parts),
      c ∉ [slash, question, hash, atSign] := by
  intro c hc
  rcases List.mem_append.1 hc with hc | hc
  · exact authorityHost_delimiter h.host c hc
  · cases hport : portText explicitPort parts with
    | none =>
      rw [hport] at hc
      cases hc
    | some t =>
      rw [hport] at hc
      rcases List.mem_cons.1 hc with rfl | hc
      · decide
      · have := isDigit_delimiter (portText_digits hport c hc)
        simp only [List.mem_cons, List.not_mem_nil, or_false, not_or] at this ⊢
        tauto

theorem authorityHost_ne_nil (h : HostText host) : authorityHost host ≠ [] := by
  cases h with
  | name hne _ ht =>
    rw [authorityHost, if_neg fun h => ht.delimiter _ h (by decide)]
    exact hne
  | literal ht =>
    rw [authorityHost, if_pos ht.colon]
    exact List.cons_ne_nil _ _

theorem parseHierarchy_authority (h : UrlText parts) (explicitPort : Bool)
    (ht : ∃ rest, t = slash :: rest) :
    parseHierarchy parts.scheme
      (authorityHost parts.host ++ portSuffix (portText explicitPort parts) ++ t) =
        parseTarget t >>= fun path => .ok { parts with path } := by
  obtain ⟨rest, hrest⟩ := ht
  have hdelimiter := authority_delimiter h explicitPort
  have hsplit := splitAuthority_of_text h.host (portText explicitPort parts) fun t ht hcolon =>
    absurd (portText_digits ht _ hcolon) (by decide)
  have hne : authorityHost parts.host ++ portSuffix (portText explicitPort parts) ≠ [] :=
    List.append_ne_nil_of_left_ne_nil (authorityHost_ne_nil h.host) _
  generalize hauthority : authorityHost parts.host ++ portSuffix (portText explicitPort parts) =
    authority at hsplit hdelimiter hne ⊢
  have hinside : ∀ c ∈ authority, decide (¬ (c = slash ∨ c = question ∨ c = hash)) = true := by
    intro c hc
    have := hdelimiter c hc
    simp only [List.mem_cons, List.not_mem_nil, or_false, not_or] at this
    simp [this]
  have hat : atSign ∉ authority := fun hmem => hdelimiter _ hmem (by decide)
  have htake : (authority ++ t).takeWhile
      (fun c => decide ¬ (c = slash ∨ c = question ∨ c = hash)) = authority := by
    rw [List.takeWhile_append_of_pos hinside, hrest, List.takeWhile_cons_of_neg (by decide),
      List.append_nil]
  have hdrop : (authority ++ t).dropWhile
      (fun c => decide ¬ (c = slash ∨ c = question ∨ c = hash)) = t := by
    rw [List.dropWhile_append_of_pos hinside, hrest, List.dropWhile_cons_of_neg (by decide)]
  unfold parseHierarchy
  dsimp only
  rw [htake, hdrop, if_neg hne, if_neg hat, bind_of_ok hsplit]
  dsimp only
  rw [if_neg (not_not.2 h.host.valid), bind_of_ok (parsePortOrDefault_portText h explicitPort)]
  congr 1
  funext path
  rw [bind_of_ok (scheme_spec h.scheme).2.2.2, bind_of_ok h.host.normalized]

/-- So are the scheme and the authority of a URL. -/
theorem parseUrl_authority (h : UrlText parts) (explicitPort : Bool)
    (ht : ∃ rest, t = slash :: rest) :
    parseUrlIntoRequest (parts.scheme ++ text "://" ++
      (authorityHost parts.host ++ portSuffix (portText explicitPort parts) ++ t)) =
        parseTarget t >>= fun path => .ok { parts with path } := by
  obtain ⟨hne, hcolon, hsupported, -⟩ := scheme_spec h.scheme
  have hslashes : text "://" = [colon, 47, 47] := by decide +kernel
  rw [hslashes, List.append_assoc, List.cons_append, List.cons_append, List.cons_append,
    List.nil_append]
  rw [parseUrlIntoRequest_of_behind (dropWhile_ne_append hcolon), takeWhile_ne_append hcolon,
    if_neg hne, if_neg (not_not.2 hsupported), parseHierarchy_authority h explicitPort ht]

/-- **The parts of an accepted URL are read back from the URL they make.** -/
theorem parseUrl_rebuiltUrl (h : UrlText parts) (explicitPort : Bool) :
    parseUrlIntoRequest (rebuiltUrl explicitPort parts) = .ok parts := by
  rw [rebuiltUrl, parseUrl_authority h explicitPort h.path.slash,
    bind_of_ok (parseTarget_of_text h.path)]

/-- **The two parsers agree on every URL, and the parts they accept are read back.** -/
theorem urlParsers_agree (url : Bytes) :
    parseUrlParts false (khMaxSchemeLength + 1) (khMaxPathLength + 1) url =
        parseUrlIntoRequest url ∧
      ∀ parts, parseUrlIntoRequest url = .ok parts →
        UrlText parts ∧
          (∀ explicitPort, parseUrlIntoRequest (rebuiltUrl explicitPort parts) = .ok parts) ∧
          ∀ (r : KhRequest) (capacity : ℕ) (origin : Bytes), r.urlParts = parts →
            appendRedirectOrigin capacity r = .ok origin →
              parseUrlIntoRequest (origin ++ parts.path) = .ok parts := by
  refine ⟨parseUrlParts_eq url, ?_⟩
  intro parts hparts
  have htext := parseUrl_urlText hparts
  refine ⟨htext, parseUrl_rebuiltUrl htext, ?_⟩
  rintro r capacity origin rfl horigin
  rw [show origin ++ r.urlParts.path = rebuiltUrl false r.urlParts from
    appendRedirectOrigin_ok horigin]
  exact parseUrl_rebuiltUrl htext false

theorem urlParsers_agree_literal :
    parseUrlIntoRequest (rebuiltUrl true ⟨text "https", text "::1", text "/?q", 8443⟩) =
        .ok ⟨text "https", text "::1", text "/?q", 8443⟩ ∧
      parseUrlIntoRequest (text "https://[::1]:8443" ++ text "/?q") =
        .ok ⟨text "https", text "::1", text "/?q", 8443⟩ := by
  obtain ⟨-, hrebuilt, horigin⟩ :=
    (urlParsers_agree (text "HTTPS://[::1]:8443?q#f")).2
      ⟨text "https", text "::1", text "/?q", 8443⟩ (by decide +kernel)
  exact ⟨hrebuilt true, horigin { khHttpRequestCreate none with
    scheme := text "https"
    host := text "::1"
    path := text "/?q"
    port := 8443 } 64 _ rfl (by decide +kernel)⟩

end KernelHttp.Engine
