/-
  Host names as Punycode (`engine/UrlParser.cpp`).

  The functions are those of the certificate validator (`Tls/HostName.lean`): the two
  files have the same text.
-/
import KernelHttp.Lib.Bootstring
import KernelHttp.Tls.HostName
import KernelHttp.WebSocket.Utf8

namespace KernelHttp.Engine

open Incremental Tls

/-! ## The profile -/

/-- The value of a digit: letters of either case, and then `0` to `9`. -/
def punycodeDigitValue (c : ℕ) : Option ℕ :=
  if 97 ≤ c ∧ c ≤ 122 then some (c - 97)
  else if 65 ≤ c ∧ c ≤ 90 then some (c - 65)
  else if 48 ≤ c ∧ c ≤ 57 then some (c - 48 + 26)
  else none

def punycode : Bootstring.Parameters where
  base := 36
  tMin := 1
  tMax := 26
  skew := 38
  damp := 700
  initialBias := 72
  initialN := 128
  delimiter := 45
  digitValue := punycodeDigitValue
  tMin_pos := by decide
  tMin_le := by decide
  tMax_lt := by decide
  tMin_lt := by decide

/-- The decoder before it reads a digit. -/
def punycodeStart (basic : List ℕ) : Bootstring.State := ⟨128, 0, 72, basic⟩

variable {enableIdna : Bool} {output encoded label t host : Bytes} {digit c n basicCount : ℕ}

theorem punycode_digitValue (h : digit < 36) :
    punycode.digitValue (encodePunycodeDigit digit).toNat = some digit := by
  have hall : ∀ d ∈ List.range 36,
      punycodeDigitValue (encodePunycodeDigit d).toNat = some d := by decide
  exact hall digit (List.mem_range.2 h)

theorem encodePunycodeDigit_ne (h : digit < 36) :
    (encodePunycodeDigit digit).toNat ≠ 45 := by
  have hall : ∀ d ∈ List.range 36, (encodePunycodeDigit d).toNat ≠ 45 := by decide
  exact hall digit (List.mem_range.2 h)

theorem mapM_digitValue {digits : List ℕ} (h : ∀ d ∈ digits, d < 36) :
    ((digits.map encodePunycodeDigit).map UInt8.toNat).mapM punycode.digitValue = some digits := by
  induction digits with
  | nil => rfl
  | cons d digits ih =>
    obtain ⟨hd, hdigits⟩ := List.forall_mem_cons.1 h
    rw [List.map_cons, List.map_cons, List.mapM_cons, punycode_digitValue hd, ih hdigits]
    rfl

theorem scalePunycodeDelta_eq (delta k : ℕ) :
    scalePunycodeDelta delta k = punycode.scale delta k := by
  have hbound : (punycode.base - punycode.tMin) * punycode.tMax / 2 = 455 := rfl
  induction delta, k using scalePunycodeDelta.induct with
  | case1 delta k h ih =>
    rw [scalePunycodeDelta, if_pos h, ih, Bootstring.Parameters.scale.eq_1 punycode delta k,
      dif_pos (hbound ▸ h)]
    rfl
  | case2 delta k h =>
    rw [scalePunycodeDelta, if_neg h, Bootstring.Parameters.scale.eq_1 punycode delta k,
      dif_neg (hbound ▸ h)]

theorem adaptPunycodeBias_eq (delta numPoints : ℕ) (firstTime : Bool) :
    adaptPunycodeBias delta numPoints firstTime = punycode.adapt delta numPoints firstTime := by
  rw [adaptPunycodeBias, Bootstring.Parameters.adapt]
  dsimp only
  rw [scalePunycodeDelta_eq]
  rfl

theorem appendPunycodeDelta_eq (bias q k : ℕ) (output : Bytes) :
    appendPunycodeDelta bias q k output =
      if q < punycode.threshold bias k then appendOutputChar output (encodePunycodeDigit q)
      else
        appendOutputChar output (encodePunycodeDigit (punycode.threshold bias k +
          (q - punycode.threshold bias k) % (36 - punycode.threshold bias k))) >>= fun output =>
        appendPunycodeDelta bias ((q - punycode.threshold bias k) /
          (36 - punycode.threshold bias k)) (k + 36) output := by
  have ht : punycode.threshold bias k =
    if k ≤ bias then 1 else if k ≥ bias + 26 then 26 else k - bias := rfl
  rw [appendPunycodeDelta, ht]
  generalize (if k ≤ bias then 1 else if k ≥ bias + 26 then 26 else k - bias) = t
  by_cases h : q < t
  · rw [dif_pos h, if_pos h]
  · rw [dif_neg h, if_neg h]
    cases appendOutputChar output (encodePunycodeDigit (t + (q - t) % (36 - t)))
    all_goals rfl

theorem appendPunycodeDelta_digits {bias q k : ℕ} {output' : Bytes}
    (h : appendPunycodeDelta bias q k output = .ok output') :
    output' = output ++ (punycode.integerDigits bias k q).map encodePunycodeDigit := by
  induction k, q using Bootstring.Parameters.integerDigits.induct punycode bias
    generalizing output with
  | case1 k q hlt =>
    rw [appendPunycodeDelta_eq, if_pos hlt] at h
    rw [Bootstring.Parameters.integerDigits, dif_pos hlt]
    exact appendOutputChar_eq h
  | case2 k q hge ih =>
    rw [appendPunycodeDelta_eq, if_neg hge] at h
    obtain ⟨output₁, houtput, h⟩ := bind_eq_ok h
    rw [ih h, appendOutputChar_eq houtput,
      Bootstring.Parameters.integerDigits.eq_1 punycode bias k q, dif_neg hge, List.append_assoc]
    rfl

/-! ## Rounds -/

/-- What a decoder makes of the digits written since `pre`, in a round for `n` with the code
    points in `front` behind and those in `back` before it. -/
structure Tracks (basic : List ℕ) (pre : Bytes) (n : ℕ) (front back : List ℕ) (s : PunycodeState)
    (d : Bootstring.State) : Prop where
  digits : ∃ digits, s.output = pre ++ digits.map encodePunycodeDigit ∧
    (∀ digit ∈ digits, digit < 36) ∧
    ∀ rest, punycode.decodeFrom (punycodeStart basic) (digits ++ rest) = punycode.decodeFrom d rest
  output : d.output = Bootstring.kept n front back
  handled : s.handledCount = d.output.length
  bias : s.bias = d.bias
  first : (s.handledCount == basic.length) = (d.i == 0)
  lags : Bootstring.Lags d n (front.filter (· ≤ n)).length s.delta
  grown : basic.length ≤ s.handledCount

section Rounds

variable {basic : List ℕ} {pre : Bytes} {n : ℕ} {front back : List ℕ} {s s' : PunycodeState}
  {d : Bootstring.State}

theorem length_filter_le_kept :
    (front.filter (· ≤ n)).length ≤ (Bootstring.kept n front back).length := by
  rw [Bootstring.kept, List.length_append]
  exact Nat.le_add_right _ _

theorem Tracks.codePoint {c : ℕ} (h : Tracks basic pre n front (c :: back) s d)
    (hs : punycodeCodePoint n basic.length s c = .ok s') :
    ∃ d', Tracks basic pre n (front ++ [c]) back s' d' := by
  obtain ⟨digits, hout, hdigits, hdecode⟩ := h.digits
  rw [punycodeCodePoint] at hs
  split_ifs at hs with hlt hfull heq
  · -- a code point that is written already: one step of the walk
    obtain rfl := Except.ok.inj hs
    have hkept := Bootstring.kept_lt hlt front back
    have hfilter : ((front ++ [c]).filter (· ≤ n)).length =
        (front.filter (· ≤ n)).length + 1 := by
      simp [hlt.le]
    have hle : (front.filter (· ≤ n)).length < d.output.length := by
      rw [h.output, hkept, ← Nat.succ_le_iff, Nat.succ_eq_add_one, ← hfilter]
      exact length_filter_le_kept
    exact ⟨d, ⟨digits, hout, hdigits, hdecode⟩, h.output.trans hkept, h.handled, h.bias, h.first,
      hfilter ▸ h.lags.pass hle, h.grown⟩
  · -- the walk ends
    subst heq
    obtain ⟨output, happend, hs⟩ := bind_eq_ok hs
    obtain rfl := Except.ok.inj hs
    have hinsert := h.lags.insert_eq (p := punycode)
    have hlength : (d.output.insertIdx (front.filter (· ≤ c)).length c).length =
        d.output.length + 1 := List.length_insertIdx_of_le_length h.lags.le _
    have hfilter : ((front ++ [c]).filter (· ≤ c)).length = (front.filter (· ≤ c)).length + 1 := by
      simp
    have hgrown := h.grown
    have hfirst : (s.handledCount + 1 == basic.length) = false :=
      beq_eq_false_iff_ne.2 (by omega)
    refine ⟨d.insert punycode (d.i + s.delta),
      ⟨digits ++ punycode.integerDigits s.bias 36 s.delta, ?_, ?_, fun rest => ?_⟩,
      ?_, ?_, ?_, ?_, ?_, ?_⟩
    · rw [appendPunycodeDelta_digits happend, hout, List.map_append, List.append_assoc]
    · intro digit hdigit
      rcases List.mem_append.1 hdigit with hdigit | hdigit
      · exact hdigits digit hdigit
      · exact punycode.integerDigits_lt hdigit
    · rw [List.append_assoc, hdecode, h.bias]
      exact punycode.decodeFrom_integerDigits d s.delta rest
    · rw [hinsert, h.output]
      exact Bootstring.kept_insert c front back
    · rw [hinsert, hlength, h.handled]
    · rw [hinsert, adaptPunycodeBias_eq, h.first, h.handled]
    · rw [hinsert]
      exact hfirst.trans (beq_eq_false_iff_ne.2 (Nat.succ_ne_zero _)).symm
    · rw [hinsert, hfilter]
      refine ⟨?_, ?_⟩
      · rw [hlength]
        rfl
      · rw [hlength]
        exact Nat.succ_le_succ h.lags.le
    · exact hgrown.trans (Nat.le_succ _)
  · -- a code point of a later round
    obtain rfl := Except.ok.inj hs
    have hgt : n < c := by omega
    have hfilter : (front ++ [c]).filter (· ≤ n) = front.filter (· ≤ n) := by
      simp [hgt]
    exact ⟨d, ⟨digits, hout, hdigits, hdecode⟩, h.output.trans (Bootstring.kept_gt hgt front back),
      h.handled, h.bias, h.first, hfilter ▸ h.lags, h.grown⟩

/-- A whole round. -/
theorem Tracks.round (h : Tracks basic pre n front back s d)
    (hs : back.foldlM (punycodeCodePoint n basic.length) s = .ok s') :
    ∃ d', Tracks basic pre n (front ++ back) [] s' d' := by
  induction back generalizing front s d with
  | nil =>
    obtain rfl := Except.ok.inj hs
    exact ⟨d, by rwa [List.append_nil]⟩
  | cons c back ih =>
    rw [List.foldlM_cons] at hs
    obtain ⟨s₁, hc, hs⟩ := bind_eq_ok hs
    obtain ⟨d₁, h₁⟩ := h.codePoint hc
    obtain ⟨d', h'⟩ := ih h₁ hs
    exact ⟨d', by rwa [List.append_assoc, List.singleton_append] at h'⟩

variable {text : List ℕ}

/-- Behind a round, the next code point is looked for. -/
theorem Tracks.next (h : Tracks basic pre n text [] s d) :
    Tracks basic pre (n + 1) [] text { s with delta := s.delta + 1 } d := by
  have hlags := h.lags
  have hlength : (text.filter (· ≤ n)).length = d.output.length := by
    rw [h.output, Bootstring.kept, List.filter_nil, List.append_nil]
  rw [hlength] at hlags
  exact ⟨h.digits, h.output.trans (Bootstring.kept_nil n text), h.handled, h.bias, h.first,
    hlags.turn, h.grown⟩

variable {m : ℕ}

/-- The code points up to the next one in the text are skipped. -/
theorem Tracks.skip (h : Tracks basic pre n [] text s d) (hle : n ≤ m)
    (htext : ∀ c ∈ text, c < n ∨ m ≤ c) :
    Tracks basic pre m [] text
      { s with delta := s.delta + (m - n) * (s.handledCount + 1) } d := by
  have hlags : Bootstring.Lags d n 0 s.delta := h.lags
  refine ⟨h.digits, h.output.trans (Bootstring.kept_skip hle htext), h.handled, h.bias, h.first,
    ?_, h.grown⟩
  rw [h.handled]
  exact hlags.skip hle

/-- The least code point from `n` on. -/
theorem foldl_least (n : ℕ) (text : List ℕ) (m₀ : ℕ) :
    (text.foldl (fun m c => if n ≤ c ∧ c < m then c else m) m₀ ≤ m₀ ∧
      ∀ c ∈ text, c < n ∨ text.foldl (fun m c => if n ≤ c ∧ c < m then c else m) m₀ ≤ c) ∧
    (text.foldl (fun m c => if n ≤ c ∧ c < m then c else m) m₀ = m₀ ∨
      text.foldl (fun m c => if n ≤ c ∧ c < m then c else m) m₀ ∈ text) := by
  induction text generalizing m₀ with
  | nil => exact ⟨⟨le_rfl, nofun⟩, .inl rfl⟩
  | cons a text ih =>
    rw [List.foldl_cons]
    by_cases ha : n ≤ a ∧ a < m₀
    · rw [if_pos ha]
      obtain ⟨⟨hle, hall⟩, hmem⟩ := ih a
      refine ⟨⟨hle.trans ha.2.le, fun c hc => ?_⟩, .inr ?_⟩
      · rcases List.mem_cons.1 hc with rfl | hc
        · exact .inr hle
        · exact hall c hc
      · rcases hmem with hmem | hmem
        · rw [hmem]
          exact List.mem_cons_self
        · exact List.mem_cons_of_mem a hmem
    · rw [if_neg ha]
      obtain ⟨⟨hle, hall⟩, hmem⟩ := ih m₀
      refine ⟨⟨hle, fun c hc => ?_⟩, hmem.imp_right (List.mem_cons_of_mem a)⟩
      rcases List.mem_cons.1 hc with rfl | hc
      · rcases not_and_or.1 ha with ha | ha
        · exact .inl (by omega)
        · exact .inr (by omega)
      · exact hall c hc

theorem length_filter_lt (hle : n ≤ m) (hmem : m ∈ text) :
    (text.filter (· < n)).length < (text.filter (· < m + 1)).length := by
  have hsub : List.Sublist (text.filter (· < n)) (text.filter (· < m + 1)) :=
    List.monotone_filter_right text fun c hc => by
      rw [decide_eq_true_eq] at hc ⊢
      omega
  refine lt_of_le_of_ne hsub.length_le fun heq => ?_
  have hm : m ∈ text.filter (· < n) := by
    rw [hsub.eq_of_length heq]
    exact List.mem_filter.2 ⟨hmem, decide_eq_true (Nat.lt_succ_self m)⟩
  have := of_decide_eq_true (List.mem_filter.1 hm).2
  omega

/-- When as many code points are written as the text has, the digits are read as the text. -/
theorem Tracks.finish (h : Tracks basic pre n [] text s d) (hall : text.length ≤ s.handledCount) :
    ∃ digits, s.output = pre ++ digits.map encodePunycodeDigit ∧ (∀ digit ∈ digits, digit < 36) ∧
      punycode.decodeFrom (punycodeStart basic) digits = some text := by
  obtain ⟨digits, hout, hdigits, hdecode⟩ := h.digits
  have hkept : d.output = text.filter (· < n) := h.output
  have htext : text.filter (· < n) = text := by
    refine List.filter_sublist.eq_of_length_le ?_
    rw [← hkept, ← h.handled]
    exact hall
  refine ⟨digits, hout, hdigits, ?_⟩
  rw [← List.append_nil digits, hdecode, Bootstring.Parameters.decodeFrom, if_pos rfl, hkept, htext]

/-- **The digits that the rounds write are read back as the text.** -/
theorem punycodeRounds_decode {rounds : ℕ} {output : Bytes} (h : Tracks basic pre n [] text s d)
    (hrounds : text.length ≤ rounds + s.handledCount)
    (hs : punycodeRounds text basic.length rounds n s = .ok output) :
    ∃ digits, output = pre ++ digits.map encodePunycodeDigit ∧ (∀ digit ∈ digits, digit < 36) ∧
      punycode.decodeFrom (punycodeStart basic) digits = some text := by
  induction rounds generalizing n s d with
  | zero =>
    obtain rfl := Except.ok.inj hs
    exact h.finish (by rwa [Nat.zero_add] at hrounds)
  | succ rounds ih =>
    rw [punycodeRounds] at hs
    split_ifs at hs with hall
    · obtain rfl := Except.ok.inj hs
      exact h.finish hall
    · obtain ⟨⟨-, hleast⟩, hmem⟩ := foldl_least n text 0x10ffff
      dsimp only at hs
      generalize text.foldl (fun m c => if n ≤ c ∧ c < m then c else m) 0x10ffff = m
        at hs hleast hmem
      split_ifs at hs with hbad
      rw [not_or, not_or] at hbad
      obtain ⟨s₁, hround, hs⟩ := bind_eq_ok hs
      split_ifs at hs
      have hle : n ≤ m := by omega
      obtain ⟨d₁, h₁⟩ := (h.skip hle hleast).round hround
      have h₂ := h₁.next
      rw [List.nil_append] at h₂
      refine ih h₂ ?_ hs
      -- the round writes at least the code point `m`
      have hlt := length_filter_lt hle (hmem.resolve_left hbad.1)
      have hbefore : s.handledCount = (text.filter (· < n)).length := by
        rw [h.handled, h.output]
        rfl
      have hafter : s₁.handledCount = (text.filter (· < m + 1)).length := by
        rw [h₂.handled, h₂.output]
        rfl
      show text.length ≤ rounds + s₁.handledCount
      omega

end Rounds

/-! ## Labels -/

def lowerLetter (c : ℕ) : ℕ := if c < 0x80 then (lowerCodePoint c).toNat else c

theorem lowerCodePoint_lt (h : c < 0x80) : (lowerCodePoint c).toNat < 0x80 := by
  have hall : ∀ n ∈ List.range 0x80, (lowerCodePoint n).toNat < 0x80 := by decide +kernel
  exact hall c (List.mem_range.2 h)

theorem lowerLetter_lt_iff (h : 0x80 ≤ n) : lowerLetter c < n ↔ c < n := by
  rw [lowerLetter]
  split_ifs with hc
  · have := lowerCodePoint_lt hc
    omega
  · exact Iff.rfl

theorem lowerLetter_eq_iff (h : 0x80 ≤ n) : lowerLetter c = n ↔ c = n := by
  rw [lowerLetter]
  split_ifs with hc
  · have := lowerCodePoint_lt hc
    omega
  · exact Iff.rfl

theorem punycodeCodePoint_lower (h : 0x80 ≤ n) (s : PunycodeState) :
    punycodeCodePoint n basicCount s (lowerLetter c) = punycodeCodePoint n basicCount s c := by
  rw [punycodeCodePoint, punycodeCodePoint]
  simp only [lowerLetter_lt_iff h, lowerLetter_eq_iff h]

theorem foldl_least_lower (h : 0x80 ≤ n) (cps : List ℕ) (m : ℕ) :
    (cps.map lowerLetter).foldl (fun m c => if n ≤ c ∧ c < m then c else m) m =
      cps.foldl (fun m c => if n ≤ c ∧ c < m then c else m) m := by
  rw [List.foldl_map]
  refine List.foldl_ext _ _ _ fun m c _ => ?_
  by_cases hc : c < 0x80
  · have hlower : ¬ n ≤ lowerLetter c := Nat.not_le.2 ((lowerLetter_lt_iff h).2 (hc.trans_le h))
    rw [if_neg fun hle => hlower hle.1, if_neg (by omega)]
  · rw [lowerLetter, if_neg hc]

theorem punycodeRounds_lower (cps : List ℕ) (rounds : ℕ) : ∀ {n : ℕ} (s : PunycodeState), 0x80 ≤ n →
    punycodeRounds (cps.map lowerLetter) basicCount rounds n s =
      punycodeRounds cps basicCount rounds n s := by
  induction rounds with
  | zero => exact fun _ _ => rfl
  | succ rounds ih =>
    intro n s h
    rw [punycodeRounds, punycodeRounds, List.length_map, foldl_least_lower h]
    split_ifs
    · rfl
    · dsimp only
      generalize cps.foldl (fun m c => if n ≤ c ∧ c < m then c else m) 0x10ffff = m
      split_ifs with hbad
      · rfl
      · have hm : 0x80 ≤ m := by omega
        rw [List.foldlM_map]
        simp only [punycodeCodePoint_lower hm]
        refine bind_congr fun s₁ => ?_
        split_ifs
        · rfl
        · exact ih _ (hm.trans (Nat.le_succ m))

theorem basic_lower (cps : List ℕ) :
    (((cps.filter (· < 0x80)).map lowerCodePoint).map UInt8.toNat) =
      (cps.map lowerLetter).filter (· < 0x80) := by
  induction cps with
  | nil => rfl
  | cons c cps ih =>
    by_cases hc : c < 0x80
    · have hlower : lowerLetter c = (lowerCodePoint c).toNat := if_pos hc
      have hlt := lowerCodePoint_lt hc
      simp only [List.filter_cons, List.map_cons, hc, hlower, hlt, decide_true, if_true, ih]
    · have hlower : lowerLetter c = c := if_neg hc
      simp only [List.filter_cons, List.map_cons, hc, hlower, decide_false, Bool.false_eq_true,
        if_false, ih]

theorem tracks_start (text : List ℕ) (pre : Bytes) :
    Tracks (text.filter (· < 0x80)) pre 128 [] text
      ⟨0, 72, (text.filter (· < 0x80)).length, pre⟩ (punycodeStart (text.filter (· < 0x80))) where
  digits := ⟨[], (List.append_nil pre).symm, nofun, fun _ => rfl⟩
  output := rfl
  handled := rfl
  bias := rfl
  first := by rw [beq_self_eq_true, punycodeStart, beq_self_eq_true]
  lags := ⟨rfl, Nat.zero_le _⟩
  grown := le_rfl

/-- An octet of a label that is written. -/
def isLabelByte (c : UInt8) : Bool := isValidDnsLabelByte c && !isUpperAscii c

theorem encodePunycodeDigit_label (h : digit < 36) :
    isLabelByte (encodePunycodeDigit digit) = true := by
  have hall : ∀ d ∈ List.range 36, isLabelByte (encodePunycodeDigit d) = true := by decide
  exact hall digit (List.mem_range.2 h)

theorem lowerCodePoint_label (hv : isValidDnsLabelByte (UInt8.ofNat c) = true) :
    isLabelByte (lowerCodePoint c) = true := by
  have hall : ∀ c : UInt8, isValidDnsLabelByte c = true → isLabelByte (toLowerAscii c) = true := by
    decide +kernel
  exact hall _ hv

/-- **The name of code points beyond ASCII is read back as the code points.** -/
theorem encodeCodePoints_decode {cps : List ℕ}
    (h : encodeCodePoints cps output = .ok encoded) (hn : ∃ c ∈ cps, 0x80 ≤ c)
    (hv : ∀ c ∈ cps, c < 0x80 → isValidDnsLabelByte (UInt8.ofNat c) = true) :
    ∃ t, encoded = output ++ (text "xn--" ++ t) ∧ (∀ c ∈ t, isLabelByte c = true) ∧
      punycode.decode (t.map UInt8.toNat) = some (cps.map lowerLetter) := by
  have hlen : (cps.filter (· < 0x80)).length ≠ cps.length := by
    intro hlen
    obtain ⟨c, hc, hge⟩ := hn
    have := List.filter_eq_self.1 (List.filter_sublist.eq_of_length hlen) c hc
    have := of_decide_eq_true this
    omega
  unfold encodeCodePoints at h
  dsimp only at h
  rw [if_neg hlen] at h
  obtain ⟨o₁, h1, h⟩ := bind_eq_ok h
  obtain rfl := foldlM_appendOutputChar h1
  obtain ⟨o₂, h2, h⟩ := bind_eq_ok h
  obtain rfl := foldlM_appendOutputChar h2
  obtain ⟨o₃, h3, hrounds⟩ := bind_eq_ok h
  have hbasic := basic_lower cps
  have hlength : (cps.filter (· < 0x80)).length =
      ((cps.map lowerLetter).filter (· < 0x80)).length := by
    rw [← hbasic, List.length_map, List.length_map]
  have hcount : cps.length = (cps.map lowerLetter).length := (List.length_map _).symm
  rw [← punycodeRounds_lower cps _ _ le_rfl, hlength, hcount] at hrounds
  obtain ⟨digits, rfl, hdigits, hdecode⟩ := punycodeRounds_decode (tracks_start _ o₃)
    (Nat.le_add_right _ _) hrounds
  have hread := mapM_digitValue hdigits
  have hnot : ∀ c ∈ (digits.map encodePunycodeDigit).map UInt8.toNat, c ≠ punycode.delimiter := by
    intro c hc
    obtain ⟨b, hb, rfl⟩ := List.mem_map.1 hc
    obtain ⟨d, hd, rfl⟩ := List.mem_map.1 hb
    exact encodePunycodeDigit_ne (hdigits d hd)
  have hlabel : ∀ c ∈ digits.map encodePunycodeDigit, isLabelByte c = true := by
    intro c hc
    obtain ⟨d, hd, rfl⟩ := List.mem_map.1 hc
    exact encodePunycodeDigit_label (hdigits d hd)
  rw [appendDelimiter, hlength] at h3
  by_cases hnil : (cps.map lowerLetter).filter (· < 0x80) = []
  · -- no ASCII code points: only digits
    rw [hnil, if_neg (not_not.2 List.length_nil)] at h3
    obtain rfl := Except.ok.inj h3
    have hempty : (cps.filter (· < 0x80)).map lowerCodePoint = [] := by
      rw [hnil] at hbasic
      exact List.map_eq_nil_iff.1 hbasic
    refine ⟨digits.map encodePunycodeDigit, ?_, hlabel, ?_⟩
    · rw [hempty, List.append_nil, List.append_assoc]
    · rw [punycode.decode_digits hnot hread, ← hdecode, hnil]
      rfl
  · rw [if_pos fun h0 => hnil (List.length_eq_zero_iff.1 h0)] at h3
    obtain rfl := appendOutputChar_eq h3
    refine ⟨(cps.filter (· < 0x80)).map lowerCodePoint ++ 45 :: digits.map encodePunycodeDigit,
      by simp, fun c hc => ?_, ?_⟩
    · rcases List.mem_append.1 hc with hc | hc
      · obtain ⟨d, hd, rfl⟩ := List.mem_map.1 hc
        obtain ⟨hmem, hlt⟩ := List.mem_filter.1 hd
        exact lowerCodePoint_label (hv d hmem (of_decide_eq_true hlt))
      · rcases List.mem_cons.1 hc with rfl | hc
        · rfl
        · exact hlabel c hc
    have hlt : ∀ c ∈ (cps.map lowerLetter).filter (· < 0x80), c < punycode.initialN :=
      fun c hc => of_decide_eq_true (List.mem_filter.1 hc).2
    rw [List.map_append, List.map_cons, hbasic]
    exact (punycode.decode_basic hnil hlt hnot hread).trans hdecode

/-! ## UTF-8 -/

section Utf8

open WebSocket

variable {rest : Bytes} {v value : ℕ}

theorem decodeContinuation_succ {count : ℕ} {text : Bytes}
    (h : decodeContinuation (count + 1) value text = .ok (v, rest)) :
    ∃ c tail, text = c :: tail ∧ c.toNat / 64 = 2 ∧
      decodeContinuation count (value * 64 + c.toNat % 64) tail = .ok (v, rest) := by
  cases text with
  | nil => cases h
  | cons c tail =>
    rw [decodeContinuation] at h
    split_ifs at h with hc
    exact ⟨c, tail, rfl, not_not.1 hc, h⟩

theorem decodeContinuation_zero {text : Bytes}
    (h : decodeContinuation 0 value text = .ok (v, rest)) : value = v ∧ text = rest :=
  Prod.mk.inj (Except.ok.inj h)

theorem decodeUtf8CodePoint_char {text : Bytes} (h : decodeUtf8CodePoint text = .ok (v, rest)) :
    ∃ ch : Char, ch.val.toNat = v ∧ text = String.utf8EncodeChar ch ++ rest := by
  cases text with
  | nil => cases h
  | cons c text =>
    rw [decodeUtf8CodePoint] at h
    dsimp only at h
    split_ifs at h with h1 h2 h3 h4
    · obtain ⟨rfl, rfl⟩ := Prod.mk.inj (Except.ok.inj h)
      obtain ⟨ch, hch⟩ := exists_char (v := c.toNat) (.inl (by omega))
      refine ⟨ch, hch, ?_⟩
      rw [utf8EncodeChar_one hch (by omega), UInt8.ofNat_toNat]
      rfl
    · obtain ⟨⟨value, rest'⟩, hd, h⟩ := bind_eq_ok h
      split_ifs at h with hbad
      obtain ⟨rfl, rfl⟩ := Prod.mk.inj (Except.ok.inj h)
      obtain ⟨d, tail, rfl, hd1, hd⟩ := decodeContinuation_succ hd
      obtain ⟨rfl, rfl⟩ := decodeContinuation_zero hd
      obtain ⟨ch, hch⟩ := exists_char (v := c.toNat % 32 * 64 + d.toNat % 64) (by omega)
      refine ⟨ch, hch, ?_⟩
      rw [utf8EncodeChar_two hch (by omega) (by omega), eq_ofNat (c := c) (by omega),
        eq_ofNat (c := d) (by omega)]
      rfl
    · obtain ⟨⟨value, rest'⟩, hd, h⟩ := bind_eq_ok h
      split_ifs at h with hbad
      obtain ⟨rfl, rfl⟩ := Prod.mk.inj (Except.ok.inj h)
      obtain ⟨d, tail, rfl, hd1, hd⟩ := decodeContinuation_succ hd
      obtain ⟨e, tail, rfl, he1, hd⟩ := decodeContinuation_succ hd
      obtain ⟨rfl, rfl⟩ := decodeContinuation_zero hd
      obtain ⟨ch, hch⟩ := exists_char
        (v := (c.toNat % 16 * 64 + d.toNat % 64) * 64 + e.toNat % 64) (by omega)
      refine ⟨ch, hch, ?_⟩
      rw [utf8EncodeChar_three hch (by omega) (by omega), eq_ofNat (c := c) (by omega),
        eq_ofNat (c := d) (by omega), eq_ofNat (c := e) (by omega)]
      rfl
    · obtain ⟨⟨value, rest'⟩, hd, h⟩ := bind_eq_ok h
      split_ifs at h with hbad
      obtain ⟨rfl, rfl⟩ := Prod.mk.inj (Except.ok.inj h)
      obtain ⟨d, tail, rfl, hd1, hd⟩ := decodeContinuation_succ hd
      obtain ⟨e, tail, rfl, he1, hd⟩ := decodeContinuation_succ hd
      obtain ⟨f, tail, rfl, hf1, hd⟩ := decodeContinuation_succ hd
      obtain ⟨rfl, rfl⟩ := decodeContinuation_zero hd
      obtain ⟨ch, hch⟩ := exists_char
        (v := ((c.toNat % 8 * 64 + d.toNat % 64) * 64 + e.toNat % 64) * 64 + f.toNat % 64)
        (by omega)
      refine ⟨ch, hch, ?_⟩
      rw [utf8EncodeChar_four hch (by omega), eq_ofNat (c := c) (by omega),
        eq_ofNat (c := d) (by omega), eq_ofNat (c := e) (by omega), eq_ofNat (c := f) (by omega)]
      rfl

theorem decodeLabel_chars {label : Bytes} {cps : List ℕ} (h : decodeLabel label = .ok cps) :
    ∃ chars : List Char, label = chars.flatMap String.utf8EncodeChar ∧
      chars.map (·.val.toNat) = cps := by
  induction hn : label.length using Nat.strongRecOn generalizing label cps with
  | _ n ih =>
    cases label with
    | nil =>
      rw [decodeLabel] at h
      obtain rfl := Except.ok.inj h
      exact ⟨[], rfl, rfl⟩
    | cons c label =>
      obtain ⟨v, rest, tail, hd, -, ht, rfl⟩ := decodeLabel_cons h
      obtain ⟨ch, rfl, htext⟩ := decodeUtf8CodePoint_char hd
      obtain ⟨chars, rfl, rfl⟩ := ih _ (hn ▸ decodeUtf8CodePoint_length hd) ht rfl
      exact ⟨ch :: chars, htext, rfl⟩

end Utf8

/-! ## Names -/

/-- A label of at most 63 letters in lower case, digits and hyphens. -/
structure LabelText (t : Bytes) : Prop where
  octets : ∀ c ∈ t, isLabelByte c = true
  le : t.length ≤ 63

/-- **A label beyond ASCII becomes `xn--` and the Punycode of its characters.** -/
theorem punycodeEncodeLabel_decode
    (h : punycodeEncodeLabel label output = .ok encoded) (hn : containsNonAscii label = true) :
    ∃ (chars : List Char) (t : Bytes), label = chars.flatMap String.utf8EncodeChar ∧
      encoded = output ++ (text "xn--" ++ t) ∧ LabelText (text "xn--" ++ t) ∧
      punycode.decode (t.map UInt8.toNat) = some (chars.map fun c => lowerLetter c.val.toNat) := by
  obtain ⟨cps, hcps, h⟩ := bind_eq_ok h
  obtain ⟨encoded', hencode, h⟩ := bind_eq_ok h
  split_ifs at h with hle
  obtain rfl := Except.ok.inj h
  obtain ⟨chars, hlabel, rfl⟩ := decodeLabel_chars hcps
  obtain ⟨t, rfl, hoctets, hdecode⟩ := encodeCodePoints_decode hencode
    (decodeLabel_nonAscii hcps hn) (decodeLabel_valid hcps)
  refine ⟨chars, t, hlabel, rfl, ⟨fun c hc => ?_, ?_⟩, ?_⟩
  · rcases List.mem_append.1 hc with hc | hc
    · exact (show ∀ c ∈ text "xn--", isLabelByte c = true by decide +kernel) c hc
    · exact hoctets c hc
  · rw [List.length_append, Nat.add_sub_cancel_left] at hle
    exact hle
  · rw [hdecode, List.map_map]
    rfl

/-- A label of ASCII is put in lower case. -/
theorem punycodeEncodeLabel_ascii
    (h : punycodeEncodeLabel label output = .ok encoded) (ha : containsNonAscii label = false) :
    encoded = output ++ label.map toLowerAscii ∧ LabelText (label.map toLowerAscii) := by
  obtain ⟨cps, hcps, h⟩ := bind_eq_ok h
  obtain ⟨encoded', hencode, h⟩ := bind_eq_ok h
  split_ifs at h with hle
  obtain rfl := Except.ok.inj h
  obtain rfl := decodeLabel_ascii hcps ha
  have hlt : ∀ c ∈ label.map UInt8.toNat, c < 0x80 := by
    intro c hc
    obtain ⟨d, hd, rfl⟩ := List.mem_map.1 hc
    have := List.any_eq_false.1 ha d hd
    rw [decide_eq_true_eq] at this
    omega
  have hmap : (label.map UInt8.toNat).map lowerCodePoint = label.map toLowerAscii := by
    rw [List.map_map]
    refine List.map_congr_left fun c _ => ?_
    rw [Function.comp_apply, lowerCodePoint, UInt8.ofNat_toNat]
  have hencoded := encodeCodePoints_ascii hencode hlt
  rw [hmap] at hencoded
  subst hencoded
  refine ⟨rfl, fun c hc => ?_, ?_⟩
  · rw [← hmap] at hc
    obtain ⟨d, hd, rfl⟩ := List.mem_map.1 hc
    exact lowerCodePoint_label (decodeLabel_valid hcps d hd (hlt d hd))
  · rwa [List.length_append, Nat.add_sub_cancel_left] at hle

theorem utf8EncodeChar_lower {c d : Char} (h : lowerLetter c.val.toNat = lowerLetter d.val.toNat) :
    (String.utf8EncodeChar c).map toLowerAscii = (String.utf8EncodeChar d).map toLowerAscii := by
  by_cases hc : c.val.toNat < 0x80
  · have hlower := (lowerLetter_lt_iff le_rfl).2 hc
    rw [h] at hlower
    have hd := (lowerLetter_lt_iff le_rfl).1 hlower
    rw [lowerLetter, lowerLetter, if_pos hc, if_pos hd] at h
    rw [WebSocket.utf8EncodeChar_one rfl (by omega), WebSocket.utf8EncodeChar_one rfl (by omega)]
    exact congrArg (fun b => [b]) (UInt8.toNat_inj.1 h)
  · have hge : ¬ lowerLetter c.val.toNat < 0x80 := fun hlt => hc ((lowerLetter_lt_iff le_rfl).1 hlt)
    rw [h] at hge
    have hd : ¬ d.val.toNat < 0x80 := fun hlt => hge ((lowerLetter_lt_iff le_rfl).2 hlt)
    rw [lowerLetter, lowerLetter, if_neg hc, if_neg hd] at h
    rw [Char.ext (UInt32.toNat_inj.1 h)]

theorem flatMap_utf8_lower {chars chars' : List Char}
    (h : (chars.map fun c => lowerLetter c.val.toNat) =
      chars'.map fun c => lowerLetter c.val.toNat) :
    (chars.flatMap String.utf8EncodeChar).map toLowerAscii =
      (chars'.flatMap String.utf8EncodeChar).map toLowerAscii := by
  induction chars generalizing chars' with
  | nil =>
    obtain rfl := List.map_eq_nil_iff.1 h.symm
    rfl
  | cons c chars ih =>
    cases chars' with
    | nil => cases h
    | cons d chars' =>
      obtain ⟨hc, hchars⟩ := List.cons.inj h
      rw [List.flatMap_cons, List.flatMap_cons, List.map_append, List.map_append,
        utf8EncodeChar_lower hc, ih hchars]

/-- **Different labels have different names**, if both are of ASCII or neither is. -/
theorem punycodeEncodeLabel_injective {label' : Bytes}
    (h : punycodeEncodeLabel label output = .ok encoded)
    (h' : punycodeEncodeLabel label' output = .ok encoded)
    (hn : containsNonAscii label = containsNonAscii label') :
    label.map toLowerAscii = label'.map toLowerAscii := by
  cases ha : containsNonAscii label with
  | false =>
    have heq := (punycodeEncodeLabel_ascii h ha).1
    rw [(punycodeEncodeLabel_ascii h' (hn ▸ ha)).1] at heq
    exact (List.append_cancel_left heq).symm
  | true =>
    obtain ⟨chars, t, rfl, hencoded, -, hdecode⟩ := punycodeEncodeLabel_decode h ha
    obtain ⟨chars', t', rfl, hencoded', -, hdecode'⟩ := punycodeEncodeLabel_decode h' (hn ▸ ha)
    obtain rfl : t = t' :=
      List.append_cancel_left (List.append_cancel_left (hencoded.symm.trans hencoded'))
    rw [hdecode] at hdecode'
    exact flatMap_utf8_lower (Option.some.inj hdecode')

theorem punycodeEncodeLabel_text (hne : label ≠ [])
    (h : punycodeEncodeLabel label output = .ok encoded) :
    ∃ t, encoded = output ++ t ∧ t ≠ [] ∧ LabelText t := by
  cases hn : containsNonAscii label with
  | true =>
    obtain ⟨chars, t, -, rfl, hform, -⟩ := punycodeEncodeLabel_decode h hn
    exact ⟨_, rfl, nofun, hform⟩
  | false =>
    obtain ⟨rfl, hform⟩ := punycodeEncodeLabel_ascii h hn
    exact ⟨_, rfl, fun hnil => hne (List.map_eq_nil_iff.1 hnil), hform⟩

theorem isLabelByte_spec {c : UInt8} (h : isLabelByte c = true) :
    c.toNat < 0x80 ∧ isValidDnsLabelByte c = true ∧ toLowerAscii c = c ∧ c ≠ dot := by
  revert c
  decide +kernel

theorem decodeLabel_of_text (h : ∀ c ∈ t, isLabelByte c = true) :
    decodeLabel t = .ok (t.map UInt8.toNat) := by
  induction t with
  | nil => rw [decodeLabel]; rfl
  | cons c t ih =>
    obtain ⟨hc, ht⟩ := List.forall_mem_cons.1 h
    obtain ⟨hlt, hvalid, -, hdot⟩ := isLabelByte_spec hc
    have hfirst : decodeUtf8CodePoint (c :: t) = .ok (c.toNat, t) := by
      rw [decodeUtf8CodePoint]
      exact if_pos hlt
    have hne : c.toNat ≠ 46 := fun hc => hdot (UInt8.toNat_inj.1 hc)
    rw [decodeLabel]
    split
    · rename_i status hstatus
      rw [hfirst] at hstatus
      cases hstatus
    · rename_i codePoint rest hrest
      rw [hfirst] at hrest
      obtain ⟨rfl, rfl⟩ := Prod.mk.inj (Except.ok.inj hrest)
      rw [if_neg hne, if_neg (by rw [UInt8.ofNat_toNat]; exact fun h => h.2 hvalid), ih ht]
      rfl

theorem foldlM_appendOutputChar_of_le {cs : Bytes} (h : output.length + cs.length ≤ 256) :
    cs.foldlM appendOutputChar output = .ok (output ++ cs) := by
  induction cs generalizing output with
  | nil => rw [List.append_nil]; rfl
  | cons c cs ih =>
    rw [List.length_cons] at h
    rw [List.foldlM_cons, bind_of_ok (appendOutputChar_of_lt (by omega) c), ih (by rw [List.length_append, List.length_singleton]; omega),
      List.append_assoc, List.singleton_append]

theorem punycodeEncodeLabel_of_text (h : LabelText t) (output : Bytes)
    (hroom : output.length + t.length ≤ 256) :
    punycodeEncodeLabel t output = .ok (output ++ t) := by
  have hall : (t.map UInt8.toNat).filter (· < 0x80) = t.map UInt8.toNat := by
    refine List.filter_eq_self.2 fun n hn => ?_
    obtain ⟨c, hc, rfl⟩ := List.mem_map.1 hn
    exact decide_eq_true (isLabelByte_spec (h.octets c hc)).1
  have hmap : (t.map UInt8.toNat).map lowerCodePoint = t := by
    rw [List.map_map]
    conv_rhs => rw [← List.map_id t]
    refine List.map_congr_left fun c hc => ?_
    rw [Function.comp_apply, lowerCodePoint, UInt8.ofNat_toNat]
    exact (isLabelByte_spec (h.octets c hc)).2.2.1
  have hencode : encodeCodePoints (t.map UInt8.toNat) output = .ok (output ++ t) := by
    rw [encodeCodePoints, hall, if_pos rfl, hmap]
    exact foldlM_appendOutputChar_of_le hroom
  rw [punycodeEncodeLabel, bind_of_ok (decodeLabel_of_text h.octets), bind_of_ok hencode,
    List.length_append, Nat.add_sub_cancel_left, if_pos h.le]

/-- Labels with a dot between them, and maybe one at the end. -/
inductive NameText : Bytes → Prop
  | nil : NameText []
  | label {t : Bytes} (hne : t ≠ []) (ht : LabelText t) : NameText t
  | cons {t rest : Bytes} (hne : t ≠ []) (ht : LabelText t) (hrest : NameText rest) :
      NameText (t ++ dot :: rest)

theorem normalizeLabels_text (h : normalizeLabels host output = .ok encoded) :
    ∃ t, encoded = output ++ t ∧ NameText t := by
  induction hn : host.length using Nat.strongRecOn generalizing host output with
  | _ n ih =>
    cases host with
    | nil =>
      rw [normalizeLabels] at h
      exact ⟨[], by simpa using (Except.ok.inj h).symm, .nil⟩
    | cons c host =>
      rw [normalizeLabels] at h
      split_ifs at h with hc
      split at h
      · cases h
      · rename_i o ho
        obtain ⟨t, rfl, hne, ht⟩ := punycodeEncodeLabel_text (List.cons_ne_nil _ _) ho
        split at h
        · exact ⟨t, (Except.ok.inj h).symm, .label hne ht⟩
        · rename_i d rest hdrop
          split at h
          · cases h
          · rename_i o' ho'
            rw [appendOutputChar_eq ho'] at h
            have hlength := (List.dropWhile_suffix (fun x : UInt8 => decide (x ≠ dot))
              (l := host)).length_le
            rw [hdrop, List.length_cons] at hlength
            obtain ⟨u, rfl, hu⟩ := ih rest.length (by rw [← hn, List.length_cons]; omega) h rfl
            exact ⟨t ++ dot :: u, by simp, .cons hne ht hu⟩

theorem normalizeLabels_label (hne : t ≠ []) (ht : LabelText t) :
    normalizeLabels t output = punycodeEncodeLabel t output := by
  obtain ⟨c, t, rfl⟩ := List.exists_cons_of_ne_nil hne
  have hdots : ∀ b ∈ c :: t, b ≠ dot := fun b hb => (isLabelByte_spec (ht.octets b hb)).2.2.2
  obtain ⟨hc, hdots⟩ := List.forall_mem_cons.1 hdots
  have htake : t.takeWhile (· ≠ dot) = t :=
    List.takeWhile_eq_self_iff.2 fun b hb => decide_eq_true (hdots b hb)
  have hdrop : t.dropWhile (· ≠ dot) = [] :=
    List.dropWhile_eq_nil_iff.2 fun b hb => decide_eq_true (hdots b hb)
  rw [normalizeLabels, if_neg hc, htake]
  cases punycodeEncodeLabel (c :: t) output with
  | error status => rfl
  | ok o =>
    dsimp only
    split
    · rfl
    · rename_i d rest hrest
      rw [hdrop] at hrest
      cases hrest

theorem normalizeLabels_cons {rest : Bytes} (hne : t ≠ []) (ht : LabelText t) :
    normalizeLabels (t ++ dot :: rest) output = (punycodeEncodeLabel t output >>= fun output =>
      appendOutputChar output dot >>= fun output => normalizeLabels rest output) := by
  obtain ⟨c, t, rfl⟩ := List.exists_cons_of_ne_nil hne
  have hdots : ∀ b ∈ c :: t, b ≠ dot := fun b hb => (isLabelByte_spec (ht.octets b hb)).2.2.2
  obtain ⟨hc, hdots⟩ := List.forall_mem_cons.1 hdots
  have hall : ∀ b ∈ t, decide (b ≠ dot) = true := fun b hb => decide_eq_true (hdots b hb)
  have htake : (t ++ dot :: rest).takeWhile (· ≠ dot) = t := by
    rw [List.takeWhile_append_of_pos hall]
    simp
  have hdrop : (t ++ dot :: rest).dropWhile (· ≠ dot) = dot :: rest := by
    rw [List.dropWhile_append_of_pos hall]
    simp
  rw [List.cons_append, normalizeLabels, if_neg hc, htake]
  cases punycodeEncodeLabel (c :: t) output with
  | error status => rfl
  | ok o =>
    rw [bind_of_ok rfl]
    dsimp only
    split
    · rename_i hnil
      rw [hdrop] at hnil
      cases hnil
    · rename_i d rest' hrest
      rw [hdrop] at hrest
      obtain ⟨-, rfl⟩ := List.cons.inj hrest
      cases appendOutputChar o dot
      all_goals rfl

theorem normalizeLabels_of_text (h : NameText t) : ∀ output : Bytes,
    output.length + t.length ≤ 256 → normalizeLabels t output = .ok (output ++ t) := by
  induction h with
  | nil =>
    intro output _
    rw [normalizeLabels, List.append_nil]
  | @label t hne ht =>
    intro output hroom
    rw [normalizeLabels_label hne ht, punycodeEncodeLabel_of_text ht output hroom]
  | @cons t rest hne ht hrest ih =>
    intro output hroom
    rw [List.length_append, List.length_cons] at hroom
    have hlabel := punycodeEncodeLabel_of_text ht output (by omega)
    have hdot : appendOutputChar (output ++ t) dot = .ok (output ++ t ++ [dot]) := by
      refine appendOutputChar_of_lt ?_ dot
      rw [List.length_append]
      omega
    rw [normalizeLabels_cons hne ht, bind_of_ok hlabel, bind_of_ok hdot, ih _ (by simp; omega)]
    simp

theorem NameText.ascii (h : NameText t) : ∀ c ∈ t, c.toNat < 0x80 := by
  induction h with
  | nil => exact nofun
  | label _ ht => exact fun c hc => (isLabelByte_spec (ht.octets c hc)).1
  | cons _ ht _ ih =>
    intro c hc
    rcases List.mem_append.1 hc with hc | hc
    · exact (isLabelByte_spec (ht.octets c hc)).1
    · rcases List.mem_cons.1 hc with rfl | hc
      · decide
      · exact ih c hc

/-- What `NormalizeDnsHost` writes is a name. -/
theorem normalizeDnsName_text
    (h : normalizeDnsName host enableIdna = .ok t) : t ≠ [] ∧ t.length ≤ 255 ∧ NameText t := by
  unfold normalizeDnsName at h
  split_ifs at h
  obtain ⟨output, hlabels, h⟩ := bind_eq_ok h
  split_ifs at h with hlen
  obtain rfl := Except.ok.inj h
  obtain ⟨t, rfl, ht⟩ := normalizeLabels_text hlabels
  rw [not_or, certificateMaxNormalizedDnsNameLength] at hlen
  exact ⟨fun hnil => hlen.1 (by rw [hnil]; rfl), Nat.not_lt.1 hlen.2, ht⟩

theorem normalizeDnsName_of_text (hne : t ≠ []) (hle : t.length ≤ 255)
    (ht : NameText t) (enableIdna : Bool) : normalizeDnsName t enableIdna = .ok t := by
  have hascii : containsNonAscii t = false := by
    refine List.any_eq_false.2 fun c hc => ?_
    have := ht.ascii c hc
    rw [decide_eq_true_eq]
    omega
  have hlabels := normalizeLabels_of_text ht [] (by simpa using hle.trans (by decide))
  have hlength : t.length ≠ 0 := fun h0 => hne (List.length_eq_zero_iff.1 h0)
  rw [normalizeDnsName, if_neg hlength, if_neg (by simp [hascii]), bind_of_ok hlabels,
    List.nil_append]
  refine if_neg ?_
  rw [not_or, certificateMaxNormalizedDnsNameLength]
  exact ⟨hlength, Nat.not_lt.2 hle⟩

/-- **`NormalizeDnsHost` leaves what it has written.** -/
theorem normalizeDnsName_idempotent
    (h : normalizeDnsName host enableIdna = .ok t) (enableIdna' : Bool) :
    normalizeDnsName t enableIdna' = .ok t := by
  obtain ⟨hne, hle, ht⟩ := normalizeDnsName_text h
  exact normalizeDnsName_of_text hne hle ht enableIdna'

end KernelHttp.Engine
