/-
  The `ULONG` arithmetic of `PunycodeEncodeLabel`.

  Every operation on `ULONG` is checked and the turns of every loop are counted.
-/
import KernelHttp.Lib.Checked
import KernelHttp.Engine.Punycode

namespace KernelHttp.Engine

open Checked Incremental Tls

/-- A number, if it is a `ULONG`. -/
def ulong (x : ℤ) : Option ℕ := (represent 0 0xffffffff x).map Int.toNat

variable {output output' : Bytes} {codePoints : List ℕ} {n delta k bias q basicCount : ℕ}

theorem ulong_eq {x : ℤ} (h : x = n) (hle : n ≤ 0xffffffff) : ulong x = some n := by
  subst h
  rw [ulong, represent_eq (by omega) (by omega)]
  rfl

/-! ## Code points -/

/-- The continuation octets of `DecodeUtf8CodePoint`. -/
def decodeContinuationChecked : ℕ → ℕ → Bytes → Option (Except NTSTATUS (ℕ × Bytes))
  | 0, value, text => some (.ok (value, text))
  | _ + 1, _, [] => some (.error statusInvalidParameter)
  | count + 1, value, next :: text =>
    if next.toNat / 64 ≠ 2 then some (.error statusInvalidParameter)
    else do
      let value ← ulong (value * 64 + (next.toNat % 64 : ℕ))
      decodeContinuationChecked count value text

/-- `DecodeUtf8CodePoint`. -/
def decodeUtf8CodePointChecked (text : Bytes) : Option (Except NTSTATUS (ℕ × Bytes)) :=
  match text with
  | [] => some (.error statusInvalidParameter)
  | first :: rest =>
    let first := first.toNat
    if first < 0x80 then some (.ok (first, rest))
    else
      let lead : Option (ℕ × ℕ × ℕ) :=
        if first / 32 = 6 then some (2, first % 32, 0x80)
        else if first / 16 = 14 then some (3, first % 16, 0x800)
        else if first / 8 = 30 then some (4, first % 8, 0x10000)
        else none
      match lead with
      | none => some (.error statusInvalidParameter)
      | some (expectedLength, value, least) =>
        (decodeContinuationChecked (expectedLength - 1) value rest).map fun decoded => do
          let (value, rest) ← decoded
          if value < least ∨ (0xd800 ≤ value ∧ value ≤ 0xdfff) ∨ value > 0x10ffff then
            .error statusInvalidParameter
          else .ok (value, rest)

theorem decodeContinuationChecked_eq {count value : ℕ} {text : Bytes}
    (h : value * 64 ^ count + 64 ^ count ≤ 2 ^ 32) :
    decodeContinuationChecked count value text = some (decodeContinuation count value text) := by
  induction count generalizing value text with
  | zero => rfl
  | succ count ih =>
    cases text with
    | nil => rfl
    | cons next text =>
      have hlow : next.toNat % 64 < 64 := Nat.mod_lt _ (by decide)
      have hpow : 0 < 64 ^ count := Nat.pow_pos (by decide)
      have hnext : (value * 64 + next.toNat % 64) * 64 ^ count + 64 ^ count ≤ 2 ^ 32 := by
        calc (value * 64 + next.toNat % 64) * 64 ^ count + 64 ^ count
            = value * 64 ^ (count + 1) + (next.toNat % 64 + 1) * 64 ^ count := by ring
          _ ≤ value * 64 ^ (count + 1) + 64 * 64 ^ count :=
            Nat.add_le_add_left (Nat.mul_le_mul_right _ hlow) _
          _ = value * 64 ^ (count + 1) + 64 ^ (count + 1) := by ring
          _ ≤ 2 ^ 32 := h
      have hle : value * 64 + next.toNat % 64 ≤ 0xffffffff := by
        have := Nat.le_mul_of_pos_right (value * 64 + next.toNat % 64) hpow
        omega
      rw [decodeContinuationChecked, decodeContinuation]
      split_ifs
      · rfl
      · rw [ulong_eq (n := value * 64 + next.toNat % 64) (by push_cast; rfl) hle]
        exact ih hnext

theorem decodeUtf8CodePointChecked_eq (text : Bytes) :
    decodeUtf8CodePointChecked text = some (decodeUtf8CodePoint text) := by
  cases text with
  | nil => rfl
  | cons first rest =>
    rw [decodeUtf8CodePointChecked, decodeUtf8CodePoint]
    dsimp only
    split_ifs with h1 h2 h3 h4
    · rfl
    · dsimp only
      rw [decodeContinuationChecked_eq (by omega)]
      rfl
    · dsimp only
      rw [decodeContinuationChecked_eq (by omega)]
      rfl
    · dsimp only
      rw [decodeContinuationChecked_eq (by omega)]
      rfl
    · rfl

/-- The code points of a label. -/
def decodeLabelChecked (label : Bytes) : Option (Except NTSTATUS (List ℕ)) :=
  match label with
  | [] => some (.ok [])
  | c :: label =>
    match _h : decodeUtf8CodePointChecked (c :: label) with
    | none => none
    | some (.error status) => some (.error status)
    | some (.ok (codePoint, rest)) =>
      if codePoint = 46 then some (.error statusInvalidParameter)
      else if codePoint < 0x80 ∧ ¬ isValidDnsLabelByte (UInt8.ofNat codePoint) then
        some (.error statusInvalidParameter)
      else (decodeLabelChecked rest).map fun codePoints => codePoints.map (codePoint :: ·)
termination_by label.length
decreasing_by
  rw [decodeUtf8CodePointChecked_eq] at _h
  exact decodeUtf8CodePoint_length (Option.some.inj _h)

section Labels

variable {c : UInt8} {label rest : Bytes} {codePoint : ℕ} {status : NTSTATUS}

theorem decodeLabel_of_error (h : decodeUtf8CodePoint (c :: label) = .error status) :
    decodeLabel (c :: label) = .error status := by
  rw [decodeLabel]
  split
  · rename_i status' h'
    rw [h] at h'
    rw [Except.error.inj h']
  · rename_i h'
    rw [h] at h'
    cases h'

theorem decodeLabel_of_ok (h : decodeUtf8CodePoint (c :: label) = .ok (codePoint, rest)) :
    decodeLabel (c :: label) =
      if codePoint = 46 then .error statusInvalidParameter
      else if codePoint < 0x80 ∧ ¬ isValidDnsLabelByte (UInt8.ofNat codePoint) then
        .error statusInvalidParameter
      else (decodeLabel rest).map (codePoint :: ·) := by
  rw [decodeLabel]
  split
  · rename_i h'
    rw [h] at h'
    cases h'
  · rename_i codePoint' rest' h'
    rw [h] at h'
    obtain ⟨rfl, rfl⟩ := Prod.mk.inj (Except.ok.inj h')
    split_ifs
    · rfl
    · rfl
    · cases decodeLabel rest
      all_goals rfl

theorem decodeLabelChecked_of_error (h : decodeUtf8CodePoint (c :: label) = .error status) :
    decodeLabelChecked (c :: label) = some (.error status) := by
  have heq := decodeUtf8CodePointChecked_eq (c :: label)
  rw [h] at heq
  rw [decodeLabelChecked]
  split
  · rename_i h'
    rw [heq] at h'
    exact absurd h' nofun
  · rename_i status' h'
    rw [heq] at h'
    rw [Except.error.inj (Option.some.inj h')]
  · rename_i h'
    rw [heq] at h'
    exact absurd (Option.some.inj h') nofun

theorem decodeLabelChecked_of_ok (h : decodeUtf8CodePoint (c :: label) = .ok (codePoint, rest)) :
    decodeLabelChecked (c :: label) =
      if codePoint = 46 then some (.error statusInvalidParameter)
      else if codePoint < 0x80 ∧ ¬ isValidDnsLabelByte (UInt8.ofNat codePoint) then
        some (.error statusInvalidParameter)
      else (decodeLabelChecked rest).map fun codePoints => codePoints.map (codePoint :: ·) := by
  have heq := decodeUtf8CodePointChecked_eq (c :: label)
  rw [h] at heq
  rw [decodeLabelChecked]
  split
  · rename_i h'
    rw [heq] at h'
    exact absurd h' nofun
  · rename_i h'
    rw [heq] at h'
    exact absurd (Option.some.inj h') nofun
  · rename_i codePoint' rest' h'
    rw [heq] at h'
    obtain ⟨rfl, rfl⟩ := Prod.mk.inj (Except.ok.inj (Option.some.inj h'))
    rfl

end Labels

theorem decodeLabelChecked_eq (label : Bytes) :
    decodeLabelChecked label = some (decodeLabel label) := by
  induction hn : label.length using Nat.strongRecOn generalizing label with
  | _ n ih =>
    cases label with
    | nil => rw [decodeLabelChecked, decodeLabel]
    | cons c label =>
      cases hd : decodeUtf8CodePoint (c :: label) with
      | error status => rw [decodeLabelChecked_of_error hd, decodeLabel_of_error hd]
      | ok r =>
        obtain ⟨codePoint, rest⟩ := r
        rw [decodeLabelChecked_of_ok hd, decodeLabel_of_ok hd,
          ih _ (hn ▸ decodeUtf8CodePoint_length hd) rest rfl]
        split_ifs
        all_goals rfl

/-! ## Digits -/

/-- `EncodePunycodeDigit`. -/
def encodePunycodeDigitChecked (digit : ℕ) : Option UInt8 :=
  if digit < 26 then (ulong (97 + digit)).map UInt8.ofNat
  else do
    let rest ← ulong ((digit : ℤ) - 26)
    (ulong (48 + rest)).map UInt8.ofNat

/-- The loop of `AdaptPunycodeBias`. -/
def scalePunycodeDeltaChecked (delta k : ℕ) : Option (ℕ × ℕ) :=
  if _h : delta > 455 then do
    let k ← ulong (k + 36)
    scalePunycodeDeltaChecked (delta / 35) k
  else some (delta, k)
termination_by delta

/-- `AdaptPunycodeBias`. -/
def adaptPunycodeBiasChecked (delta numPoints : ℕ) (firstTime : Bool) : Option ℕ := do
  let delta := if firstTime then delta / 700 else delta / 2
  let delta ← ulong (delta + (delta / numPoints : ℕ))
  let (delta, k) ← scalePunycodeDeltaChecked delta 0
  let dividend ← ulong (36 * delta)
  let divisor ← ulong (delta + 38)
  ulong (k + (dividend / divisor : ℕ))

def thresholdChecked (bias k : ℕ) : Option ℕ :=
  if k ≤ bias then some 1
  else do
    let last ← ulong (bias + 26)
    if k ≥ last then some 26 else ulong ((k : ℤ) - bias)

/-- A digit that is not the last one, and what is left of `q`. -/
def digitChecked (t q : ℕ) : Option (UInt8 × ℕ) := do
  let high ← ulong ((q : ℤ) - t)
  let width ← ulong ((36 : ℤ) - t)
  let code ← ulong (t + (high % width : ℕ))
  let digit ← encodePunycodeDigitChecked code
  some (digit, high / width)

/-- The digits of `delta`, in at most as many turns. -/
def appendPunycodeDeltaChecked (bias : ℕ) :
    ℕ → ℕ → ℕ → Bytes → Option (Except NTSTATUS Bytes)
  | 0, _, _, _ => none
  | turns + 1, q, k, output => do
    let t ← thresholdChecked bias k
    if q < t then
      let digit ← encodePunycodeDigitChecked q
      some (appendOutputChar output digit)
    else
      let (digit, q) ← digitChecked t q
      match appendOutputChar output digit with
      | .error status => some (.error status)
      | .ok output =>
        let k ← ulong (k + 36)
        appendPunycodeDeltaChecked bias turns q k output

theorem encodePunycodeDigitChecked_eq {digit : ℕ} (h : digit < 36) :
    encodePunycodeDigitChecked digit = some (encodePunycodeDigit digit) := by
  rw [encodePunycodeDigitChecked, encodePunycodeDigit]
  split_ifs with hlt
  · rw [ulong_eq (n := 97 + digit) (by push_cast; rfl) (by omega)]
    rfl
  · rw [bind_of_some (ulong_eq (n := digit - 26) (by omega) (by omega)),
      ulong_eq (n := 48 + (digit - 26)) (by push_cast; rfl) (by omega)]
    rfl

theorem scalePunycodeDelta_le (delta k : ℕ) :
    (scalePunycodeDelta delta k).1 ≤ 455 ∧
      ((scalePunycodeDelta delta k).2 = k ∨ (scalePunycodeDelta delta k).2 + 400 ≤ k + delta) := by
  induction delta, k using scalePunycodeDelta.induct with
  | case1 delta k h ih =>
    rw [scalePunycodeDelta, if_pos h]
    omega
  | case2 delta k h =>
    rw [scalePunycodeDelta, if_neg h]
    exact ⟨Nat.not_lt.1 h, .inl rfl⟩

theorem scalePunycodeDeltaChecked_eq (h : k + delta ≤ 0xffffffff) :
    scalePunycodeDeltaChecked delta k = some (scalePunycodeDelta delta k) := by
  induction delta, k using scalePunycodeDelta.induct with
  | case1 delta k hgt ih =>
    rw [scalePunycodeDeltaChecked, dif_pos hgt, scalePunycodeDelta, if_pos hgt,
      ulong_eq (n := k + 36) (by push_cast; rfl) (by omega)]
    exact ih (by omega)
  | case2 delta k hle =>
    rw [scalePunycodeDeltaChecked, dif_neg hle, scalePunycodeDelta, if_neg hle]

theorem adaptPunycodeBiasChecked_eq (h : delta ≤ 0xffffffff) (numPoints : ℕ) (firstTime : Bool) :
    adaptPunycodeBiasChecked delta numPoints firstTime =
        some (adaptPunycodeBias delta numPoints firstTime) ∧
      adaptPunycodeBias delta numPoints firstTime + 26 ≤ 0xffffffff := by
  rw [adaptPunycodeBiasChecked, adaptPunycodeBias]
  dsimp only
  generalize hhalf : (if firstTime = true then delta / 700 else delta / 2) = half
  have hle : half ≤ 0x7fffffff := by
    rw [← hhalf]
    split_ifs <;> omega
  have hsum : half + half / numPoints ≤ 0xfffffffe := by
    have := Nat.div_le_self half numPoints
    omega
  obtain ⟨hsmall, hk⟩ := scalePunycodeDelta_le (half + half / numPoints) 0
  rw [bind_of_some (ulong_eq (n := half + half / numPoints) (by push_cast; rfl) (by omega)),
    bind_of_some (scalePunycodeDeltaChecked_eq (by omega))]
  generalize scalePunycodeDelta (half + half / numPoints) 0 = r at hsmall hk ⊢
  obtain ⟨small, k⟩ := r
  dsimp only at hsmall hk ⊢
  have hquotient : 36 * small / (small + 38) ≤ 36 := Nat.div_le_of_le_mul (by omega)
  refine ⟨?_, by omega⟩
  rw [bind_of_some (ulong_eq (n := 36 * small) (by push_cast; rfl) (by omega)),
    bind_of_some (ulong_eq (n := small + 38) (by push_cast; rfl) (by omega))]
  exact ulong_eq (by push_cast; rfl) (by omega)

theorem thresholdChecked_eq (h : bias + 26 ≤ 0xffffffff) (k : ℕ) :
    thresholdChecked bias k = some (punycode.threshold bias k) := by
  have ht : punycode.threshold bias k =
    if k ≤ bias then 1 else if k ≥ bias + 26 then 26 else k - bias := rfl
  rw [thresholdChecked, ht]
  split_ifs with h1 h2
  · rfl
  · rw [bind_of_some (ulong_eq (n := bias + 26) (by push_cast; rfl) h), if_pos h2]
  · rw [bind_of_some (ulong_eq (n := bias + 26) (by push_cast; rfl) h), if_neg h2]
    exact ulong_eq (by omega) (by omega)

theorem digitChecked_eq {t : ℕ} (ht : t < 36) (hge : ¬ q < t) (hq : q ≤ 0xffffffff) :
    digitChecked t q =
      some (encodePunycodeDigit (t + (q - t) % (36 - t)), (q - t) / (36 - t)) := by
  have hmod : (q - t) % (36 - t) < 36 - t := Nat.mod_lt _ (by omega)
  rw [digitChecked, bind_of_some (ulong_eq (n := q - t) (by omega) (by omega)),
    bind_of_some (ulong_eq (n := 36 - t) (by omega) (by omega)),
    bind_of_some (ulong_eq (n := t + (q - t) % (36 - t)) (by push_cast; rfl) (by omega)),
    bind_of_some (encodePunycodeDigitChecked_eq (by omega))]

theorem appendOutputChar_length {c : UInt8} (h : appendOutputChar output c = .ok output') :
    output'.length = output.length + 1 ∧ output'.length ≤ 256 := by
  obtain rfl := appendOutputChar_eq h
  rw [appendOutputChar, nameCapacity_eq] at h
  split_ifs at h
  rw [List.length_append, List.length_singleton]
  omega

theorem appendPunycodeDeltaChecked_eq (hbias : bias + 26 ≤ 0xffffffff) {turns : ℕ} :
    ∀ {q k : ℕ} {output : Bytes}, q ≤ 0xffffffff → k + 36 * turns ≤ 36 * 258 →
      output.length ≤ 256 → 257 ≤ turns + output.length →
      appendPunycodeDeltaChecked bias turns q k output =
        some (appendPunycodeDelta bias q k output) := by
  induction turns with
  | zero =>
    intro q k output _ _ hle hroom
    omega
  | succ turns ih =>
    intro q k output hq hk hle hroom
    have hlt : punycode.threshold bias k < 36 := punycode.threshold_lt bias k
    rw [appendPunycodeDeltaChecked, bind_of_some (thresholdChecked_eq hbias k),
      appendPunycodeDelta_eq]
    generalize punycode.threshold bias k = t at hlt ⊢
    split_ifs with hqt
    · rw [encodePunycodeDigitChecked_eq (by omega)]
      rfl
    · rw [bind_of_some (digitChecked_eq hlt hqt hq)]
      dsimp only
      cases happend : appendOutputChar output (encodePunycodeDigit (t + (q - t) % (36 - t))) with
      | error status => rfl
      | ok output' =>
        obtain ⟨hlength, hle'⟩ := appendOutputChar_length happend
        have hrest : (q - t) / (36 - t) ≤ 0xffffffff :=
          (Nat.div_le_self _ _).trans (by omega)
        dsimp only
        rw [bind_of_some (ulong_eq (n := k + 36) (by push_cast; rfl) (by omega)),
          ih hrest (by omega) hle' (by omega)]
        rfl

/-! ## Rounds -/

/-- A code point in a round for `n`. -/
def punycodeCodePointChecked (n basicCount : ℕ) (s : PunycodeState) (codePoint : ℕ) :
    Option (Except NTSTATUS PunycodeState) :=
  if codePoint < n then
    if s.delta = 0xffffffff then some (.error statusIntegerOverflow)
    else do
      let delta ← ulong (s.delta + 1)
      some (.ok { s with delta := delta })
  else if codePoint = n then do
    let appended ← appendPunycodeDeltaChecked s.bias 257 s.delta 36 s.output
    match appended with
    | .error status => some (.error status)
    | .ok output =>
      let numPoints ← ulong (s.handledCount + 1)
      let bias ← adaptPunycodeBiasChecked s.delta numPoints (s.handledCount == basicCount)
      some (.ok { delta := 0
                  bias := bias
                  handledCount := s.handledCount + 1
                  output := output })
  else some (.ok s)

/-- The code points of a round. -/
def punycodeRoundChecked (n basicCount : ℕ) :
    List ℕ → PunycodeState → Option (Except NTSTATUS PunycodeState)
  | [], s => some (.ok s)
  | codePoint :: codePoints, s => do
    match ← punycodeCodePointChecked n basicCount s codePoint with
    | .error status => some (.error status)
    | .ok s => punycodeRoundChecked n basicCount codePoints s

/-- The numbers of a state are in range. -/
structure InRange (s : PunycodeState) : Prop where
  delta : s.delta ≤ 0xffffffff
  bias : s.bias + 26 ≤ 0xffffffff
  handled : s.handledCount ≤ s.output.length
  output : s.output.length ≤ 256

theorem appendPunycodeDelta_length (h : appendPunycodeDelta bias q k output = .ok output') :
    output.length + 1 ≤ output'.length ∧ output'.length ≤ 256 := by
  induction k, q using Bootstring.Parameters.integerDigits.induct punycode bias
    generalizing output with
  | case1 k q hlt =>
    rw [appendPunycodeDelta_eq, if_pos hlt] at h
    have := appendOutputChar_length h
    omega
  | case2 k q hge ih =>
    rw [appendPunycodeDelta_eq, if_neg hge] at h
    obtain ⟨output₁, houtput, h⟩ := bind_eq_ok h
    have := appendOutputChar_length houtput
    have := ih h
    omega

theorem punycodeCodePointChecked_eq (n basicCount codePoint : ℕ) {s : PunycodeState}
    (h : InRange s) :
    punycodeCodePointChecked n basicCount s codePoint =
        some (punycodeCodePoint n basicCount s codePoint) ∧
      ∀ s', punycodeCodePoint n basicCount s codePoint = .ok s' → InRange s' := by
  obtain ⟨hdelta, hbias, hhandled, houtput⟩ := h
  rw [punycodeCodePointChecked, punycodeCodePoint]
  split_ifs with hlt hfull heq
  · exact ⟨rfl, fun s' hs => by cases hs⟩
  · have hnext : s.delta + 1 ≤ 0xffffffff := by omega
    refine ⟨?_, fun s' hs => ?_⟩
    · rw [ulong_eq (n := s.delta + 1) (by push_cast; rfl) hnext]
      rfl
    · obtain rfl := Except.ok.inj hs
      exact ⟨hnext, hbias, hhandled, houtput⟩
  · rw [bind_of_some (appendPunycodeDeltaChecked_eq hbias hdelta (by decide) houtput (by omega))]
    cases happend : appendPunycodeDelta s.bias s.delta 36 s.output with
    | error status => exact ⟨rfl, fun s' hs => by cases hs⟩
    | ok output =>
      have hlength := appendPunycodeDelta_length happend
      obtain ⟨hadapt, hbias'⟩ := adaptPunycodeBiasChecked_eq hdelta (s.handledCount + 1)
        (s.handledCount == basicCount)
      refine ⟨?_, fun s' hs => ?_⟩
      · dsimp only
        rw [bind_of_some (ulong_eq (n := s.handledCount + 1) (by push_cast; rfl) (by omega)),
          bind_of_some hadapt]
        rfl
      · obtain rfl := Except.ok.inj hs
        exact ⟨Nat.zero_le _, hbias', by dsimp only; omega, hlength.2⟩
  · refine ⟨rfl, fun s' hs => ?_⟩
    obtain rfl := Except.ok.inj hs
    exact ⟨hdelta, hbias, hhandled, houtput⟩

theorem punycodeRoundChecked_eq (n basicCount : ℕ) (codePoints : List ℕ) : ∀ {s : PunycodeState},
    InRange s → punycodeRoundChecked n basicCount codePoints s =
        some (codePoints.foldlM (punycodeCodePoint n basicCount) s) ∧
      ∀ s', codePoints.foldlM (punycodeCodePoint n basicCount) s = .ok s' → InRange s' := by
  induction codePoints with
  | nil =>
    intro s h
    refine ⟨rfl, fun s' hs => ?_⟩
    obtain rfl := Except.ok.inj hs
    exact h
  | cons codePoint codePoints ih =>
    intro s h
    obtain ⟨heq, hrange⟩ := punycodeCodePointChecked_eq n basicCount codePoint h
    rw [punycodeRoundChecked, bind_of_some heq, List.foldlM_cons]
    cases hs : punycodeCodePoint n basicCount s codePoint with
    | error status => exact ⟨rfl, nofun⟩
    | ok s₁ => exact ih (hrange s₁ hs)

/-- The rounds of `PunycodeEncodeLabel`. -/
def punycodeRoundsChecked (codePoints : List ℕ) (basicCount : ℕ) :
    ℕ → ℕ → PunycodeState → Option (Except NTSTATUS Bytes)
  | 0, _, s => if s.handledCount ≥ codePoints.length then some (.ok s.output) else none
  | rounds + 1, n, s =>
    if s.handledCount ≥ codePoints.length then some (.ok s.output)
    else
      let m := codePoints.foldl (fun m c => if n ≤ c ∧ c < m then c else m) 0x10ffff
      if m = 0x10ffff ∨ m < n then some (.error statusIntegerOverflow)
      else do
        let skipped ← ulong ((m : ℤ) - n)
        let room ← ulong (0xffffffff - (s.delta : ℤ))
        let numPoints ← ulong (s.handledCount + 1)
        if skipped > room / numPoints then some (.error statusIntegerOverflow)
        else
          let steps ← ulong ((skipped : ℤ) * numPoints)
          let delta ← ulong ((s.delta : ℤ) + steps)
          match ← punycodeRoundChecked m basicCount codePoints { s with delta := delta } with
          | .error status => some (.error status)
          | .ok s =>
            if s.delta = 0xffffffff ∨ m = 0x10ffff then some (.error statusIntegerOverflow)
            else
              let delta ← ulong (s.delta + 1)
              let n ← ulong (m + 1)
              punycodeRoundsChecked codePoints basicCount rounds n { s with delta := delta }

theorem punycodeRound_handled : ∀ {s s' : PunycodeState},
    codePoints.foldlM (punycodeCodePoint n basicCount) s = .ok s' →
      s'.handledCount = s.handledCount + codePoints.count n := by
  induction codePoints with
  | nil =>
    intro s s' h
    obtain rfl := Except.ok.inj h
    rfl
  | cons c codePoints ih =>
    intro s s' h
    rw [List.foldlM_cons] at h
    obtain ⟨s₁, hc, h⟩ := bind_eq_ok h
    rw [ih h, List.count_cons]
    rw [punycodeCodePoint] at hc
    split_ifs at hc with hlt hfull heq
    · obtain rfl := Except.ok.inj hc
      rw [if_neg (by simpa using hlt.ne)]
      rfl
    · obtain ⟨output, -, hc⟩ := bind_eq_ok hc
      obtain rfl := Except.ok.inj hc
      rw [if_pos (by simpa using heq)]
      dsimp only
      omega
    · obtain rfl := Except.ok.inj hc
      rw [if_neg (by simpa using heq)]
      rfl

theorem punycodeRoundsChecked_eq {rounds : ℕ} :
    ∀ {n : ℕ} {s : PunycodeState}, InRange s → codePoints.length ≤ rounds + s.handledCount →
      punycodeRoundsChecked codePoints basicCount rounds n s =
        some (punycodeRounds codePoints basicCount rounds n s) := by
  induction rounds with
  | zero =>
    intro n s _ hturns
    exact if_pos (by omega)
  | succ rounds ih =>
    intro n s h hturns
    obtain ⟨⟨hleast, -⟩, hmem⟩ := foldl_least n codePoints 0x10ffff
    rw [punycodeRoundsChecked, punycodeRounds]
    dsimp only
    generalize codePoints.foldl (fun m c => if n ≤ c ∧ c < m then c else m) 0x10ffff = m
      at hleast hmem ⊢
    obtain ⟨hdelta, hbias, hhandled, houtput⟩ := h
    by_cases hall : s.handledCount ≥ codePoints.length
    · rw [if_pos hall, if_pos hall]
    · rw [if_neg hall, if_neg hall]
      by_cases hbad : m = 0x10ffff ∨ m < n
      · rw [if_pos hbad, if_pos (by tauto)]
      · rw [if_neg hbad, bind_of_some (ulong_eq (n := m - n) (by omega) (by omega)),
          bind_of_some (ulong_eq (n := 0xffffffff - s.delta) (by omega) (by omega)),
          bind_of_some (ulong_eq (n := s.handledCount + 1) (by push_cast; rfl) (by omega))]
        by_cases hfull : m - n > (0xffffffff - s.delta) / (s.handledCount + 1)
        · rw [if_pos hfull, if_pos (by tauto)]
        · rw [if_neg hfull, if_neg (by tauto)]
          have hsteps : (m - n) * (s.handledCount + 1) ≤ 0xffffffff - s.delta :=
            (Nat.le_div_iff_mul_le (Nat.succ_pos _)).1 (Nat.not_lt.1 hfull)
          have hrange : InRange { s with delta := s.delta + (m - n) * (s.handledCount + 1) } :=
            ⟨by dsimp only; omega, hbias, hhandled, houtput⟩
          obtain ⟨hround, hrange'⟩ := punycodeRoundChecked_eq m basicCount codePoints hrange
          rw [bind_of_some (ulong_eq (n := (m - n) * (s.handledCount + 1)) (by push_cast; rfl)
              (by omega)),
            bind_of_some (ulong_eq (n := s.delta + (m - n) * (s.handledCount + 1))
              (by push_cast; rfl) (by omega)), bind_of_some hround]
          cases hs : codePoints.foldlM (punycodeCodePoint m basicCount)
              { s with delta := s.delta + (m - n) * (s.handledCount + 1) } with
          | error status => rfl
          | ok s₁ =>
            obtain ⟨hdelta', hbias', hhandled', houtput'⟩ := hrange' s₁ hs
            rw [bind_of_ok rfl]
            dsimp only
            split_ifs with hfull'
            · rfl
            · rw [bind_of_some (ulong_eq (n := s₁.delta + 1) (by push_cast; rfl) (by omega)),
                bind_of_some (ulong_eq (n := m + 1) (by push_cast; rfl) (by omega))]
              have hcount := List.count_pos_iff.2 (hmem.resolve_left fun h => hbad (.inl h))
              have hgrown := punycodeRound_handled hs
              exact ih ⟨by dsimp only; omega, hbias', hhandled', houtput'⟩
                (by dsimp only at hgrown ⊢; omega)

/-! ## Labels -/

/-- The second half of `PunycodeEncodeLabel`. -/
def encodeCodePointsChecked (codePoints : List ℕ) (output : Bytes) :
    Option (Except NTSTATUS Bytes) :=
  let basic := codePoints.filter (· < 0x80)
  if basic.length = codePoints.length then
    some ((codePoints.map lowerCodePoint).foldlM appendOutputChar output)
  else
    let written := do
      let output ← (text "xn--").foldlM appendOutputChar output
      let output ← (basic.map lowerCodePoint).foldlM appendOutputChar output
      appendDelimiter basic.length output
    match written with
    | .error status => some (.error status)
    | .ok output => punycodeRoundsChecked codePoints basic.length codePoints.length 128
        { delta := 0, bias := 72, handledCount := basic.length, output := output }

/-- `PunycodeEncodeLabel`, behind what was written before. -/
def punycodeEncodeLabelChecked (label output : Bytes) : Option (Except NTSTATUS Bytes) := do
  match ← decodeLabelChecked label with
  | .error status => some (.error status)
  | .ok codePoints =>
    (encodeCodePointsChecked codePoints output).map fun encoded => do
      let encoded ← encoded
      if encoded.length - output.length ≤ 63 then .ok encoded else .error statusInvalidParameter

theorem foldlM_appendOutputChar_length {cs : Bytes}
    (h : cs.foldlM appendOutputChar output = .ok output') :
    (cs ≠ [] ∨ output.length ≤ 256) → output'.length ≤ 256 := by
  induction cs generalizing output with
  | nil =>
    obtain rfl := Except.ok.inj h
    exact fun hor => hor.elim (absurd rfl) id
  | cons c cs ih =>
    intro _
    rw [List.foldlM_cons] at h
    obtain ⟨output₁, hc, h⟩ := bind_eq_ok h
    exact ih h (.inr (appendOutputChar_length hc).2)

theorem encodeCodePointsChecked_eq (codePoints : List ℕ) (output : Bytes) :
    encodeCodePointsChecked codePoints output = some (encodeCodePoints codePoints output) := by
  rw [encodeCodePointsChecked, encodeCodePoints]
  dsimp only
  split_ifs with hascii
  · rfl
  · cases h1 : (text "xn--").foldlM appendOutputChar output with
    | error status => rfl
    | ok o₁ =>
      rw [bind_of_ok rfl, bind_of_ok rfl]
      cases h2 : ((codePoints.filter (· < 0x80)).map lowerCodePoint).foldlM appendOutputChar o₁ with
      | error status => rfl
      | ok o₂ =>
        rw [bind_of_ok rfl, bind_of_ok rfl]
        cases h3 : appendDelimiter (codePoints.filter (· < 0x80)).length o₂ with
        | error status => rfl
        | ok o₃ =>
          have hle₂ := foldlM_appendOutputChar_length h2
            (.inr (foldlM_appendOutputChar_length h1 (.inl (by decide))))
          have hlength := congrArg List.length (foldlM_appendOutputChar h2)
          rw [List.length_append, List.length_map] at hlength
          have hle₃ : o₂.length ≤ o₃.length ∧ o₃.length ≤ 256 := by
            rw [appendDelimiter] at h3
            split_ifs at h3
            · have := appendOutputChar_length h3
              omega
            · obtain rfl := Except.ok.inj h3
              exact ⟨le_rfl, hle₂⟩
          exact punycodeRoundsChecked_eq
            ⟨Nat.zero_le _, by dsimp only; omega, by dsimp only; omega, hle₃.2⟩
            (Nat.le_add_right _ _)

/-- **No operation wraps around, and the loops end.** -/
theorem punycodeEncodeLabelChecked_eq (label output : Bytes) :
    punycodeEncodeLabelChecked label output = some (punycodeEncodeLabel label output) := by
  rw [punycodeEncodeLabelChecked, bind_of_some (decodeLabelChecked_eq label), punycodeEncodeLabel]
  cases decodeLabel label with
  | error status => rfl
  | ok codePoints =>
    dsimp only
    rw [encodeCodePointsChecked_eq]
    rfl

/-- `münchen`. -/
def muenchen : Bytes := [109, 195, 188, 110, 99, 104, 101, 110]

/-- **Host names are encoded faithfully.** A label beyond ASCII becomes `xn--` and a text that
    is decoded to its characters in lower case; no operation wraps around, and the loops end;
    of two labels with one name, both of ASCII or neither, one is the other up to case; and a
    name stays as it is. -/
theorem idna_faithful :
    (∀ label output encoded, punycodeEncodeLabel label output = .ok encoded →
      containsNonAscii label = true →
      ∃ (chars : List Char) (t : Bytes), label = chars.flatMap String.utf8EncodeChar ∧
        encoded = output ++ (text "xn--" ++ t) ∧
        punycode.decode (t.map UInt8.toNat) =
          some (chars.map fun c => lowerLetter c.val.toNat)) ∧
    (∀ label output,
      punycodeEncodeLabelChecked label output = some (punycodeEncodeLabel label output)) ∧
    (∀ label label' output encoded, punycodeEncodeLabel label output = .ok encoded →
      punycodeEncodeLabel label' output = .ok encoded →
      containsNonAscii label = containsNonAscii label' →
      label.map toLowerAscii = label'.map toLowerAscii) ∧
    ∀ host t, normalizeDnsName host true = .ok t → normalizeDnsName t true = .ok t := by
  refine ⟨fun label output encoded h hn => ?_, punycodeEncodeLabelChecked_eq,
    fun _ _ _ _ h h' hn => punycodeEncodeLabel_injective h h' hn,
    fun _ _ h => normalizeDnsName_idempotent h true⟩
  obtain ⟨chars, t, hlabel, hencoded, -, hdecode⟩ := punycodeEncodeLabel_decode h hn
  exact ⟨chars, t, hlabel, hencoded, hdecode⟩

theorem idna_faithful_muenchen :
    ∃ (chars : List Char) (t : Bytes), muenchen = chars.flatMap String.utf8EncodeChar ∧
      text "xn--mnchen-3ya" = [] ++ (text "xn--" ++ t) ∧
      punycode.decode (t.map UInt8.toNat) = some (chars.map fun c => lowerLetter c.val.toNat) :=
  idna_faithful.1 muenchen [] _ (by decide +kernel) (by decide +kernel)

/-- A label beyond ASCII and a label of ASCII with one name. -/
theorem punycodeEncodeLabel_collides :
    punycodeEncodeLabel muenchen [] = .ok (text "xn--mnchen-3ya") ∧
      punycodeEncodeLabel (text "xn--mnchen-3ya") [] = .ok (text "xn--mnchen-3ya") ∧
      muenchen.map toLowerAscii ≠ (text "xn--mnchen-3ya").map toLowerAscii := by
  decide +kernel

end KernelHttp.Engine
