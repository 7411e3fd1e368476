/-
  Bootstring: strings of code points as strings of basic code points (RFC 3492).

  A profile says which numbers are basic, how they stand for digits, and how thresholds adapt.
-/
import Mathlib.Data.List.DropRight
import Mathlib.Data.List.InsertIdx
import Mathlib.Tactic

namespace Bootstring

/-- The parameters of a profile. -/
structure Parameters where
  base : ℕ
  tMin : ℕ
  tMax : ℕ
  skew : ℕ
  damp : ℕ
  initialBias : ℕ
  initialN : ℕ
  delimiter : ℕ
  digitValue : ℕ → Option ℕ
  tMin_pos : 0 < tMin
  tMin_le : tMin ≤ tMax
  tMax_lt : tMax < base
  tMin_lt : tMin + 1 < base

variable (p : Parameters)

/-! ## Integers -/

/-- The threshold at the position `k`. -/
def Parameters.threshold (bias k : ℕ) : ℕ :=
  if k ≤ bias then p.tMin else if k ≥ bias + p.tMax then p.tMax else k - bias

theorem Parameters.threshold_pos (bias k : ℕ) : 0 < p.threshold bias k := by
  have := p.tMin_pos
  have := p.tMin_le
  unfold Parameters.threshold
  split_ifs <;> omega

theorem Parameters.threshold_lt (bias k : ℕ) : p.threshold bias k < p.base := by
  have := p.tMin_le
  have := p.tMax_lt
  unfold Parameters.threshold
  split_ifs <;> omega

/-- The digits of an integer, from the position `k` on. -/
def Parameters.integerDigits (bias k q : ℕ) : List ℕ :=
  if _h : q < p.threshold bias k then [q]
  else (p.threshold bias k + (q - p.threshold bias k) % (p.base - p.threshold bias k)) ::
    integerDigits bias (k + p.base) ((q - p.threshold bias k) / (p.base - p.threshold bias k))
termination_by q
decreasing_by
  have := p.threshold_pos bias k
  exact (Nat.div_le_self _ _).trans_lt (by omega)

/-- Reading an integer: the value, with `w` the weight of the position `k`. -/
def Parameters.readInteger (bias : ℕ) : ℕ → ℕ → ℕ → List ℕ → Option (ℕ × List ℕ)
  | _, _, _, [] => none
  | k, w, i, digit :: digits =>
    if digit < p.threshold bias k then some (i + digit * w, digits)
    else readInteger bias (k + p.base) (w * (p.base - p.threshold bias k)) (i + digit * w) digits

variable {digits : List ℕ} {bias k q c n : ℕ}

theorem Parameters.readInteger_length {w i i' : ℕ} {rest : List ℕ}
    (h : p.readInteger bias k w i digits = some (i', rest)) : rest.length < digits.length := by
  induction digits generalizing k w i with
  | nil => cases h
  | cons digit digits ih =>
    rw [readInteger] at h
    rw [List.length_cons]
    split_ifs at h
    · obtain ⟨-, rfl⟩ := Prod.mk.inj (Option.some.inj h)
      exact Nat.lt_succ_self _
    · exact (ih h).trans (Nat.lt_succ_self _)

theorem Parameters.integerDigits_lt {digit : ℕ}
    (h : digit ∈ p.integerDigits bias k q) : digit < p.base := by
  induction k, q using Parameters.integerDigits.induct p bias with
  | case1 k q hlt =>
    rw [integerDigits, dif_pos hlt, List.mem_singleton] at h
    subst h
    exact hlt.trans (p.threshold_lt bias k)
  | case2 k q hge ih =>
    have hbase := p.threshold_lt bias k
    rw [integerDigits, dif_neg hge, List.mem_cons] at h
    rcases h with rfl | h
    · have := Nat.mod_lt (q - p.threshold bias k) (Nat.sub_pos_of_lt hbase)
      omega
    · exact ih h

/-- **An integer is read back.** -/
theorem Parameters.readInteger_integerDigits (w i : ℕ) (rest : List ℕ) :
    p.readInteger bias k w i (p.integerDigits bias k q ++ rest) = some (i + q * w, rest) := by
  induction k, q using Parameters.integerDigits.induct p bias generalizing w i with
  | case1 k q hlt =>
    rw [integerDigits, dif_pos hlt, List.singleton_append, readInteger, if_pos hlt]
  | case2 k q hge ih =>
    have hdigit : ¬ p.threshold bias k +
        (q - p.threshold bias k) % (p.base - p.threshold bias k) < p.threshold bias k :=
      Nat.not_lt.2 (Nat.le_add_right _ _)
    have hdiv := Nat.div_add_mod (q - p.threshold bias k) (p.base - p.threshold bias k)
    rw [integerDigits, dif_neg hge, List.cons_append, readInteger, if_neg hdigit, ih]
    -- the first digit and the others make up `q`
    generalize (q - p.threshold bias k) / (p.base - p.threshold bias k) = high at hdiv ⊢
    generalize (q - p.threshold bias k) % (p.base - p.threshold bias k) = low at hdiv ⊢
    have hq : q = p.threshold bias k + low + (p.base - p.threshold bias k) * high := by omega
    congr 2
    conv_rhs => rw [hq]
    ring

/-! ## Bias -/

/-- The loop of the bias adaptation. -/
def Parameters.scale (delta k : ℕ) : ℕ × ℕ :=
  if _h : delta > (p.base - p.tMin) * p.tMax / 2 then
    scale (delta / (p.base - p.tMin)) (k + p.base)
  else (delta, k)
termination_by delta
decreasing_by
  have := p.tMin_lt
  exact Nat.div_lt_self (by omega) (by omega)

def Parameters.adapt (delta numPoints : ℕ) (firstTime : Bool) : ℕ :=
  let delta := if firstTime then delta / p.damp else delta / 2
  let (delta, k) := p.scale (delta + delta / numPoints) 0
  k + (p.base - p.tMin + 1) * delta / (delta + p.skew)

/-! ## Decoding -/

/-- The variables of the decoding procedure. -/
structure State where
  n : ℕ
  i : ℕ
  bias : ℕ
  output : List ℕ

/-- The insertion of a code point, at the end `i` of a walk. -/
def State.insert (s : State) (i : ℕ) : State where
  n := s.n + i / (s.output.length + 1)
  i := i % (s.output.length + 1) + 1
  bias := p.adapt (i - s.i) (s.output.length + 1) (s.i == 0)
  output := s.output.insertIdx (i % (s.output.length + 1)) (s.n + i / (s.output.length + 1))

/-- The loop of the decoding procedure. -/
def Parameters.decodeFrom (s : State) (digits : List ℕ) : Option (List ℕ) :=
  if digits = [] then some s.output
  else
    match _h : p.readInteger s.bias p.base 1 s.i digits with
    | none => none
    | some (i, rest) => decodeFrom (s.insert p i) rest
termination_by digits.length
decreasing_by exact p.readInteger_length _h

/-- The decoding procedure: what stands before the last delimiter is copied, what stands behind
    it is digits. -/
def Parameters.decode (input : List ℕ) : Option (List ℕ) :=
  let basic := (input.rdropWhile (· ≠ p.delimiter)).dropLast
  let extended := if basic = [] then input else input.drop (basic.length + 1)
  if ∃ c ∈ basic, p.initialN ≤ c then none
  else do
    let digits ← extended.mapM p.digitValue
    p.decodeFrom ⟨p.initialN, 0, p.initialBias, basic⟩ digits

theorem Parameters.decodeFrom_integerDigits (s : State) (delta : ℕ) (rest : List ℕ) :
    p.decodeFrom s (p.integerDigits s.bias p.base delta ++ rest) =
      p.decodeFrom (s.insert p (s.i + delta)) rest := by
  have hread : p.readInteger s.bias p.base 1 s.i (p.integerDigits s.bias p.base delta ++ rest) =
      some (s.i + delta * 1, rest) :=
    p.readInteger_integerDigits 1 s.i rest
  have hne : p.integerDigits s.bias p.base delta ++ rest ≠ [] := by
    intro hnil
    rw [hnil] at hread
    cases hread
  rw [Nat.mul_one] at hread
  rw [decodeFrom, if_neg hne]
  split
  · rename_i h
    rw [hread] at h
    cases h
  · rename_i h
    rw [hread] at h
    obtain ⟨rfl, rfl⟩ := Prod.mk.inj (Option.some.inj h)
    rfl

/-- A text without basic code points is digits. -/
theorem Parameters.decode_digits {input : List ℕ} (hinput : ∀ c ∈ input, c ≠ p.delimiter)
    (hdigits : input.mapM p.digitValue = some digits) :
    p.decode input = p.decodeFrom ⟨p.initialN, 0, p.initialBias, []⟩ digits := by
  have hnil : input.rdropWhile (· ≠ p.delimiter) = [] :=
    List.rdropWhile_eq_nil_iff.2 fun c hc => by simpa using hinput c hc
  rw [decode, hnil]
  simp [hdigits]

/-- Basic code points, the delimiter and digits. -/
theorem Parameters.decode_basic {basic extended : List ℕ} (hbasic : basic ≠ [])
    (hlt : ∀ c ∈ basic, c < p.initialN) (hextended : ∀ c ∈ extended, c ≠ p.delimiter)
    (hdigits : extended.mapM p.digitValue = some digits) :
    p.decode (basic ++ p.delimiter :: extended) =
      p.decodeFrom ⟨p.initialN, 0, p.initialBias, basic⟩ digits := by
  have hdrop : (basic ++ p.delimiter :: extended).rdropWhile (· ≠ p.delimiter) =
      basic ++ [p.delimiter] := by
    have hall : ∀ c ∈ extended.reverse, (decide (c ≠ p.delimiter)) = true :=
      fun c hc => decide_eq_true (hextended c (List.mem_reverse.1 hc))
    rw [List.rdropWhile, List.reverse_append, List.reverse_cons, List.append_assoc,
      List.dropWhile_append_of_pos hall, List.singleton_append, List.dropWhile_cons_of_neg (by simp),
      List.reverse_cons, List.reverse_reverse]
  have hnot : ¬ ∃ c ∈ basic, p.initialN ≤ c := by
    rintro ⟨c, hc, hle⟩
    exact absurd (hlt c hc) (Nat.not_lt.2 hle)
  rw [decode, hdrop, List.dropLast_concat]
  simp [hbasic, hnot, hdigits]

/-! ## Encoding -/

/-- The walk from where the decoder stands to the code point `n` and the position `i` has
    `delta` steps. -/
structure Lags (s : State) (n i delta : ℕ) : Prop where
  steps : s.n * (s.output.length + 1) + s.i + delta = n * (s.output.length + 1) + i
  le : i ≤ s.output.length

namespace Lags

variable {p} {s : State} {n i delta : ℕ}

/-- The walk passes a position. -/
theorem pass (h : Lags s n i delta) (hlt : i < s.output.length) : Lags s n (i + 1) (delta + 1) :=
  ⟨by rw [← Nat.add_assoc, h.steps, Nat.add_assoc], hlt⟩

/-- The walk passes the last position. -/
theorem turn (h : Lags s n s.output.length delta) : Lags s (n + 1) 0 (delta + 1) :=
  ⟨by rw [← Nat.add_assoc, h.steps]; ring, Nat.zero_le _⟩

/-- The walk passes code points that are not in the text. -/
theorem skip (h : Lags s n 0 delta) {m : ℕ} (hle : n ≤ m) :
    Lags s m 0 (delta + (m - n) * (s.output.length + 1)) := by
  obtain ⟨k, rfl⟩ := Nat.exists_eq_add_of_le hle
  refine ⟨?_, Nat.zero_le _⟩
  rw [← Nat.add_assoc, h.steps, Nat.add_sub_cancel_left]
  ring

/-- A walk ends where it is meant to. -/
theorem insert_eq (h : Lags s n i delta) : s.insert p (s.i + delta) =
    ⟨n, i + 1, p.adapt delta (s.output.length + 1) (s.i == 0), s.output.insertIdx i n⟩ := by
  have hlt : i < s.output.length + 1 := Nat.lt_succ_of_le h.le
  have hsteps : s.i + delta + s.n * (s.output.length + 1) = i + n * (s.output.length + 1) := by
    have := h.steps
    omega
  have hn : s.n + (s.i + delta) / (s.output.length + 1) = n := by
    have hdiv : (s.i + delta + s.n * (s.output.length + 1)) / (s.output.length + 1) =
        (i + n * (s.output.length + 1)) / (s.output.length + 1) := by rw [hsteps]
    rw [Nat.add_mul_div_right _ _ (Nat.succ_pos _), Nat.add_mul_div_right _ _ (Nat.succ_pos _),
      Nat.div_eq_of_lt hlt, Nat.zero_add, Nat.add_comm] at hdiv
    exact hdiv
  have hi : (s.i + delta) % (s.output.length + 1) = i := by
    have := congrArg (· % (s.output.length + 1)) hsteps
    simpa only [Nat.add_mul_mod_self_right, Nat.mod_eq_of_lt hlt] using this
  rw [State.insert, hn, hi, Nat.add_sub_cancel_left]

end Lags

/-- The code points below `n`, and those equal to `n` in the first part of the text. -/
def kept (n : ℕ) (front back : List ℕ) : List ℕ := front.filter (· ≤ n) ++ back.filter (· < n)

theorem insertIdx_append (a : ℕ) (l₁ l₂ : List ℕ) :
    (l₁ ++ l₂).insertIdx l₁.length a = l₁ ++ a :: l₂ := by
  induction l₁ with
  | nil => rfl
  | cons b l₁ ih =>
    rw [List.cons_append, List.length_cons, List.insertIdx_succ_cons, ih, List.cons_append]

theorem kept_lt (h : c < n) (front back : List ℕ) :
    kept n front (c :: back) = kept n (front ++ [c]) back := by
  simp [kept, h, h.le]

theorem kept_gt (h : n < c) (front back : List ℕ) :
    kept n front (c :: back) = kept n (front ++ [c]) back := by
  simp [kept, h.not_ge, h.le.not_gt]

/-- The code point `n` goes where it stands in the text. -/
theorem kept_insert (n : ℕ) (front back : List ℕ) :
    (kept n front (n :: back)).insertIdx (front.filter (· ≤ n)).length n =
      kept n (front ++ [n]) back := by
  rw [kept, kept, List.filter_append, List.filter_cons_of_neg (by simp),
    List.filter_cons_of_pos (by simp), List.filter_nil, insertIdx_append, List.append_assoc,
    List.singleton_append]

/-- Behind a round, the code points up to `n` are written. -/
theorem kept_nil (n : ℕ) (text : List ℕ) : kept n text [] = kept (n + 1) [] text := by
  rw [kept, kept, List.filter_nil, List.append_nil, List.filter_nil, List.nil_append]
  exact List.filter_congr fun c _ => by simp [Order.lt_add_one_iff]

/-- Between two code points of the text nothing is written. -/
theorem kept_skip {m : ℕ} (hle : n ≤ m) {text : List ℕ}
    (h : ∀ c ∈ text, c < n ∨ m ≤ c) : kept n [] text = kept m [] text := by
  rw [kept, kept, List.filter_nil, List.filter_nil, List.nil_append, List.nil_append]
  refine List.filter_congr fun c hc => ?_
  rcases h c hc with h | h
  · simp [h, h.trans_le hle]
  · simp [Nat.not_lt.2 h, Nat.not_lt.2 (hle.trans h)]

end Bootstring
