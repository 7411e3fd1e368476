/-
  The texts of an HTTP/1 message (the anonymous
  namespaces of `HttpParser.cpp`, `HttpTransferCoding.cpp` and
  `HttpContentEncoding.cpp`).
-/
import KernelHttp.Core.Types

namespace KernelHttp.Http1

/-! ## Character classes -/

def isDigit (c : UInt8) : Bool := 48 ≤ c.toNat && c.toNat ≤ 57

def isHexDigit (c : UInt8) : Bool :=
  isDigit c || (97 ≤ c.toNat && c.toNat ≤ 102) || (65 ≤ c.toNat && c.toNat ≤ 70)

def hexValue (c : UInt8) : ℕ :=
  if isDigit c then c.toNat - 48
  else if 97 ≤ c.toNat ∧ c.toNat ≤ 102 then 10 + c.toNat - 97
  else 10 + c.toNat - 65

def isOptionalWhitespace (c : UInt8) : Bool := c.toNat == 32 || c.toNat == 9

def isTchar (c : UInt8) : Bool :=
  isDigit c || (65 ≤ c.toNat && c.toNat ≤ 90) || (97 ≤ c.toNat && c.toNat ≤ 122) ||
    (text "!#$%&'*+-.^_\x60|~").contains c

def isQuotedPairText (c : UInt8) : Bool := c.toNat == 9 || (32 ≤ c.toNat && c.toNat ≤ 126)

/-- `IsValidHeaderName`, `IsValidToken`. -/
def isValidToken (t : Bytes) : Bool := t != [] && t.all isTchar

def isValidHeaderValue (t : Bytes) : Bool :=
  t.all fun c => c.toNat == 9 || !(c.toNat < 32 || c.toNat == 127)

def trimOptionalWhitespace (t : Bytes) : Bytes :=
  (t.dropWhile isOptionalWhitespace).rdropWhile isOptionalWhitespace

/-! ## Parameters -/

/-- The rest behind a quoted string whose opening quote was read; `none` if it is
    not closed or not valid. -/
def skipQuoted : Bytes → Option Bytes
  | [] => none
  | c :: rest =>
    if c.toNat = 34 then some rest
    else if c.toNat = 92 then
      match rest with
      | [] => none
      | q :: rest => if isQuotedPairText q then skipQuoted rest else none
    else if c.toNat ≠ 9 ∧ c.toNat < 32 then none
    else skipQuoted rest

/-- The loop of `ValidateSemicolonParameters`; every turn reads a semicolon. -/
def validateParametersLoop : ℕ → Bytes → Bool
  | _, [] => true
  | 0, _ :: _ => false
  | fuel + 1, c :: rest =>
    if c.toNat ≠ 59 then false
    else
      let rest := rest.dropWhile isOptionalWhitespace
      if rest.takeWhile isTchar = [] then false
      else
        match (rest.dropWhile isTchar).dropWhile isOptionalWhitespace with
        | [] => true
        | c :: rest =>
          if c.toNat = 59 then validateParametersLoop fuel (c :: rest)
          else if c.toNat ≠ 61 then false
          else
            match rest.dropWhile isOptionalWhitespace with
            | [] => false
            | c :: rest =>
              let value :=
                if c.toNat = 34 then skipQuoted rest
                else if (c :: rest).takeWhile isTchar = [] then none
                else some ((c :: rest).dropWhile isTchar)
              match value with
              | none => false
              | some rest =>
                match rest.dropWhile isOptionalWhitespace with
                | [] => true
                | c :: rest =>
                  if c.toNat ≠ 59 then false else validateParametersLoop fuel (c :: rest)

def validateSemicolonParameters (parameters : Bytes) : Except NTSTATUS Unit :=
  if validateParametersLoop parameters.length parameters then .ok ()
  else .error statusInvalidNetworkResponse

/-! ## Numbers -/

def parseUInt16 (t : Bytes) : Except NTSTATUS ℕ :=
  if t = [] then .error statusInvalidParameter
  else t.foldlM (fun parsed c =>
    if ¬ isDigit c then .error statusInvalidNetworkResponse
    else if parsed * 10 + (c.toNat - 48) > 0xFFFF then .error statusIntegerOverflow
    else .ok (parsed * 10 + (c.toNat - 48))) 0

/-- The loop of `ParseSize` and `ParseHexSize` in base `b`. -/
def parseDigits (isDig : UInt8 → Bool) (val : UInt8 → ℕ) (b : ℕ) (t : Bytes) :
    Except NTSTATUS ℕ :=
  if t = [] then .error statusInvalidParameter
  else t.foldlM (fun parsed c =>
    if ¬ isDig c then .error statusInvalidNetworkResponse
    else if parsed > (maxSizeT - val c) / b then .error statusIntegerOverflow
    else .ok (parsed * b + val c)) 0

def parseSize (t : Bytes) : Except NTSTATUS ℕ := parseDigits isDigit (fun c => c.toNat - 48) 10 t

def parseHexSize (t : Bytes) : Except NTSTATUS ℕ := parseDigits isHexDigit hexValue 16 t

/-! ## Line ends -/

/-- `FindCrlf` from the start of the octets. -/
def findCrlf : Bytes → Option ℕ
  | a :: b :: rest =>
    if a.toNat = 13 ∧ b.toNat = 10 then some 0 else (findCrlf (b :: rest)).map (· + 1)
  | _ => none

/-- The end of the header section. -/
def findHeaderEnd : Bytes → Option ℕ
  | a :: b :: c :: d :: rest =>
    if a.toNat = 13 ∧ b.toNat = 10 ∧ c.toNat = 13 ∧ d.toNat = 10 then some 4
    else (findHeaderEnd (b :: c :: d :: rest)).map (· + 1)
  | _ => none

/-- The octets start with CR LF. -/
def startsWithCrlf : Bytes → Bool
  | a :: b :: _ => a.toNat == 13 && b.toNat == 10
  | _ => false

theorem findCrlf_append : ∀ {p : Bytes} {i : ℕ}, findCrlf p = some i → ∀ s,
    findCrlf (p ++ s) = some i
  | [], _, h, _ => by simp [findCrlf] at h
  | [_], _, h, _ => by simp [findCrlf] at h
  | a :: b :: rest, i, h, s => by
    unfold findCrlf at h
    rw [List.cons_append, List.cons_append, findCrlf]
    split_ifs at h ⊢ with hc
    · exact h
    · obtain ⟨j, hj, rfl⟩ := Option.map_eq_some_iff.1 h
      have := findCrlf_append hj s
      rw [List.cons_append] at this
      rw [this]; rfl

/-- A line end that was found lies inside the octets. -/
theorem findCrlf_le : ∀ {p : Bytes} {i : ℕ}, findCrlf p = some i → i + 2 ≤ p.length
  | [], _, h => by simp [findCrlf] at h
  | [_], _, h => by simp [findCrlf] at h
  | a :: b :: rest, i, h => by
    unfold findCrlf at h
    split_ifs at h with hc
    · obtain rfl : 0 = i := by simpa using h
      simp
    · obtain ⟨j, hj, rfl⟩ := Option.map_eq_some_iff.1 h
      have := findCrlf_le hj
      simp only [List.length_cons] at this ⊢
      omega

/-- The first line end is not behind a line end. -/
theorem findCrlf_of_drop : ∀ {p : Bytes} {k : ℕ}, startsWithCrlf (p.drop k) = true →
    ∃ i, findCrlf p = some i ∧ i ≤ k
  | [], k, h => by simp [startsWithCrlf] at h
  | [a], k, h => by cases k <;> simp [startsWithCrlf] at h
  | a :: b :: rest, k, h => by
    unfold findCrlf
    by_cases hc : a.toNat = 13 ∧ b.toNat = 10
    · exact ⟨0, by rw [if_pos hc], Nat.zero_le k⟩
    · cases k with
      | zero => exact absurd (by simpa [startsWithCrlf] using h) hc
      | succ k =>
        obtain ⟨i, hi, hle⟩ := findCrlf_of_drop (p := b :: rest) (k := k) (by simpa using h)
        exact ⟨i + 1, by rw [if_neg hc, hi]; rfl, by omega⟩

theorem findHeaderEnd_append : ∀ {p : Bytes} {e : ℕ}, findHeaderEnd p = some e → ∀ s,
    findHeaderEnd (p ++ s) = some e
  | [], _, h, _ => by simp [findHeaderEnd] at h
  | [_], _, h, _ => by simp [findHeaderEnd] at h
  | [_, _], _, h, _ => by simp [findHeaderEnd] at h
  | [_, _, _], _, h, _ => by simp [findHeaderEnd] at h
  | a :: b :: c :: d :: rest, e, h, s => by
    unfold findHeaderEnd at h
    simp only [List.cons_append]
    rw [findHeaderEnd]
    split_ifs at h ⊢ with hc
    · exact h
    · obtain ⟨j, hj, rfl⟩ := Option.map_eq_some_iff.1 h
      have := findHeaderEnd_append hj s
      simp only [List.cons_append] at this
      rw [this]; rfl

/-- The header section ends with an empty line. -/
theorem findHeaderEnd_spec : ∀ {p : Bytes} {e : ℕ}, findHeaderEnd p = some e →
    4 ≤ e ∧ e ≤ p.length ∧ startsWithCrlf (p.drop (e - 4)) = true ∧
      startsWithCrlf (p.drop (e - 2)) = true
  | [], _, h => by simp [findHeaderEnd] at h
  | [_], _, h => by simp [findHeaderEnd] at h
  | [_, _], _, h => by simp [findHeaderEnd] at h
  | [_, _, _], _, h => by simp [findHeaderEnd] at h
  | a :: b :: c :: d :: rest, e, h => by
    unfold findHeaderEnd at h
    split_ifs at h with hc
    · obtain rfl : 4 = e := by simpa using h
      simp [startsWithCrlf, hc]
    · obtain ⟨j, hj, rfl⟩ := Option.map_eq_some_iff.1 h
      obtain ⟨h1, h2, h3, h4⟩ := findHeaderEnd_spec hj
      refine ⟨by omega, by simp only [List.length_cons] at h2 ⊢; omega, ?_, ?_⟩
      · rw [show j + 1 - 4 = j - 4 + 1 by omega, List.drop_succ_cons]; exact h3
      · rw [show j + 1 - 2 = j - 2 + 1 by omega, List.drop_succ_cons]; exact h4

/-! ## Lines -/

/-- CR LF. -/
def crlf : Bytes := [13, 10]

/-- A text without a line end. -/
def IsLine (line : Bytes) : Prop := ¬ crlf <:+: line

theorem IsLine.tail {c : UInt8} {line : Bytes} (h : IsLine (c :: line)) : IsLine line :=
  fun hi => h (hi.trans (List.suffix_cons c line).isInfix)

theorem isLine_nil : IsLine [] := by
  intro h
  simpa [crlf] using List.infix_nil.1 h

/-- The first line end behind a line is its own. -/
theorem findCrlf_line : ∀ {line : Bytes}, IsLine line → ∀ rest,
    findCrlf (line ++ (crlf ++ rest)) = some line.length
  | [], _, rest => by simp [crlf, findCrlf]
  | [c], _, rest => by
    simp only [List.cons_append, List.nil_append, crlf, List.length_cons, List.length_nil]
    rw [findCrlf, if_neg (by simp), findCrlf]
    simp
  | c :: d :: line, h, rest => by
    have hcd : ¬ (c.toNat = 13 ∧ d.toNat = 10) := by
      rintro ⟨hc, hd⟩
      have hc : c = 13 := UInt8.toNat_inj.1 hc
      have hd : d = 10 := UInt8.toNat_inj.1 hd
      subst hc hd
      exact h ⟨[], line, rfl⟩
    have ih := findCrlf_line h.tail rest
    rw [List.cons_append] at ih
    rw [List.cons_append, List.cons_append, findCrlf, if_neg hcd, ih]
    rfl

/-- What stands in front of the first line end is a line. -/
theorem findCrlf_spec : ∀ {p : Bytes} {i : ℕ}, findCrlf p = some i →
    p = p.take i ++ (crlf ++ p.drop (i + 2)) ∧ IsLine (p.take i)
  | [], _, h => by simp [findCrlf] at h
  | [_], _, h => by simp [findCrlf] at h
  | a :: b :: rest, i, h => by
    unfold findCrlf at h
    split_ifs at h with hc
    · obtain rfl : 0 = i := by simpa using h
      have ha : a = 13 := UInt8.toNat_inj.1 hc.1
      have hb : b = 10 := UInt8.toNat_inj.1 hc.2
      subst ha hb
      exact ⟨rfl, isLine_nil⟩
    · obtain ⟨j, hj, rfl⟩ := Option.map_eq_some_iff.1 h
      obtain ⟨heq, hl⟩ := findCrlf_spec hj
      refine ⟨?_, ?_⟩
      · rw [List.take_succ_cons, show j + 1 + 2 = j + 2 + 1 by omega, List.drop_succ_cons,
          List.cons_append, ← heq]
      · rw [List.take_succ_cons]
        intro hi
        rcases List.infix_cons_iff.1 hi with hp | hi
        · -- the first two octets of the line are those of `p`
          cases j with
          | zero => simp [crlf] at hp
          | succ j =>
            rw [List.take_succ_cons] at hp
            obtain ⟨t, ht⟩ := hp
            simp only [crlf, List.cons_append, List.cons.injEq] at ht
            exact hc ⟨by rw [← ht.1]; rfl, by rw [← ht.2.1]; rfl⟩
        · exact hl hi

/-- Lines are told apart by their ends. -/
theorem line_inj {line line' rest rest' : Bytes} (h : IsLine line) (h' : IsLine line')
    (heq : line ++ (crlf ++ rest) = line' ++ (crlf ++ rest')) : line = line' ∧ rest = rest' := by
  have hlen : line.length = line'.length := by
    have := findCrlf_line h rest
    rw [heq, findCrlf_line h' rest'] at this
    exact (Option.some.inj this).symm
  obtain ⟨h1, h2⟩ := List.append_inj heq hlen
  exact ⟨h1, List.append_cancel_left h2⟩

end KernelHttp.Http1
