/-
  UTF-8 (`IsValidUtf8` and `AdvanceUtf8State` of `client/WebSocketClient.cpp`).

  The client tests at once what it receives, and octet by octet what it sends.
-/
import KernelHttp.Core.Types

namespace KernelHttp.WebSocket

def ValidUtf8 (t : Bytes) : Prop := ∃ cs : List Char, t = cs.flatMap String.utf8EncodeChar

/-! ## The code -/

/-- The bits of the first octet of a longer sequence, and the octets that follow. -/
def utf8Lead (c : UInt8) : Option (ℕ × ℕ) :=
  if 0xc2 ≤ c.toNat ∧ c.toNat ≤ 0xdf then some (c.toNat % 32, 1)
  else if 0xe0 ≤ c.toNat ∧ c.toNat ≤ 0xef then some (c.toNat % 16, 2)
  else if 0xf0 ≤ c.toNat ∧ c.toNat ≤ 0xf4 then some (c.toNat % 8, 3)
  else none

/-- `(ch & 0xc0) == 0x80`. -/
def isContinuation (c : UInt8) : Bool := c.toNat / 64 == 2

/-- `(codePoint << 6) | (ch & 0x3f)`. -/
def appendBits (codePoint : ℕ) (c : UInt8) : ℕ := codePoint * 64 + c.toNat % 64

def finishUtf8CodePoint (codePoint expected : ℕ) : Bool :=
  !((expected == 2 && decide (codePoint < 0x800)) ||
    (expected == 3 && decide (codePoint < 0x10000)) || decide (codePoint > 0x10ffff) ||
    (decide (0xd800 ≤ codePoint) && decide (codePoint ≤ 0xdfff)))

/-- `IsValidUtf8`: the whole text at once. -/
def isValidUtf8 : Bytes → Bool
  | [] => true
  | c :: rest =>
    if c.toNat ≤ 0x7f then isValidUtf8 rest
    else
      match utf8Lead c with
      | none => false
      | some (codePoint, continuation) =>
        if continuation > rest.length then false
        else
          let tail := rest.take continuation
          tail.all isContinuation && finishUtf8CodePoint (tail.foldl appendBits codePoint) continuation &&
            isValidUtf8 (rest.drop continuation)
termination_by t => t.length
decreasing_by all_goals simp only [List.length_cons, List.length_drop]; omega

/-- `sendTextUtf8CodePoint_`, `sendTextUtf8Remaining_` and `sendTextUtf8Expected_`. -/
structure Utf8State where
  codePoint : ℕ := 0
  remaining : ℕ := 0
  expected : ℕ := 0
deriving DecidableEq

/-- The loop of `AdvanceUtf8State`. -/
def advanceUtf8 : Utf8State → Bytes → Option Utf8State
  | s, [] => some s
  | s, c :: rest =>
    if s.remaining ≠ 0 then
      if ¬ isContinuation c then none
      else if s.remaining - 1 = 0 then
        if finishUtf8CodePoint (appendBits s.codePoint c) s.expected then advanceUtf8 {} rest
        else none
      else advanceUtf8 ⟨appendBits s.codePoint c, s.remaining - 1, s.expected⟩ rest
    else if c.toNat ≤ 0x7f then advanceUtf8 s rest
    else
      match utf8Lead c with
      | none => none
      | some (codePoint, continuation) => advanceUtf8 ⟨codePoint, continuation, continuation⟩ rest

def advanceUtf8State (data : Bytes) (finalFragment : Bool) (s : Utf8State) :
    Except NTSTATUS Utf8State :=
  match advanceUtf8 s data with
  | none => .error statusInvalidParameter
  | some s => if finalFragment ∧ s.remaining ≠ 0 then .error statusInvalidParameter else .ok s

/-! ## Characters -/

/-- The octets of one character, as the code reads them. -/
inductive Utf8Sequence : Bytes → Prop
  | one {c : UInt8} (h : c.toNat ≤ 0x7f) : Utf8Sequence [c]
  | more {c : UInt8} {codePoint continuation : ℕ} {tail : Bytes} (hc : ¬ c.toNat ≤ 0x7f)
      (hl : utf8Lead c = some (codePoint, continuation)) (hn : tail.length = continuation)
      (ht : tail.all isContinuation = true)
      (hf : finishUtf8CodePoint (tail.foldl appendBits codePoint) continuation = true) :
      Utf8Sequence (c :: tail)

variable {t : Bytes} {c : UInt8} {s s' : Utf8State} {n codePoint expected : ℕ}

theorem toNat_ofNat (h : n < 256) : (UInt8.ofNat n).toNat = n := by
  simp only [UInt8.toNat_ofNat']
  omega

theorem eq_ofNat (h : c.toNat = n) : UInt8.ofNat n = c := by
  subst h
  exact UInt8.ofNat_toNat

/-- A number that is the code of a character. -/
theorem exists_char {v : ℕ} (h : v < 0xd800 ∨ (0xdfff < v ∧ v < 0x110000)) :
    ∃ c : Char, c.val.toNat = v := by
  refine ⟨Char.ofNat v, ?_⟩
  have hv : Nat.isValidChar v := h
  simp [Char.ofNat, hv, Char.ofNatAux]

theorem finishUtf8CodePoint_spec (h : finishUtf8CodePoint codePoint expected = true) :
    (expected = 2 → 0x800 ≤ codePoint) ∧ (expected = 3 → 0x10000 ≤ codePoint) ∧
      codePoint ≤ 0x10ffff ∧ (codePoint < 0xd800 ∨ 0xdfff < codePoint) := by
  simp only [finishUtf8CodePoint, Bool.not_eq_true', Bool.or_eq_false_iff, Bool.and_eq_false_iff,
    beq_eq_false_iff_ne, decide_eq_false_iff_not] at h
  obtain ⟨⟨⟨h1, h2⟩, h3⟩, h4⟩ := h
  refine ⟨fun he => ?_, fun he => ?_, by omega, by omega⟩
  · rcases h1 with h1 | h1
    · exact absurd he h1
    · omega
  · rcases h2 with h2 | h2
    · exact absurd he h2
    · omega

theorem finishUtf8CodePoint_of (h2 : expected = 2 → 0x800 ≤ codePoint)
    (h3 : expected = 3 → 0x10000 ≤ codePoint) (hle : codePoint ≤ 0x10ffff)
    (hs : codePoint < 0xd800 ∨ 0xdfff < codePoint) :
    finishUtf8CodePoint codePoint expected = true := by
  simp only [finishUtf8CodePoint, Bool.not_eq_true', Bool.or_eq_false_iff, Bool.and_eq_false_iff,
    beq_eq_false_iff_ne, decide_eq_false_iff_not]
  refine ⟨⟨⟨?_, ?_⟩, by omega⟩, by omega⟩
  · by_cases he : expected = 2
    · exact .inr (not_lt.2 (h2 he))
    · exact .inl he
  · by_cases he : expected = 3
    · exact .inr (not_lt.2 (h3 he))
    · exact .inl he

theorem utf8Lead_spec {continuation : ℕ} (h : utf8Lead c = some (codePoint, continuation)) :
    (0xc2 ≤ c.toNat ∧ c.toNat ≤ 0xdf ∧ codePoint = c.toNat % 32 ∧ continuation = 1) ∨
    (0xe0 ≤ c.toNat ∧ c.toNat ≤ 0xef ∧ codePoint = c.toNat % 16 ∧ continuation = 2) ∨
    (0xf0 ≤ c.toNat ∧ c.toNat ≤ 0xf4 ∧ codePoint = c.toNat % 8 ∧ continuation = 3) := by
  unfold utf8Lead at h
  split_ifs at h with h1 h2 h3
  · obtain ⟨rfl, rfl⟩ := Prod.mk.inj (Option.some.inj h)
    exact .inl ⟨h1.1, h1.2, rfl, rfl⟩
  · obtain ⟨rfl, rfl⟩ := Prod.mk.inj (Option.some.inj h)
    exact .inr (.inl ⟨h2.1, h2.2, rfl, rfl⟩)
  · obtain ⟨rfl, rfl⟩ := Prod.mk.inj (Option.some.inj h)
    exact .inr (.inr ⟨h3.1, h3.2, rfl, rfl⟩)

section Encoding

variable {ch : Char} {v : ℕ}

theorem utf8EncodeChar_one (hv : ch.val.toNat = v) (h : v ≤ 0x7f) :
    String.utf8EncodeChar ch = [UInt8.ofNat v] := by
  simp only [String.utf8EncodeChar, hv, if_pos h]

theorem utf8EncodeChar_two (hv : ch.val.toNat = v) (h1 : ¬ v ≤ 0x7f) (h2 : v ≤ 0x7ff) :
    String.utf8EncodeChar ch =
      [UInt8.ofNat (v / 64 % 0x20 + 0xc0), UInt8.ofNat (v % 0x40 + 0x80)] := by
  simp only [String.utf8EncodeChar, hv, if_neg h1, if_pos h2]

theorem utf8EncodeChar_three (hv : ch.val.toNat = v) (h2 : ¬ v ≤ 0x7ff) (h3 : v ≤ 0xffff) :
    String.utf8EncodeChar ch =
      [UInt8.ofNat (v / 4096 % 0x10 + 0xe0), UInt8.ofNat (v / 64 % 0x40 + 0x80),
        UInt8.ofNat (v % 0x40 + 0x80)] := by
  have h1 : ¬ v ≤ 0x7f := by omega
  simp only [String.utf8EncodeChar, hv, if_neg h1, if_neg h2, if_pos h3]

theorem utf8EncodeChar_four (hv : ch.val.toNat = v) (h3 : ¬ v ≤ 0xffff) :
    String.utf8EncodeChar ch =
      [UInt8.ofNat (v / 262144 % 0x08 + 0xf0), UInt8.ofNat (v / 4096 % 0x40 + 0x80),
        UInt8.ofNat (v / 64 % 0x40 + 0x80), UInt8.ofNat (v % 0x40 + 0x80)] := by
  have h1 : ¬ v ≤ 0x7f := by omega
  have h2 : ¬ v ≤ 0x7ff := by omega
  simp only [String.utf8EncodeChar, hv, if_neg h1, if_neg h2, if_neg h3]

end Encoding

theorem Utf8Sequence.char (h : Utf8Sequence t) :
    ∃ c : Char, String.utf8EncodeChar c = t := by
  cases h with
  | @one c h =>
    obtain ⟨ch, hch⟩ := exists_char (v := c.toNat) (.inl (by omega))
    exact ⟨ch, by rw [utf8EncodeChar_one hch h, UInt8.ofNat_toNat]⟩
  | @more c codePoint continuation tail hc hl hn ht hf =>
    obtain ⟨h2, h3, hle, hs⟩ := finishUtf8CodePoint_spec hf
    obtain ⟨ch, hch⟩ := exists_char (v := tail.foldl appendBits codePoint) (by omega)
    refine ⟨ch, ?_⟩
    rcases utf8Lead_spec hl with ⟨hlo, hhi, rfl, rfl⟩ | ⟨hlo, hhi, rfl, rfl⟩ | ⟨hlo, hhi, rfl, rfl⟩
    · obtain ⟨d, rfl⟩ := List.length_eq_one_iff.1 hn
      simp only [List.all_cons, List.all_nil, Bool.and_true, isContinuation, beq_iff_eq] at ht
      simp only [List.foldl_cons, List.foldl_nil, appendBits] at hch
      rw [utf8EncodeChar_two hch (by omega) (by omega), eq_ofNat (c := c) (by omega),
        eq_ofNat (c := d) (by omega)]
    · obtain ⟨d, e, rfl⟩ := List.length_eq_two.1 hn
      simp only [List.all_cons, List.all_nil, Bool.and_true, isContinuation, Bool.and_eq_true,
        beq_iff_eq] at ht
      have h2 := h2 rfl
      simp only [List.foldl_cons, List.foldl_nil, appendBits] at hch h2
      rw [utf8EncodeChar_three hch (by omega) (by omega), eq_ofNat (c := c) (by omega),
        eq_ofNat (c := d) (by omega), eq_ofNat (c := e) (by omega)]
    · obtain ⟨d, e, f, rfl⟩ := List.length_eq_three.1 hn
      simp only [List.all_cons, List.all_nil, Bool.and_true, isContinuation, Bool.and_eq_true,
        beq_iff_eq] at ht
      have h3 := h3 rfl
      simp only [List.foldl_cons, List.foldl_nil, appendBits] at hch h3 hle
      rw [utf8EncodeChar_four hch (by omega), eq_ofNat (c := c) (by omega),
        eq_ofNat (c := d) (by omega), eq_ofNat (c := e) (by omega), eq_ofNat (c := f) (by omega)]

theorem utf8Sequence_char (c : Char) : Utf8Sequence (String.utf8EncodeChar c) := by
  have hv : c.val.toNat < 0xd800 ∨ (0xdfff < c.val.toNat ∧ c.val.toNat < 0x110000) := c.valid
  generalize hn : c.val.toNat = v at hv
  by_cases h1 : v ≤ 0x7f
  · rw [utf8EncodeChar_one hn h1]
    exact .one (by rw [toNat_ofNat (by omega)]; exact h1)
  by_cases h2 : v ≤ 0x7ff
  · rw [utf8EncodeChar_two hn h1 h2]
    have ha : (UInt8.ofNat (v / 64 % 0x20 + 0xc0)).toNat = v / 64 % 0x20 + 0xc0 :=
      toNat_ofNat (by omega)
    have hb : (UInt8.ofNat (v % 0x40 + 0x80)).toNat = v % 0x40 + 0x80 := toNat_ofNat (by omega)
    refine @Utf8Sequence.more _ (v / 64) 1 _ (by omega) ?_ rfl ?_ ?_
    · simp only [utf8Lead, ha]
      rw [if_pos (by omega)]
      exact congrArg some (Prod.ext (show _ = _ by omega) rfl)
    · simp only [List.all_cons, List.all_nil, isContinuation, hb, Bool.and_true, beq_iff_eq]
      omega
    · have : [UInt8.ofNat (v % 0x40 + 0x80)].foldl appendBits (v / 64) = v := by
        simp only [List.foldl_cons, List.foldl_nil, appendBits, hb]
        omega
      rw [this]
      exact finishUtf8CodePoint_of (by omega) (by omega) (by omega) (by omega)
  by_cases h3 : v ≤ 0xffff
  · rw [utf8EncodeChar_three hn h2 h3]
    have ha : (UInt8.ofNat (v / 4096 % 0x10 + 0xe0)).toNat = v / 4096 % 0x10 + 0xe0 :=
      toNat_ofNat (by omega)
    have hb : (UInt8.ofNat (v / 64 % 0x40 + 0x80)).toNat = v / 64 % 0x40 + 0x80 :=
      toNat_ofNat (by omega)
    have hc : (UInt8.ofNat (v % 0x40 + 0x80)).toNat = v % 0x40 + 0x80 := toNat_ofNat (by omega)
    refine @Utf8Sequence.more _ (v / 4096) 2 _ (by omega) ?_ rfl ?_ ?_
    · simp only [utf8Lead, ha]
      rw [if_neg (by omega), if_pos (by omega)]
      exact congrArg some (Prod.ext (show _ = _ by omega) rfl)
    · simp only [List.all_cons, List.all_nil, isContinuation, hb, hc, Bool.and_true,
        Bool.and_eq_true, beq_iff_eq]
      omega
    · have : [UInt8.ofNat (v / 64 % 0x40 + 0x80), UInt8.ofNat (v % 0x40 + 0x80)].foldl appendBits
          (v / 4096) = v := by
        simp only [List.foldl_cons, List.foldl_nil, appendBits, hb, hc]
        omega
      rw [this]
      exact finishUtf8CodePoint_of (by omega) (by omega) (by omega) (by omega)
  · rw [utf8EncodeChar_four hn h3]
    have ha : (UInt8.ofNat (v / 262144 % 0x08 + 0xf0)).toNat = v / 262144 % 0x08 + 0xf0 :=
      toNat_ofNat (by omega)
    have hb : (UInt8.ofNat (v / 4096 % 0x40 + 0x80)).toNat = v / 4096 % 0x40 + 0x80 :=
      toNat_ofNat (by omega)
    have hc : (UInt8.ofNat (v / 64 % 0x40 + 0x80)).toNat = v / 64 % 0x40 + 0x80 :=
      toNat_ofNat (by omega)
    have hd : (UInt8.ofNat (v % 0x40 + 0x80)).toNat = v % 0x40 + 0x80 := toNat_ofNat (by omega)
    refine @Utf8Sequence.more _ (v / 262144) 3 _ (by omega) ?_ rfl ?_ ?_
    · simp only [utf8Lead, ha]
      rw [if_neg (by omega), if_neg (by omega), if_pos (by omega)]
      exact congrArg some (Prod.ext (show _ = _ by omega) rfl)
    · simp only [List.all_cons, List.all_nil, isContinuation, hb, hc, hd, Bool.and_true,
        Bool.and_eq_true, beq_iff_eq]
      omega
    · have : [UInt8.ofNat (v / 4096 % 0x40 + 0x80), UInt8.ofNat (v / 64 % 0x40 + 0x80),
          UInt8.ofNat (v % 0x40 + 0x80)].foldl appendBits (v / 262144) = v := by
        simp only [List.foldl_cons, List.foldl_nil, appendBits, hb, hc, hd]
        omega
      rw [this]
      exact finishUtf8CodePoint_of (by omega) (by omega) (by omega) (by omega)

/-! ## Texts -/

/-- A text of characters, read one after another. -/
inductive Utf8Text : Bytes → Prop
  | nil : Utf8Text []
  | cons {t rest : Bytes} (h : Utf8Sequence t) (hr : Utf8Text rest) : Utf8Text (t ++ rest)

theorem utf8Text_iff : Utf8Text t ↔ ValidUtf8 t := by
  constructor
  · intro h
    induction h with
    | nil => exact ⟨[], rfl⟩
    | cons h _ ih =>
      obtain ⟨c, rfl⟩ := h.char
      obtain ⟨cs, rfl⟩ := ih
      exact ⟨c :: cs, rfl⟩
  · rintro ⟨cs, rfl⟩
    induction cs with
    | nil => exact .nil
    | cons c cs ih =>
      rw [List.flatMap_cons]
      exact .cons (utf8Sequence_char c) ih

theorem isValidUtf8_sequence (h : Utf8Sequence t) (rest : Bytes) :
    isValidUtf8 (t ++ rest) = isValidUtf8 rest := by
  cases h with
  | @one c h =>
    rw [List.singleton_append, isValidUtf8, if_pos h]
  | @more c codePoint continuation tail hc hl hn ht hf =>
    subst hn
    rw [List.cons_append, isValidUtf8, if_neg hc]
    simp only [hl]
    rw [if_neg (by simp), List.take_left, List.drop_left, ht, hf, Bool.true_and, Bool.true_and]

theorem isValidUtf8_text : isValidUtf8 t = true ↔ Utf8Text t := by
  constructor
  · intro h
    fun_induction isValidUtf8 t with
    | case1 => exact .nil
    | case2 c rest hc ih => exact .cons (.one hc) (ih h)
    | case3 => exact absurd h Bool.false_ne_true
    | case4 => exact absurd h Bool.false_ne_true
    | case5 c rest hc codePoint continuation hl hn tail ih =>
      simp only [Bool.and_eq_true] at h
      obtain ⟨⟨ht, hf⟩, hr⟩ := h
      have hlen : tail.length = continuation := List.length_take_of_le (by omega)
      have := Utf8Text.cons (Utf8Sequence.more hc hl hlen ht hf) (ih hr)
      rwa [List.cons_append, List.take_append_drop] at this
  · intro h
    induction h with
    | nil => rw [isValidUtf8]
    | cons h _ ih => rw [isValidUtf8_sequence h, ih]

/-- `IsValidUtf8` holds exactly of the encodings of characters. -/
theorem isValidUtf8_iff : isValidUtf8 t = true ↔ ValidUtf8 t :=
  isValidUtf8_text.trans utf8Text_iff

/-! ## The run over fragments -/

theorem advanceUtf8_append {a b : Bytes} :
    advanceUtf8 s (a ++ b) = (advanceUtf8 s a).bind fun s => advanceUtf8 s b := by
  fun_induction advanceUtf8 s a with
  | case1 s => rfl
  | case2 s c rest h hc => rw [List.cons_append, advanceUtf8, if_pos h, if_pos hc]; rfl
  | case3 s c rest h hc h1 hf ih =>
    rw [List.cons_append, advanceUtf8, if_pos h, if_neg hc, if_pos h1, if_pos hf, ih]
  | case4 s c rest h hc h1 hf =>
    rw [List.cons_append, advanceUtf8, if_pos h, if_neg hc, if_pos h1, if_neg hf]; rfl
  | case5 s c rest h hc h1 ih =>
    rw [List.cons_append, advanceUtf8, if_pos h, if_neg hc, if_neg h1, ih]
  | case6 s c rest h hc ih => rw [List.cons_append, advanceUtf8, if_neg h, if_pos hc, ih]
  | case7 s c rest h hc hl =>
    rw [List.cons_append, advanceUtf8, if_neg h, if_neg hc]
    simp only [hl]
    rfl
  | case8 s c rest h hc codePoint continuation hl ih =>
    rw [List.cons_append, advanceUtf8, if_neg h, if_neg hc]
    simp only [hl, ih]

theorem advanceUtf8_tail
    (h : advanceUtf8 ⟨codePoint, n + 1, expected⟩ t = some s) (hs : s.remaining = 0) :
    ∃ tail rest, t = tail ++ rest ∧ tail.length = n + 1 ∧ tail.all isContinuation = true ∧
      finishUtf8CodePoint (tail.foldl appendBits codePoint) expected = true ∧
      advanceUtf8 {} rest = some s := by
  induction n generalizing codePoint t with
  | zero =>
    cases t with
    | nil =>
      rw [advanceUtf8, Option.some.injEq] at h
      subst h
      cases hs
    | cons c rest =>
      rw [advanceUtf8, if_pos (by simp)] at h
      split_ifs at h with hc h1 hf
      · exact ⟨[c], rest, rfl, rfl, by simpa using hc, hf, h⟩
      · exact absurd rfl h1
  | succ n ih =>
    cases t with
    | nil =>
      rw [advanceUtf8, Option.some.injEq] at h
      subst h
      cases hs
    | cons c rest =>
      rw [advanceUtf8, if_pos (by simp)] at h
      split_ifs at h with hc h1 hf
      · exact absurd h1 (Nat.succ_ne_zero n)
      · obtain ⟨tail, rest, rfl, hn, ht, hf, hr⟩ := ih h
        exact ⟨c :: tail, rest, rfl, by rw [List.length_cons, hn],
          by rw [List.all_cons, ht, Bool.and_true]; simpa using hc, hf, hr⟩

theorem advanceUtf8_sequence {tail : Bytes} (hn : tail.length = n + 1)
    (ht : tail.all isContinuation = true)
    (hf : finishUtf8CodePoint (tail.foldl appendBits codePoint) expected = true) :
    advanceUtf8 ⟨codePoint, n + 1, expected⟩ tail = some {} := by
  induction n generalizing codePoint tail with
  | zero =>
    obtain ⟨c, rfl⟩ := List.length_eq_one_iff.1 hn
    rw [List.all_cons, Bool.and_eq_true] at ht
    rw [advanceUtf8, if_pos (by simp), if_neg (by simpa using ht.1),
      if_pos (show 0 + 1 - 1 = 0 from rfl)]
    exact if_pos hf
  | succ n ih =>
    obtain ⟨c, rest, rfl⟩ := List.exists_cons_of_length_eq_add_one hn
    rw [List.all_cons, Bool.and_eq_true] at ht
    rw [advanceUtf8, if_pos (by simp), if_neg (by simpa using ht.1), if_neg (by simp)]
    exact ih (by simpa using hn) ht.2 hf

/-- The run over the octets ends between characters exactly when they are whole characters. -/
theorem advanceUtf8_iff :
    (∃ s, advanceUtf8 {} t = some s ∧ s.remaining = 0) ↔ ValidUtf8 t := by
  rw [← utf8Text_iff]
  constructor
  · rintro ⟨s, h, hs⟩
    induction hn : t.length using Nat.strong_induction_on generalizing t with
    | _ n ih =>
      subst hn
      cases t with
      | nil => exact .nil
      | cons c rest =>
        rw [advanceUtf8, if_neg (by simp)] at h
        split_ifs at h with hc
        · exact .cons (.one hc) (ih rest.length (by simp) h rfl)
        · cases hl : utf8Lead c with
          | none =>
            simp only [hl] at h
            cases h
          | some p =>
            obtain ⟨codePoint, continuation⟩ := p
            simp only [hl] at h
            obtain ⟨n, rfl⟩ : ∃ n, continuation = n + 1 :=
              ⟨continuation - 1, by have := utf8Lead_spec hl; omega⟩
            obtain ⟨tail, rest, rfl, hn, ht, hf, hr⟩ := advanceUtf8_tail h hs
            have := Utf8Text.cons (.more hc hl hn ht hf) (ih rest.length (by simp) hr rfl)
            rwa [List.cons_append] at this
  · intro h
    refine ⟨{}, ?_, rfl⟩
    induction h with
    | nil => rfl
    | @cons t rest h _ ih =>
      rw [advanceUtf8_append]
      suffices advanceUtf8 {} t = some {} by rw [this, Option.bind_some, ih]
      cases h with
      | @one c hc => rw [advanceUtf8, if_neg (by simp), if_pos hc, advanceUtf8]
      | @more c codePoint continuation tail hc hl hn ht hf =>
        rw [advanceUtf8, if_neg (by simp), if_neg hc]
        simp only [hl]
        obtain ⟨n, rfl⟩ : ∃ n, continuation = n + 1 :=
          ⟨continuation - 1, by have := utf8Lead_spec hl; omega⟩
        exact advanceUtf8_sequence hn ht hf


/-! ## Fragments -/

/-- `AdvanceUtf8State` on the fragments of a message; the last one is final. -/
def advanceFragments : Utf8State → List Bytes → Except NTSTATUS Utf8State
  | s, [] => .ok s
  | s, t :: ts => advanceUtf8State t ts.isEmpty s >>= fun s => advanceFragments s ts

theorem advanceUtf8State_eq_ok {data : Bytes} {finalFragment : Bool} :
    advanceUtf8State data finalFragment s = .ok s' ↔
      advanceUtf8 s data = some s' ∧ (finalFragment = true → s'.remaining = 0) := by
  rw [advanceUtf8State]
  cases h : advanceUtf8 s data with
  | none => simp
  | some s₁ =>
    by_cases hf : finalFragment = true ∧ s₁.remaining ≠ 0
    · simp only [if_pos hf, Option.some.injEq]
      constructor
      · rintro ⟨⟩
      · rintro ⟨rfl, hr⟩
        exact absurd (hr hf.1) hf.2
    · simp only [if_neg hf, Except.ok.injEq, Option.some.injEq]
      constructor
      · rintro rfl
        exact ⟨rfl, fun hfinal => not_not.1 fun hr => hf ⟨hfinal, hr⟩⟩
      · rintro ⟨rfl, -⟩
        rfl

theorem advanceFragments_eq_ok {ts : List Bytes} :
    advanceFragments s ts = .ok s' ↔
      advanceUtf8 s ts.flatten = some s' ∧ (ts ≠ [] → s'.remaining = 0) := by
  induction ts generalizing s with
  | nil => simp [advanceFragments, advanceUtf8]
  | cons t ts ih =>
    have hbind : advanceFragments s (t :: ts) = .ok s' ↔
        ∃ s₁, advanceUtf8State t ts.isEmpty s = .ok s₁ ∧ advanceFragments s₁ ts = .ok s' := by
      rw [advanceFragments]
      cases advanceUtf8State t ts.isEmpty s with
      | error status => simp [bind, Except.bind]
      | ok s₁ => simp [bind, Except.bind]
    rw [hbind, List.flatten_cons, advanceUtf8_append, Option.bind_eq_some_iff]
    constructor
    · rintro ⟨s₁, h₁, h⟩
      obtain ⟨hrun, hlast⟩ := advanceUtf8State_eq_ok.1 h₁
      obtain ⟨hrest, hend⟩ := ih.1 h
      refine ⟨⟨s₁, hrun, hrest⟩, fun _ => ?_⟩
      rcases ts with - | ⟨t', ts⟩
      · obtain rfl : s₁ = s' := by simpa [advanceUtf8] using hrest
        exact hlast rfl
      · exact hend (List.cons_ne_nil _ _)
    · rintro ⟨⟨s₁, hrun, hrest⟩, hend⟩
      have hzero : s'.remaining = 0 := hend (List.cons_ne_nil _ _)
      refine ⟨s₁, advanceUtf8State_eq_ok.2 ⟨hrun, fun hlast => ?_⟩, ih.2 ⟨hrest, fun _ => hzero⟩⟩
      obtain rfl : ts = [] := List.isEmpty_iff.1 hlast
      obtain rfl : s₁ = s' := by simpa [advanceUtf8] using hrest
      exact hzero

/-- However a text is split, its fragments are accepted one after the other exactly when the
text is accepted at once, and that is when it is the encoding of characters. -/
theorem fragments_accepted_iff (ts : List Bytes) :
    ((∃ s, advanceFragments {} ts = .ok s) ↔ isValidUtf8 ts.flatten = true) ∧
      (isValidUtf8 ts.flatten = true ↔ ValidUtf8 ts.flatten) := by
  refine ⟨?_, isValidUtf8_iff⟩
  rw [isValidUtf8_iff, ← advanceUtf8_iff]
  constructor
  · rintro ⟨s, h⟩
    obtain ⟨hrun, hend⟩ := advanceFragments_eq_ok.1 h
    refine ⟨s, hrun, ?_⟩
    rcases ts with - | ⟨t, ts⟩
    · obtain rfl : ({} : Utf8State) = s := by simpa [advanceUtf8] using hrun
      rfl
    · exact hend (List.cons_ne_nil _ _)
  · rintro ⟨s, hrun, hend⟩
    exact ⟨s, advanceFragments_eq_ok.2 ⟨hrun, fun _ => hend⟩⟩

/-- A surrogate, split behind its first octet, fails on its last one. -/
example : advanceFragments {} [[0xed], [], [0xa0, 0x80]] = .error statusInvalidParameter := rfl

end KernelHttp.WebSocket
