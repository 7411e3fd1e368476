/-
  Chunked bodies are read as they were written
  (RFC 9112 Section 7.1).
-/
import KernelHttp.Http1.RequestRoundTrip

namespace KernelHttp.Http1

open Incremental RequestGrammar

/-! ## Chunk extensions -/

/-- `qdtext`. -/
def isQdtext (c : UInt8) : Bool :=
  c.toNat == 9 || (32 ≤ c.toNat && c.toNat != 34 && c.toNat != 92 && c.toNat != 127)

/-- What a `quoted-pair` may quote: HTAB, SP, VCHAR or `obs-text`. -/
def isQuotable (c : UInt8) : Bool := c.toNat == 9 || (32 ≤ c.toNat && c.toNat != 127)

/-- A run of optional white space. -/
def IsBlank (t : Bytes) : Prop := ∀ c ∈ t, isOptionalWhitespace c = true

/-- The text between the quotes of a `quoted-string`. -/
inductive QuotedText (quotable : UInt8 → Bool) : Bytes → Prop
  | nil : QuotedText quotable []
  | plain {c : UInt8} {t : Bytes} (hc : isQdtext c = true) (h : QuotedText quotable t) :
      QuotedText quotable (c :: t)
  | pair {c : UInt8} {t : Bytes} (hc : quotable c = true) (h : QuotedText quotable t) :
      QuotedText quotable (92 :: c :: t)

/-- `chunk-ext-val`. -/
inductive ExtensionValue (quotable : UInt8 → Bool) : Bytes → Prop
  | token {t : Bytes} (h : isValidToken t = true) : ExtensionValue quotable t
  | quoted {t : Bytes} (h : QuotedText quotable t) : ExtensionValue quotable (34 :: (t ++ [34]))

/-- `chunk-ext`. -/
inductive ChunkExtensions (quotable : UInt8 → Bool) : Bytes → Prop
  | nil : ChunkExtensions quotable []
  | flag {a b name rest : Bytes} (ha : IsBlank a) (hb : IsBlank b) (hname : isValidToken name = true)
      (h : ChunkExtensions quotable rest) :
      ChunkExtensions quotable (a ++ 59 :: (b ++ (name ++ rest)))
  | value {a b name a' b' v rest : Bytes} (ha : IsBlank a) (hb : IsBlank b)
      (hname : isValidToken name = true) (ha' : IsBlank a') (hb' : IsBlank b')
      (hv : ExtensionValue quotable v) (h : ChunkExtensions quotable rest) :
      ChunkExtensions quotable (a ++ 59 :: (b ++ (name ++ (a' ++ 61 :: (b' ++ (v ++ rest))))))

section Classes

variable {a t name : Bytes} {c : UInt8}

theorem dropWhile_blank (ha : IsBlank a) :
    (a ++ t).dropWhile isOptionalWhitespace = t.dropWhile isOptionalWhitespace :=
  List.dropWhile_append_of_pos ha

theorem dropWhile_blank_cons (ha : IsBlank a) (hc : isOptionalWhitespace c = false) :
    (a ++ c :: t).dropWhile isOptionalWhitespace = c :: t := by
  rw [dropWhile_blank ha, List.dropWhile_cons_of_neg (by rw [hc]; exact Bool.false_ne_true)]

theorem not_whitespace_of_tchar (h : isTchar c = true) :
    isOptionalWhitespace c = false := by
  have hall : ∀ n : Fin 256, isTchar (UInt8.ofFin n) = true →
      isOptionalWhitespace (UInt8.ofFin n) = false := by
    decide +kernel
  exact hall c.toFin h

theorem not_tchar_of_whitespace (h : isOptionalWhitespace c = true) :
    isTchar c = false := by
  by_contra hc
  rw [not_whitespace_of_tchar (by simpa using hc)] at h
  exact Bool.false_ne_true h

/-- A text in front of which a token ends. -/
def NoTchar (t : Bytes) : Prop := ∀ c, t.head? = some c → isTchar c = false

theorem noTchar_blank_cons (ha : IsBlank a) (hc : isTchar c = false) :
    NoTchar (a ++ c :: t) := by
  intro d hd
  cases a with
  | nil =>
    obtain rfl := Option.some.inj hd
    exact hc
  | cons e a =>
    obtain rfl := Option.some.inj hd
    exact not_tchar_of_whitespace (ha _ List.mem_cons_self)

/-- A token is read up to its end. -/
theorem token_split (hname : isValidToken name = true) (ht : NoTchar t) :
    (name ++ t).takeWhile isTchar = name ∧ (name ++ t).dropWhile isTchar = t := by
  simp only [isValidToken, Bool.and_eq_true, List.all_eq_true] at hname
  rw [List.takeWhile_append_of_pos hname.2, List.dropWhile_append_of_pos hname.2]
  cases t with
  | nil => simp
  | cons c t =>
    have hc := ht c rfl
    simp [hc]

theorem token_cons (hname : isValidToken name = true) :
    ∃ c t, name = c :: t ∧ isTchar c = true := by
  simp only [isValidToken, Bool.and_eq_true, bne_iff_ne, List.all_eq_true] at hname
  obtain ⟨hne, hall⟩ := hname
  cases name with
  | nil => exact absurd rfl hne
  | cons c t => exact ⟨c, t, rfl, hall c List.mem_cons_self⟩

end Classes

section Extensions

variable {quotable : UInt8 → Bool}

variable {t v : Bytes} {c : UInt8}

/-- Extensions are empty, or have a semicolon behind their white space. -/
theorem ChunkExtensions.semicolon (h : ChunkExtensions quotable t) :
    t.dropWhile isOptionalWhitespace = [] ∨
      ∃ u, t.dropWhile isOptionalWhitespace = 59 :: u := by
  cases h with
  | nil => exact .inl rfl
  | flag ha => exact .inr ⟨_, dropWhile_blank_cons ha (by decide)⟩
  | value ha => exact .inr ⟨_, dropWhile_blank_cons ha (by decide)⟩

theorem ChunkExtensions.noTchar (h : ChunkExtensions quotable t) : NoTchar t := by
  cases h with
  | nil => exact nofun
  | flag ha => exact noTchar_blank_cons ha (by decide)
  | value ha => exact noTchar_blank_cons ha (by decide)

theorem isQdtext_spec (h : isQdtext c = true) :
    c.toNat ≠ 34 ∧ c.toNat ≠ 92 ∧ ¬ (c.toNat ≠ 9 ∧ c.toNat < 32) := by
  simp only [isQdtext, Bool.or_eq_true, beq_iff_eq, Bool.and_eq_true, decide_eq_true_eq,
    bne_iff_ne] at h
  omega

theorem skipQuoted_quote (rest : Bytes) : skipQuoted (34 :: rest) = some rest := by
  rw [skipQuoted.eq_def]
  rfl

theorem skipQuoted_plain (hc : isQdtext c = true) (rest : Bytes) :
    skipQuoted (c :: rest) = skipQuoted rest := by
  obtain ⟨hquote, hback, hcontrol⟩ := isQdtext_spec hc
  rw [skipQuoted.eq_def]
  simp only [if_neg hquote, if_neg hback, if_neg hcontrol]

theorem skipQuoted_pair (hc : isQuotedPairText c = true) (rest : Bytes) :
    skipQuoted (92 :: c :: rest) = skipQuoted rest := by
  rw [skipQuoted.eq_def]
  simp [hc]

/-- A quoted string is read up to its closing quote. -/
theorem QuotedText.skip (h : QuotedText quotable t)
    (hq : ∀ c, quotable c = true → isQuotedPairText c = true) (rest : Bytes) :
    skipQuoted (t ++ 34 :: rest) = some rest := by
  induction h with
  | nil => exact skipQuoted_quote rest
  | @plain c t hc _ ih => rw [List.cons_append, skipQuoted_plain hc, ih]
  | @pair c t hc _ ih => rw [List.cons_append, List.cons_append, skipQuoted_pair (hq c hc), ih]

/-- The value the loop reads behind an equals sign. -/
def skipValue (c : UInt8) (rest : Bytes) : Option Bytes :=
  if c.toNat = 34 then skipQuoted rest
  else if (c :: rest).takeWhile isTchar = [] then none
  else some ((c :: rest).dropWhile isTchar)

theorem ExtensionValue.skip (h : ExtensionValue quotable v)
    (hq : ∀ c, quotable c = true → isQuotedPairText c = true) {rest : Bytes}
    (hrest : NoTchar rest) :
    ∃ c t, v ++ rest = c :: t ∧ isOptionalWhitespace c = false ∧ skipValue c t = some rest := by
  cases h with
  | token hv =>
    obtain ⟨c, t, rfl, hc⟩ := token_cons hv
    obtain ⟨htake, hdrop⟩ := token_split hv hrest
    have hquote : c.toNat ≠ 34 := by
      intro hc'
      rw [show c = 34 from UInt8.toNat_inj.1 hc'] at hc
      exact absurd hc (by decide)
    refine ⟨c, t ++ rest, rfl, not_whitespace_of_tchar hc, ?_⟩
    rw [List.cons_append] at htake hdrop
    rw [skipValue, if_neg hquote, htake, if_neg (List.cons_ne_nil _ _), hdrop]
  | @quoted t ht =>
    refine ⟨34, t ++ 34 :: rest, by simp, by decide, ?_⟩
    rw [skipValue, if_pos (by decide), ht.skip hq]

theorem ChunkExtensions.length_dropWhile_le (t : Bytes) :
    (t.dropWhile isOptionalWhitespace).length ≤ t.length :=
  (List.dropWhile_suffix _).length_le

theorem validateParametersLoop_name {n : ℕ} {b name : Bytes} (hb : IsBlank b)
    (hname : isValidToken name = true) (ht : NoTchar t) :
    validateParametersLoop (n + 1) (59 :: (b ++ (name ++ t))) =
      match t.dropWhile isOptionalWhitespace with
      | [] => true
      | c :: rest =>
        if c.toNat = 59 then validateParametersLoop n (c :: rest)
        else if c.toNat ≠ 61 then false
        else
          match rest.dropWhile isOptionalWhitespace with
          | [] => false
          | c :: rest =>
            match skipValue c rest with
            | none => false
            | some rest =>
              match rest.dropWhile isOptionalWhitespace with
              | [] => true
              | c :: rest =>
                if c.toNat ≠ 59 then false else validateParametersLoop n (c :: rest) := by
  obtain ⟨c, u, hcons, hc⟩ := token_cons hname
  obtain ⟨htake, hdrop⟩ := token_split hname ht
  have hskip : (b ++ (name ++ t)).dropWhile isOptionalWhitespace = name ++ t := by
    rw [hcons, List.cons_append]
    exact dropWhile_blank_cons hb (not_whitespace_of_tchar hc)
  rw [validateParametersLoop, if_neg (by decide)]
  simp only [hskip, htake, hdrop]
  rw [if_neg (by rw [hcons]; exact List.cons_ne_nil _ _)]
  rfl

/-- Extensions pass `ValidateSemicolonParameters` behind their white space. -/
theorem ChunkExtensions.validate (h : ChunkExtensions quotable t)
    (hq : ∀ c, quotable c = true → isQuotedPairText c = true) :
    ∀ n, (t.dropWhile isOptionalWhitespace).length ≤ n →
      validateParametersLoop n (t.dropWhile isOptionalWhitespace) = true := by
  induction h with
  | nil =>
    intro n _
    cases n <;> rfl
  | @flag a b name rest ha hb hname hrest ih =>
    intro n hn
    rw [dropWhile_blank_cons ha (by decide)] at hn ⊢
    obtain ⟨n, rfl⟩ : ∃ m, n = m + 1 := ⟨n - 1, by rw [List.length_cons] at hn; omega⟩
    rw [validateParametersLoop_name hb hname hrest.noTchar]
    have ih := ih n (by
      have := ChunkExtensions.length_dropWhile_le rest
      simp only [List.length_cons, List.length_append] at hn
      omega)
    rcases hrest.semicolon with hnil | ⟨u, hu⟩
    · rw [hnil]
    · rw [hu] at ih ⊢
      simpa using ih
  | @value a b name a' b' v rest ha hb hname ha' hb' hv hrest ih =>
    intro n hn
    rw [dropWhile_blank_cons ha (by decide)] at hn ⊢
    obtain ⟨n, rfl⟩ : ∃ m, n = m + 1 := ⟨n - 1, by rw [List.length_cons] at hn; omega⟩
    rw [validateParametersLoop_name hb hname (noTchar_blank_cons ha' (by decide)),
      dropWhile_blank_cons ha' (by decide)]
    have ih := ih n (by
      have := ChunkExtensions.length_dropWhile_le rest
      simp only [List.length_cons, List.length_append] at hn
      omega)
    obtain ⟨c, u, hcons, hc, hvalue⟩ := hv.skip hq hrest.noTchar
    have hskip : (b' ++ (v ++ rest)).dropWhile isOptionalWhitespace = c :: u := by
      rw [hcons]
      exact dropWhile_blank_cons hb' hc
    simp only [hskip, hvalue]
    rcases hrest.semicolon with hnil | ⟨w, hw⟩
    · rw [hnil]
      rfl
    · rw [hw] at ih ⊢
      simpa using ih

theorem isBlank_not_cr (h : IsBlank t) : (13 : UInt8) ∉ t := by
  intro hc
  exact absurd (h _ hc) (by decide)

theorem isValidToken_not_cr (h : isValidToken t = true) : (13 : UInt8) ∉ t := by
  rw [← isValidHeaderName_eq] at h
  exact (not_mem_of_isValidHeaderName h).1

theorem QuotedText.not_cr (h : QuotedText quotable t)
    (hq : ∀ c, quotable c = true → isQuotedPairText c = true) : (13 : UInt8) ∉ t := by
  induction h with
  | nil => exact List.not_mem_nil
  | @plain c t hc _ ih =>
    rintro (_ | ⟨_, h⟩)
    · exact absurd hc (by decide)
    · exact ih h
  | @pair c t hc _ ih =>
    rintro (_ | ⟨_, _ | ⟨_, h⟩⟩)
    · exact absurd (hq _ hc) (by decide)
    · exact ih h

theorem ExtensionValue.not_cr (h : ExtensionValue quotable v)
    (hq : ∀ c, quotable c = true → isQuotedPairText c = true) : (13 : UInt8) ∉ v := by
  cases h with
  | token hv => exact isValidToken_not_cr hv
  | quoted ht =>
    have := ht.not_cr hq
    simp [this]

theorem ChunkExtensions.not_cr (h : ChunkExtensions quotable t)
    (hq : ∀ c, quotable c = true → isQuotedPairText c = true) : (13 : UInt8) ∉ t := by
  induction h with
  | nil => exact List.not_mem_nil
  | flag ha hb hname _ ih =>
    simp [isBlank_not_cr ha, isBlank_not_cr hb, isValidToken_not_cr hname, ih]
  | value ha hb hname ha' hb' hv _ ih =>
    simp [isBlank_not_cr ha, isBlank_not_cr hb, isValidToken_not_cr hname, isBlank_not_cr ha',
      isBlank_not_cr hb', hv.not_cr hq, ih]

end Extensions

/-! ## Chunk-size lines -/

variable {t : Bytes} {b : ℕ}

theorem le_foldl_numeral (val : UInt8 → ℕ) (hb : 0 < b) (t : Bytes) :
    ∀ m, m ≤ t.foldl (fun n c => n * b + val c) m := by
  induction t with
  | nil => exact fun m => le_rfl
  | cons c t ih =>
    intro m
    calc m ≤ m * b + val c := (Nat.le_mul_of_pos_right m hb).trans (Nat.le_add_right _ _)
      _ ≤ _ := ih _

theorem parseDigits_numeral {isDig : UInt8 → Bool} {val : UInt8 → ℕ}
    (hb : 0 < b) (hne : t ≠ []) (hall : t.all isDig = true) (hle : numeral val b t ≤ maxSizeT) :
    parseDigits isDig val b t = .ok (numeral val b t) := by
  rw [parseDigits, if_neg hne]
  rw [List.all_eq_true] at hall
  -- the value read so far is at most the value of the whole numeral
  have hloop : ∀ (t : Bytes) (m : ℕ), (∀ c ∈ t, isDig c = true) →
      t.foldl (fun n c => n * b + val c) m ≤ maxSizeT →
      t.foldlM (fun parsed c =>
        if ¬ isDig c then .error statusInvalidNetworkResponse
        else if parsed > (maxSizeT - val c) / b then .error statusIntegerOverflow
        else .ok (parsed * b + val c)) m =
        (.ok (t.foldl (fun n c => n * b + val c) m) : Except NTSTATUS ℕ) := by
    intro t
    induction t with
    | nil => exact fun _ _ _ => rfl
    | cons c t ih =>
      intro m hall hle
      obtain ⟨hc, hall⟩ := List.forall_mem_cons.1 hall
      have hm : m * b + val c ≤ maxSizeT := (le_foldl_numeral val hb t _).trans hle
      have hguard : ¬ m > (maxSizeT - val c) / b := by
        rw [not_lt, Nat.le_div_iff_mul_le hb]
        omega
      rw [List.foldlM_cons, if_neg (not_not.2 hc), if_neg hguard]
      exact ih _ hall hle
  exact hloop t 0 hall hle

/-- A chunk as it is written: its size, its extensions and its data. -/
structure WireChunk where
  size : Bytes
  extensions : Bytes := []
  data : Bytes

def WireChunk.line (chunk : WireChunk) : Bytes := chunk.size ++ chunk.extensions

def WireChunk.wire (chunk : WireChunk) : Bytes :=
  chunk.line ++ (crlf ++ (chunk.data ++ crlf))

/-- The size is a hexadecimal numeral of the length of the data, and the line is inside the
    limit of the parser. -/
structure WireChunk.Valid (quotable : UInt8 → Bool) (chunk : WireChunk) : Prop where
  size_ne : chunk.size ≠ []
  size_hex : ∀ c ∈ chunk.size, isHexDigit c = true
  size_eq : numeral hexValue 16 chunk.size = chunk.data.length
  extensions : ChunkExtensions quotable chunk.extensions
  short : chunk.line.length ≤ maxChunkSizeLineBytes

section Lines

variable {quotable : UInt8 → Bool} {chunk : WireChunk}

theorem WireChunk.Valid.isLine (h : chunk.Valid quotable)
    (hq : ∀ c, quotable c = true → isQuotedPairText c = true) : IsLine chunk.line := by
  refine isLine_of_not_mem fun hc => ?_
  rcases List.mem_append.1 hc with hc | hc
  · exact (not_whitespace_of_hexDigit (h.size_hex _ hc)).2.2 rfl
  · exact h.extensions.not_cr hq hc

/-- The first semicolon of a line ends the size and the white space behind it. -/
theorem WireChunk.Valid.takeWhile (h : chunk.Valid quotable) :
    chunk.line.takeWhile (·.toNat != 59) =
      chunk.size ++ chunk.extensions.takeWhile isOptionalWhitespace := by
  have hsize : ∀ c ∈ chunk.size, (c.toNat != 59) = true :=
    fun c hc => (not_whitespace_of_hexDigit (h.size_hex c hc)).2.1
  have hblank : ∀ c ∈ chunk.extensions.takeWhile isOptionalWhitespace,
      (c.toNat != 59) = true := by
    intro c hc
    have hc := List.mem_takeWhile_imp hc
    simp only [isOptionalWhitespace, Bool.or_eq_true, beq_iff_eq] at hc
    rw [bne_iff_ne]
    omega
  rw [WireChunk.line, List.takeWhile_append_of_pos hsize]
  conv_lhs => rw [← List.takeWhile_append_dropWhile (p := isOptionalWhitespace)
    (l := chunk.extensions)]
  rw [List.takeWhile_append_of_pos hblank]
  rcases h.extensions.semicolon with hnil | ⟨u, hu⟩
  · rw [hnil, List.takeWhile_nil, List.append_nil]
  · rw [hu, List.takeWhile_cons_of_neg (by decide), List.append_nil]

theorem trimOptionalWhitespace_blank {t a : Bytes} (ht : ∀ c ∈ t, isOptionalWhitespace c = false)
    (hne : t ≠ []) (ha : IsBlank a) : trimOptionalWhitespace (t ++ a) = t := by
  obtain ⟨c, u, rfl⟩ := List.exists_cons_of_ne_nil hne
  have hc : ¬ isOptionalWhitespace c = true := by simp [ht c List.mem_cons_self]
  have hlast : ¬ isOptionalWhitespace ((c :: u).getLast hne) = true := by
    simp [ht _ (List.getLast_mem hne)]
  rw [trimOptionalWhitespace, List.cons_append, List.dropWhile_cons_of_neg hc, ← List.cons_append,
    List.rdropWhile, List.reverse_append, List.dropWhile_append_of_pos fun d hd =>
      ha d (List.mem_reverse.1 hd)]
  exact List.rdropWhile_eq_self_iff.2 fun _ => hlast

theorem isBlank_takeWhile (t : Bytes) : IsBlank (t.takeWhile isOptionalWhitespace) :=
  fun _ hc => List.mem_takeWhile_imp hc

/-- The size of a valid chunk is read. -/
theorem WireChunk.Valid.parseLine (h : chunk.Valid quotable)
    (hq : ∀ c, quotable c = true → isQuotedPairText c = true)
    (hle : chunk.data.length ≤ maxSizeT) :
    parseChunkSizeLine chunk.line = .ok chunk.data.length := by
  have hline : chunk.line = chunk.size ++ chunk.extensions.takeWhile isOptionalWhitespace ++
      chunk.extensions.dropWhile isOptionalWhitespace := by
    rw [List.append_assoc, List.takeWhile_append_dropWhile]
    rfl
  have hdrop : chunk.line.drop
      (chunk.size ++ chunk.extensions.takeWhile isOptionalWhitespace).length =
        chunk.extensions.dropWhile isOptionalWhitespace := by
    rw [hline, List.drop_left]
  have hvalid : validateSemicolonParameters
      (chunk.extensions.dropWhile isOptionalWhitespace) = .ok () := by
    rw [validateSemicolonParameters, if_pos (h.extensions.validate hq _ le_rfl)]
  have htrim := trimOptionalWhitespace_blank
    (fun c hc => (not_whitespace_of_hexDigit (h.size_hex c hc)).1) h.size_ne
    (isBlank_takeWhile chunk.extensions)
  have hsize : parseHexSize chunk.size = .ok chunk.data.length := by
    rw [← h.size_eq]
    exact parseDigits_numeral (by decide) h.size_ne (List.all_eq_true.2 h.size_hex)
      (h.size_eq ▸ hle)
  unfold parseChunkSizeLine
  simp only [h.takeWhile, hdrop, htrim, hvalid]
  rw [if_neg h.size_ne, hsize]
  split_ifs <;> rfl

theorem parseChunkSizeLine_le {line : Bytes} {n : ℕ} (h : parseChunkSizeLine line = .ok n) :
    n ≤ maxSizeT := by
  obtain ⟨t, hp⟩ : ∃ t, parseHexSize t = .ok n := by
    unfold parseChunkSizeLine at h
    simp only at h
    split_ifs at h
    · obtain ⟨-, -, h⟩ := bind_eq_ok h
      cases h
    · obtain ⟨-, -, h⟩ := bind_eq_ok h
      exact ⟨_, h⟩
    · exact ⟨_, h⟩
  unfold parseHexSize parseDigits at hp
  split_ifs at hp
  -- the value read so far is in the range at every turn
  have hloop : ∀ (t : Bytes) (m : ℕ), m ≤ maxSizeT → t.foldlM (fun parsed c =>
      if ¬ isHexDigit c then .error statusInvalidNetworkResponse
      else if parsed > (maxSizeT - hexValue c) / 16 then .error statusIntegerOverflow
      else .ok (parsed * 16 + hexValue c)) m = (.ok n : Except NTSTATUS ℕ) → n ≤ maxSizeT := by
    intro t
    induction t with
    | nil =>
      rintro m hm h
      exact (Except.ok.inj h) ▸ hm
    | cons c t ih =>
      intro m hm h
      rw [List.foldlM_cons] at h
      obtain ⟨m', hm', h⟩ := bind_eq_ok h
      split_ifs at hm' with hhex hguard
      obtain rfl := Except.ok.inj hm'
      refine ih _ ?_ h
      have hvalue : hexValue c ≤ maxSizeT := by
        have := c.toNat_lt
        simp only [hexValue, maxSizeT]
        split_ifs <;> omega
      rw [not_lt, Nat.le_div_iff_mul_le (by decide)] at hguard
      omega
  exact hloop t 0 (Nat.zero_le _) hp

/-- The size of a valid chunk is what its line announces. -/
theorem WireChunk.Valid.chunkSize (h : chunk.Valid quotable) :
    chunkSize chunk.line = some chunk.data.length := by
  have htrim := trimOptionalWhitespace_blank
    (fun c hc => (not_whitespace_of_hexDigit (h.size_hex c hc)).1) h.size_ne
    (isBlank_takeWhile chunk.extensions)
  simp only [Http1.chunkSize, h.takeWhile, htrim]
  rw [if_pos ⟨h.size_ne, List.all_eq_true.2 h.size_hex⟩, h.size_eq]

end Lines

/-! ## Trailer fields -/

/-- A trailer field on its line, with the white space around its value. -/
def trailerLine (trailer : HttpHeader) : Bytes := trailer.name ++ 58 :: trailer.value

/-- A trailer field is permitted, and inside the limit of the parser. -/
structure PermittedTrailer (trailer : HttpHeader) : Prop where
  name : isValidToken trailer.name = true
  value : isValidHeaderValue trailer.value = true
  permitted : isForbiddenTrailerField trailer.name = false
  short : (trailerLine trailer).length ≤ maxHeaderLineBytes

def trailersWire (trailers : List HttpHeader) : Bytes :=
  (trailers.map fun t => trailerLine t ++ crlf).flatten ++ crlf

theorem isValidHeaderValue_trim (h : isValidHeaderValue t = true) :
    isValidHeaderValue (trimOptionalWhitespace t) = true := by
  rw [isValidHeaderValue, List.all_eq_true] at h ⊢
  intro c hc
  refine h c ?_
  rw [trimOptionalWhitespace] at hc
  exact (List.dropWhile_suffix _).subset ((List.rdropWhile_prefix _ _).subset hc)

section Trailers

variable {trailer : HttpHeader}

theorem PermittedTrailer.isLine (h : PermittedTrailer trailer) : IsLine (trailerLine trailer) := by
  refine isLine_of_not_mem ?_
  rw [trailerLine, List.mem_append, List.mem_cons]
  rintro (hc | hc | hc)
  · exact isValidToken_not_cr h.name hc
  · exact absurd hc (by decide)
  · exact (not_mem_of_isValidHeaderValue h.value).1 hc

theorem toNat_ne_colon : (fun c : UInt8 => c.toNat != 58) = fun c => c != 58 := by
  funext c
  rw [Bool.eq_iff_iff, bne_iff_ne, bne_iff_ne, ne_eq, ne_eq, ← UInt8.toNat_inj]
  rfl

/-- A permitted trailer field is read. -/
theorem PermittedTrailer.parse (h : PermittedTrailer trailer) :
    parseTrailerFieldLine (trailerLine trailer) = .ok (trimmedField trailer) := by
  obtain ⟨c, u, hcons, hc⟩ := token_cons h.name
  have hname : (58 : UInt8) ∉ trailer.name := by
    have := h.name
    rw [← isValidHeaderName_eq] at this
    exact (not_mem_of_isValidHeaderName this).2.2.2
  have hsplit : splitAtColon (trailerLine trailer) = some (trailer.name, trailer.value) := by
    unfold splitAtColon
    rw [toNat_ne_colon, trailerLine, takeWhile_append_cons hname, dropWhile_append_cons hname,
      if_neg (by simp)]
    rfl
  have hfield : parseFieldLine (trailerLine trailer) =
      .ok (trailer.name, trimOptionalWhitespace trailer.value) := by
    have hline : trailerLine trailer = c :: (u ++ 58 :: trailer.value) := by
      rw [trailerLine, hcons, List.cons_append]
    rw [hline] at hsplit ⊢
    simp only [Http1.parseFieldLine, not_whitespace_of_tchar hc, hsplit, Bool.false_eq_true, if_false]
    rw [if_neg (by rw [hcons]; exact List.cons_ne_nil _ _)]
  rw [parseTrailerFieldLine, hfield]
  show (if _ then _ else _) = _
  rw [if_neg (by simp [h.name, isValidHeaderValue_trim h.value, h.permitted])]
  rfl

end Trailers

/-! ## Chunked bodies -/

/-- A chunked body as it is written. -/
def chunkedWire (chunks : List WireChunk) (last : WireChunk) (trailers : List HttpHeader) : Bytes :=
  (chunks.map WireChunk.wire).flatten ++ (last.line ++ (crlf ++ trailersWire trailers))

/-- A destination for the trailers takes `n` of them, or is null and none is stored. -/
structure OutBuffer.TakesIfPresent (buffer : OutBuffer) (n : ℕ) : Prop where
  null : buffer.present = false → buffer.capacity = 0
  fits : buffer.present = true → n ≤ buffer.capacity

section Loops

variable {target trailerTarget : OutBuffer} {quotable : UInt8 → Bool}

theorem take_line (line rest : Bytes) : (line ++ (crlf ++ rest)).take line.length = line :=
  List.take_left

theorem drop_line (line rest : Bytes) : (line ++ (crlf ++ rest)).drop (line.length + 2) = rest := by
  rw [← List.append_assoc]
  exact List.drop_left' (by rw [List.length_append]; rfl)

variable {body rest : Bytes} {chunk : WireChunk} {consumed n : ℕ}

theorem trailerLoop_trailer {trailer : HttpHeader} (h : PermittedTrailer trailer)
    {stored : List HttpHeader} (hcount : n < maxTrailers)
    (hroom : trailerTarget.present = true → n < trailerTarget.capacity) :
    trailerLoop trailerTarget body (trailerLine trailer ++ (crlf ++ rest)) consumed n stored =
      trailerLoop trailerTarget body rest (consumed + ((trailerLine trailer).length + 2)) (n + 1)
        (if trailerTarget.present then stored ++ [trimmedField trailer] else stored) := by
  have hne : (trailerLine trailer).length ≠ 0 := by
    rw [trailerLine, List.length_append, List.length_cons]
    omega
  have hroom : ¬ (trailerTarget.present = true ∧ n ≥ trailerTarget.capacity) := by
    rintro ⟨hp, hn⟩
    exact absurd (hroom hp) (not_lt.2 hn)
  rw [trailerLoop_some (findCrlf_line h.isLine rest), if_neg (not_lt.2 h.short), if_neg hne,
    if_neg (not_le.2 hcount), if_neg hroom, take_line, h.parse, drop_line]

theorem trailerLoop_wire : ∀ {trailers : List HttpHeader},
    (∀ t ∈ trailers, PermittedTrailer t) → ∀ (consumed n : ℕ) (stored : List HttpHeader),
    n + trailers.length ≤ maxTrailers →
    (trailerTarget.present = true → n + trailers.length ≤ trailerTarget.capacity) →
    trailerLoop trailerTarget body (trailersWire trailers ++ rest) consumed n stored =
      .ok ⟨body, consumed + (trailersWire trailers).length, n + trailers.length,
        if trailerTarget.present then stored ++ trailers.map trimmedField else stored⟩ := by
  intro trailers
  induction trailers with
  | nil =>
    intro _ consumed n stored _ _
    have hline := findCrlf_line isLine_nil rest
    rw [List.nil_append] at hline
    rw [trailersWire, List.map_nil, List.flatten_nil, List.nil_append, trailerLoop_some hline,
      if_neg (by decide), if_pos List.length_nil]
    simp [crlf]
  | cons t trailers ih =>
    intro h consumed n stored hcount hroom
    obtain ⟨ht, h⟩ := List.forall_mem_cons.1 h
    rw [List.length_cons] at hcount hroom
    have hwire : trailersWire (t :: trailers) ++ rest =
        trailerLine t ++ (crlf ++ (trailersWire trailers ++ rest)) := by
      simp only [trailersWire, List.map_cons, List.flatten_cons, List.append_assoc]
    have hlength : (trailersWire (t :: trailers)).length =
        (trailerLine t).length + 2 + (trailersWire trailers).length := by
      simp only [trailersWire, List.map_cons, List.flatten_cons, List.append_assoc,
        List.length_append]
      rw [show crlf.length = 2 from rfl]
      omega
    rw [hwire, trailerLoop_trailer ht (by omega) fun hp => (by have := hroom hp; omega),
      ih h _ _ _ (by omega) fun hp => (by have := hroom hp; omega), hlength, List.length_cons,
      Nat.add_assoc consumed, Nat.add_right_comm n, Nat.add_assoc n]
    split_ifs
    · rw [List.map_cons, List.append_assoc, List.singleton_append]
    · rfl

theorem chunkLoop_chunk (h : chunk.Valid quotable)
    (hq : ∀ c, quotable c = true → isQuotedPairText c = true) (hne : chunk.data ≠ [])
    (hle : chunk.data.length ≤ maxSizeT)
    (hcount : n < maxChunks) (hnull : target.present = false → target.capacity = 0)
    (hroom : body.length + chunk.data.length ≤ target.capacity) :
    chunkLoop target trailerTarget (chunk.wire ++ rest) consumed n body =
      chunkLoop target trailerTarget rest (consumed + chunk.wire.length) (n + 1)
        (body ++ chunk.data) := by
  have hpos : 0 < chunk.data.length := List.length_pos_iff.2 hne
  have hwire : chunk.wire ++ rest =
      chunk.line ++ (crlf ++ (chunk.data ++ (crlf ++ rest))) := by
    simp only [WireChunk.wire, List.append_assoc]
  have hlength : chunk.wire.length = chunk.line.length + 2 + chunk.data.length + 2 := by
    simp only [WireChunk.wire, List.length_append]
    rw [show crlf.length = 2 from rfl]
    omega
  have hpresent : target.present = true := by
    by_contra hp
    have := hnull (by simpa using hp)
    omega
  have hcopy : copyChunkData chunk.data target body = .ok (body ++ chunk.data) := by
    rw [copyChunkData, if_neg hne, if_neg]
    rintro (h | h | h)
    · exact h hpresent
    · omega
    · omega
  rw [hwire, chunkLoop_some (findCrlf_line (h.isLine hq) _), chunkTurn,
    if_neg (not_lt.2 h.short), take_line, h.parseLine hq hle]
  simp only [drop_line, List.take_left, List.drop_left, hcopy]
  rw [if_neg (by omega), if_neg (by omega), if_neg (by simp), if_neg (by simp [crlf]),
    if_neg (by simp [crlf, startsWithCrlf]), hlength]
  have hrest : (crlf ++ rest).drop 2 = rest := rfl
  rw [hrest]
  congr 1
  omega

theorem chunkLoop_chunks (hq : ∀ c, quotable c = true → isQuotedPairText c = true)
    (hnull : target.present = false → target.capacity = 0) :
    ∀ {chunks : List WireChunk}, (∀ c ∈ chunks, c.Valid quotable ∧ c.data ≠ []) →
    ((chunks.map WireChunk.data).flatten.length ≤ maxSizeT) → ∀ (consumed n : ℕ) (body : Bytes),
    n + chunks.length ≤ maxChunks →
    body.length + (chunks.map WireChunk.data).flatten.length ≤ target.capacity →
    chunkLoop target trailerTarget ((chunks.map WireChunk.wire).flatten ++ rest) consumed n body =
      chunkLoop target trailerTarget rest
        (consumed + ((chunks.map WireChunk.wire).flatten).length) (n + chunks.length)
        (body ++ (chunks.map WireChunk.data).flatten) := by
  intro chunks
  induction chunks with
  | nil => simp
  | cons c chunks ih =>
    intro h hle consumed n body hcount hroom
    obtain ⟨⟨hc, hne⟩, h⟩ := List.forall_mem_cons.1 h
    simp only [List.map_cons, List.flatten_cons, List.length_append, List.length_cons,
      List.append_assoc] at hle hcount hroom ⊢
    rw [chunkLoop_chunk hc hq hne (by omega) (by omega) hnull (by omega),
      ih h (by omega) _ _ _ (by omega) (by rw [List.length_append]; omega),
      Nat.add_assoc consumed, Nat.add_right_comm n, Nat.add_assoc n, List.append_assoc]

/-- **The decoder undoes the encoding.** -/
theorem decodeChunked_wire (hq : ∀ c, quotable c = true → isQuotedPairText c = true)
    {chunks : List WireChunk} {last : WireChunk} {trailers : List HttpHeader}
    (hchunks : ∀ c ∈ chunks, c.Valid quotable ∧ c.data ≠ [])
    (hlast : last.Valid quotable ∧ last.data = []) (hcount : chunks.length ≤ maxChunks)
    (hsize : (chunks.map WireChunk.data).flatten.length ≤ maxSizeT)
    (htrailers : ∀ t ∈ trailers, PermittedTrailer t) (htcount : trailers.length ≤ maxTrailers)
    (htarget : target.Takes (chunks.map WireChunk.data).flatten.length)
    (httarget : trailerTarget.TakesIfPresent trailers.length) (rest : Bytes) :
    decodeChunkedBodyWithTrailers (chunkedWire chunks last trailers ++ rest) target trailerTarget =
      .ok ⟨(chunks.map WireChunk.data).flatten, (chunkedWire chunks last trailers).length,
        trailers.length,
        if trailerTarget.present then trailers.map trimmedField else []⟩ := by
  obtain ⟨hlast, hempty⟩ := hlast
  have hnull : ¬ ((target.present = false ∧ target.capacity ≠ 0) ∨
      (trailerTarget.present = false ∧ trailerTarget.capacity ≠ 0)) := by
    rintro (⟨hp, hc⟩ | ⟨hp, hc⟩)
    · exact hc (htarget.null hp)
    · exact hc (httarget.null hp)
  have hzero : parseChunkSizeLine last.line = .ok 0 := by
    have := hlast.parseLine hq (by rw [hempty]; exact Nat.zero_le _)
    rwa [hempty] at this
  have hlength : (chunkedWire chunks last trailers).length =
      (chunks.map WireChunk.wire).flatten.length + (last.line.length + 2) +
        (trailersWire trailers).length := by
    simp only [chunkedWire, List.length_append]
    rw [show crlf.length = 2 from rfl]
    omega
  rw [decodeChunkedBodyWithTrailers, if_neg hnull, chunkedWire, List.append_assoc,
    chunkLoop_chunks hq htarget.null hchunks hsize _ _ _ (by omega)
      (by simpa using htarget.fits), List.append_assoc, List.append_assoc,
    chunkLoop_some (findCrlf_line (hlast.isLine hq) _), chunkTurn, if_neg (not_lt.2 hlast.short),
    take_line, hzero]
  simp only [if_true, drop_line]
  rw [trailerLoop_wire htrailers _ _ _ (by omega) fun hp => (by have := httarget.fits hp; omega),
    ← chunkedWire, hlength]
  simp

theorem chunkLoop_chunk_ok (hq : ∀ c, quotable c = true → isQuotedPairText c = true)
    (h : chunk.Valid quotable) (hne : chunk.data ≠ []) {r : ChunkedResult}
    (hr : chunkLoop target trailerTarget (chunk.wire ++ rest) consumed n body = .ok r) :
    ∃ consumed' n' body', chunkLoop target trailerTarget rest consumed' n' body' = .ok r := by
  have hwire : chunk.wire ++ rest =
      chunk.line ++ (crlf ++ (chunk.data ++ (crlf ++ rest))) := by
    simp only [WireChunk.wire, List.append_assoc]
  rw [hwire, chunkLoop_some (findCrlf_line (h.isLine hq) _), chunkTurn,
    if_neg (not_lt.2 h.short), take_line] at hr
  cases hsize : parseChunkSizeLine chunk.line with
  | error status =>
    rw [hsize] at hr
    cases hr
  | ok m =>
    have hm := parseChunkSizeLine_ok hsize
    rw [h.chunkSize] at hm
    obtain rfl := Option.some.inj hm
    have hpos : chunk.data.length ≠ 0 := fun hl => hne (List.eq_nil_of_length_eq_zero hl)
    simp only [hsize, if_neg hpos, drop_line, List.take_left, List.drop_left] at hr
    cases hcopy : copyChunkData chunk.data target body with
    | error status =>
      simp only [hcopy] at hr
      split_ifs at hr
    | ok body' =>
      simp only [hcopy] at hr
      split_ifs at hr
      exact ⟨_, _, _, hr⟩

theorem decodeChunked_size (hq : ∀ c, quotable c = true → isQuotedPairText c = true)
    {line : Bytes} {m : ℕ} (hline : IsLine line) (hsize : chunkSize line = some m)
    (hm : 2 ^ 64 ≤ m) : ∀ {chunks : List WireChunk},
    (∀ c ∈ chunks, c.Valid quotable ∧ c.data ≠ []) → ∀ {consumed n : ℕ} {body : Bytes}
    (r : ChunkedResult), chunkLoop target trailerTarget
      ((chunks.map WireChunk.wire).flatten ++ (line ++ (crlf ++ rest))) consumed n body ≠ .ok r := by
  intro chunks
  induction chunks with
  | nil =>
    intro _ consumed n body r hr
    rw [List.map_nil, List.flatten_nil, List.nil_append, chunkLoop_some (findCrlf_line hline _),
      chunkTurn, take_line] at hr
    cases hread : parseChunkSizeLine line with
    | error status =>
      rw [hread] at hr
      split_ifs at hr
    | ok k =>
      have hk := parseChunkSizeLine_le hread
      have := parseChunkSizeLine_ok hread
      rw [hsize] at this
      obtain rfl := Option.some.inj this
      rw [maxSizeT] at hk
      omega
  | cons c chunks ih =>
    intro h consumed n body r hr
    obtain ⟨⟨hc, hne⟩, h⟩ := List.forall_mem_cons.1 h
    rw [List.map_cons, List.flatten_cons, List.append_assoc] at hr
    obtain ⟨consumed', n', body', hr⟩ := chunkLoop_chunk_ok hq hc hne hr
    exact ih h r hr

end Loops

/-! ## What `AppendChunkedBody` writes -/

theorem length_hexDigits (n : ℕ) : ∀ (k : ℕ) (wrote : Bool),
    (BufferWriter.hexDigits n k wrote).length ≤ k + 1
  | 0, _ => le_rfl
  | k + 1, wrote => by
    rw [BufferWriter.hexDigits]
    split_ifs
    · exact Nat.succ_le_succ (length_hexDigits n k true)
    · exact (length_hexDigits n k wrote).trans (Nat.le_succ _)

/-- The chunks that `AppendChunkedBody` writes. -/
def bodyChunks (body : Bytes) : List WireChunk :=
  if body.length ≠ 0 then
    [{ size := BufferWriter.hexDigits body.length 15 false, data := body }]
  else []

/-- The last chunk that `AppendChunkedBody` writes. -/
def zeroChunk : WireChunk := { size := text "0", data := [] }

/-- A trailer as `AppendHeader` writes it. -/
def spacedTrailer (trailer : HttpHeader) : HttpHeader := ⟨trailer.name, 32 :: trailer.value⟩

theorem trimmedField_spacedTrailer (trailer : HttpHeader) :
    trimmedField (spacedTrailer trailer) = trimmedField trailer := by
  rw [trimmedField, spacedTrailer, trimOptionalWhitespace_space]
  rfl

theorem chunkedText_eq (body : Bytes) (trailers : List HttpHeader) :
    chunkedText body trailers =
      chunkedWire (bodyChunks body) zeroChunk (trailers.map spacedTrailer) := by
  have htrailers : fieldsText trailers ++ crlf = trailersWire (trailers.map spacedTrailer) := by
    rw [fieldsText_eq, trailersWire, List.map_map]
    rfl
  have hbody : chunkText body = ((bodyChunks body).map WireChunk.wire).flatten := by
    rw [chunkText, bodyChunks]
    split_ifs
    · simp [WireChunk.wire, WireChunk.line]
    · rfl
  rw [chunkedText, chunkedWire, hbody, htrailers]
  rfl

theorem bodyChunks_data (body : Bytes) : ((bodyChunks body).map WireChunk.data).flatten = body := by
  rw [bodyChunks]
  split_ifs with h
  · simp
  · rw [List.eq_nil_of_length_eq_zero (not_not.1 h)]
    rfl

theorem bodyChunks_valid {body : Bytes} (hle : body.length ≤ maxSizeT) :
    ∀ c ∈ bodyChunks body, c.Valid isQuotedPairText ∧ c.data ≠ [] := by
  intro c hc
  rw [bodyChunks] at hc
  split_ifs at hc with hne
  · obtain rfl := List.mem_singleton.1 hc
    obtain ⟨hdigits, hvalid⟩ := hexDigits_valid body.length 15 false
    refine ⟨⟨hdigits, hvalid, ?_, .nil, ?_⟩, fun h => hne (congrArg List.length h)⟩
    · rw [numeral, foldl_hexDigits body.length 15 0 false fun _ => rfl, Nat.zero_mul, Nat.zero_add]
      refine Nat.mod_eq_of_lt ?_
      rw [maxSizeT] at hle
      omega
    · have := length_hexDigits body.length 15 false
      rw [WireChunk.line, List.append_nil]
      exact this.trans (by decide)
  · cases hc

theorem zeroChunk_valid : zeroChunk.Valid isQuotedPairText ∧ zeroChunk.data = [] :=
  ⟨⟨by decide, by decide +kernel, by decide +kernel, .nil, by decide⟩, rfl⟩

theorem permitted_spacedTrailer {trailer : HttpHeader} (h : validateTrailer trailer = .ok ())
    (hshort : (fieldLineText trailer).length ≤ maxHeaderLineBytes) :
    PermittedTrailer (spacedTrailer trailer) ∧ ValidField trailer := by
  obtain ⟨hvalid, hpermitted⟩ := validateTrailer_eq_ok h
  refine ⟨⟨?_, ?_, hpermitted, hshort⟩, hvalid⟩
  · rw [← isValidHeaderName_eq]
    exact hvalid.1
  · rw [spacedTrailer, isValidHeaderValue, List.all_cons]
    exact hvalid.2

/-! ## Results -/

/-- Chunked bodies are decoded as they were encoded, in any spelling of their sizes, with any
    extensions whose quoted pairs quote octets of a kind, and with any octets behind them. -/
def DecodesEncoded (quotable : UInt8 → Bool) : Prop :=
  ∀ (chunks : List WireChunk) (last : WireChunk) (trailers : List HttpHeader)
    (target trailerTarget : OutBuffer) (rest : Bytes),
    (∀ c ∈ chunks, c.Valid quotable ∧ c.data ≠ []) → last.Valid quotable ∧ last.data = [] →
    chunks.length ≤ maxChunks → (chunks.map WireChunk.data).flatten.length ≤ maxSizeT →
    (∀ t ∈ trailers, PermittedTrailer t) → trailers.length ≤ maxTrailers →
    target.Takes (chunks.map WireChunk.data).flatten.length →
    trailerTarget.TakesIfPresent trailers.length →
    decodeChunkedBodyWithTrailers (chunkedWire chunks last trailers ++ rest) target trailerTarget =
      .ok ⟨(chunks.map WireChunk.data).flatten, (chunkedWire chunks last trailers).length,
        trailers.length, if trailerTarget.present then trailers.map trimmedField else []⟩

/-- **Chunked decoding undoes chunked encoding**, in any spelling, and as `AppendChunkedBody`
    writes it.  No chunk-size line that denotes `2 ^ 64` or more is accepted. -/
theorem decodeChunked_encoded :
    DecodesEncoded isQuotedPairText ∧
    (∀ (options : HttpRequestBuildOptions) (target trailerTarget : OutBuffer) (rest : Bytes),
      validateTrailers options = .ok () → options.trailers.length ≤ maxTrailers →
      (∀ t ∈ options.trailers, (fieldLineText t).length ≤ maxHeaderLineBytes) →
      options.body.length ≤ maxSizeT → target.Takes options.body.length →
      trailerTarget.TakesIfPresent options.trailers.length →
      ∃ encoded, (∀ w w', appendChunkedBody w options.body options.trailers = .ok w' ↔
          w.append encoded = .ok w') ∧
        decodeChunkedBodyWithTrailers (encoded ++ rest) target trailerTarget =
          .ok ⟨options.body, encoded.length, options.trailers.length,
            if trailerTarget.present then options.trailers.map trimmedField else []⟩) ∧
    ∀ (chunks : List WireChunk) (line rest : Bytes) (n : ℕ) (target trailerTarget : OutBuffer)
      (r : ChunkedResult), (∀ c ∈ chunks, c.Valid isQuotedPairText ∧ c.data ≠ []) → IsLine line →
      chunkSize line = some n → 2 ^ 64 ≤ n → decodeChunkedBodyWithTrailers
        ((chunks.map WireChunk.wire).flatten ++ (line ++ (crlf ++ rest))) target trailerTarget ≠
          .ok r := by
  refine ⟨?_, ?_, ?_⟩
  · intro chunks last trailers target trailerTarget rest hchunks hlast hcount hsize htrailers
      htcount htarget httarget
    exact decodeChunked_wire (fun _ h => h) hchunks hlast hcount hsize htrailers htcount htarget
      httarget rest
  · intro options target trailerTarget rest hvalid hcount hshort hbody htarget httarget
    have htrailers : ∀ t ∈ options.trailers, PermittedTrailer (spacedTrailer t) ∧ ValidField t :=
      fun t ht => permitted_spacedTrailer ((validateTrailers_eq_ok.1 hvalid).2 t ht) (hshort t ht)
    refine ⟨chunkedText options.body options.trailers, fun w w' => ?_, ?_⟩
    · rw [(Emits.chunked options.body options.trailers).ok w w']
      exact and_iff_right fun t ht => (htrailers t ht).2
    · have hone : (bodyChunks options.body).length ≤ maxChunks := by
        rw [bodyChunks]
        split_ifs
        · exact (by decide : 1 ≤ maxChunks)
        · exact Nat.zero_le _
      have hdecode := decodeChunked_wire (fun _ h => h) (bodyChunks_valid hbody) zeroChunk_valid
        hone (by rwa [bodyChunks_data]) (List.forall_mem_map.2 fun t ht => (htrailers t ht).1)
        (by rwa [List.length_map]) (by rwa [bodyChunks_data]) (by rwa [List.length_map]) rest
      rw [chunkedText_eq, hdecode, bodyChunks_data, List.length_map, List.map_map]
      simp only [Function.comp_def, trimmedField_spacedTrailer]
  · intro chunks line rest n target trailerTarget r hchunks hline hsize hn hr
    rw [decodeChunkedBodyWithTrailers] at hr
    split_ifs at hr
    exact decodeChunked_size (fun _ h => h) hline hsize hn hchunks r hr

/-- A last chunk whose extension quotes an octet above `0x7f`. -/
def obsTextChunk : WireChunk :=
  { size := text "0", extensions := [59, 97, 61, 34, 92, 0x80, 34], data := [] }

theorem obsTextChunk_valid : obsTextChunk.Valid isQuotable ∧ obsTextChunk.data = [] := by
  have hext : ChunkExtensions isQuotable ([] ++ 59 :: ([] ++ (text "a" ++ ([] ++ 61 :: ([] ++
      ((34 :: ([92, 0x80] ++ [34])) ++ [])))))) :=
    .value nofun nofun (by decide) nofun nofun (.quoted (.pair (by decide) .nil)) .nil
  exact ⟨⟨by decide, by decide +kernel, by decide +kernel, hext, by decide⟩, rfl⟩

/-- The decoder does not take all quoted pairs of the grammar. -/
theorem decodeChunked_obsText : ¬ DecodesEncoded isQuotable := by
  intro h
  have := h [] obsTextChunk [] {} {} [] nofun obsTextChunk_valid (by decide) (by decide) nofun
    (by decide) ⟨fun _ => rfl, by decide⟩ ⟨fun _ => rfl, nofun⟩
  revert this
  decide +kernel

end KernelHttp.Http1
