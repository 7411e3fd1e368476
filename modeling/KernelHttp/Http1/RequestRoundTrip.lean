/-
  Requests are read as they were written.
-/
import KernelHttp.Http1.RequestBuilder

namespace KernelHttp.Http1

open Incremental RequestGrammar

/-! ## What is written -/

/-- The writer after a text that fits into the address space. -/
def BufferWriter.put (writer : BufferWriter) (t : Bytes) : BufferWriter :=
  { writer with
    required := writer.required + t.length
    written := writer.written ++ t.take (writer.capacity - writer.required) }

@[simp] theorem BufferWriter.put_nil (writer : BufferWriter) : writer.put [] = writer := by
  rw [BufferWriter.put, List.take_nil, List.append_nil]
  rfl

variable {f : BufferWriter → Except NTSTATUS BufferWriter} {t s name : Bytes}
    {options : HttpRequestBuildOptions} {status : NTSTATUS}

theorem BufferWriter.append_eq_ok {writer writer' : BufferWriter} :
    writer.append t = .ok writer' ↔
      (t = [] ∨ writer.required + t.length ≤ maxSizeT) ∧ writer' = writer.put t := by
  unfold BufferWriter.append
  by_cases ht : t.length = 0
  · obtain rfl := List.eq_nil_of_length_eq_zero ht
    simp [eq_comm]
  · have hne : t ≠ [] := fun h => ht (congrArg List.length h)
    rw [if_neg ht]
    by_cases hover : writer.required + t.length > maxSizeT
    · simp only [if_pos hover, reduceCtorEq, false_iff]
      rintro ⟨h | h, -⟩
      · exact hne h
      · exact absurd h (not_le.2 hover)
    · simp only [if_neg hover, Except.ok.injEq, hne, not_lt.1 hover, or_true, true_and,
        BufferWriter.put]
      by_cases hroom : writer.required < writer.capacity
      · rw [if_pos hroom, eq_comm]
      · rw [if_neg hroom, Nat.sub_eq_zero_of_le (not_lt.1 hroom), List.take_zero, List.append_nil,
          eq_comm]

theorem BufferWriter.put_put (writer : BufferWriter) (s t : Bytes) :
    (writer.put s).put t = writer.put (s ++ t) := by
  simp only [BufferWriter.put, List.length_append, List.take_append, List.append_assoc,
    Nat.add_assoc, Nat.sub_sub]

/-- A failure other than a destination that is too small. -/
def Refused (status : NTSTATUS) : Prop :=
  ntSuccess status = false ∧ status ≠ statusBufferTooSmall

theorem refused_statuses : Refused statusInvalidParameter ∧ Refused statusNotSupported ∧
    Refused statusIntegerOverflow :=
  ⟨⟨rfl, by decide⟩, ⟨rfl, by decide⟩, rfl, by decide⟩

/-- A function that writes a text under a condition, and else fails. -/
structure Emits (f : BufferWriter → Except NTSTATUS BufferWriter) (P : Prop) (t : Bytes) :
    Prop where
  ok : ∀ w w', f w = .ok w' ↔ P ∧ w.append t = .ok w'
  error : ∀ w status, f w = .error status → Refused status

theorem Emits.append (t : Bytes) : Emits (·.append t) True t := by
  refine ⟨fun w w' => by rw [true_and], fun w status h => ?_⟩
  unfold BufferWriter.append at h
  split_ifs at h
  obtain rfl := Except.error.inj h
  exact refused_statuses.2.2

theorem Emits.skip : Emits .ok True [] := by
  refine ⟨fun w w' => ?_, nofun⟩
  rw [BufferWriter.append_eq_ok, BufferWriter.put_nil, Except.ok.injEq]
  simp [eq_comm]

theorem Emits.bind {g : BufferWriter → Except NTSTATUS BufferWriter} {P Q : Prop}
    (hf : Emits f P s) (hg : Emits g Q t) : Emits (fun w => f w >>= g) (P ∧ Q) (s ++ t) := by
  refine ⟨fun w w' => ?_, fun w status h => ?_⟩
  · rw [BufferWriter.append_eq_ok]
    constructor
    · intro h
      obtain ⟨w₁, h₁, h₂⟩ := bind_eq_ok h
      obtain ⟨hP, h₁⟩ := (hf.ok w w₁).1 h₁
      obtain ⟨hQ, h₂⟩ := (hg.ok w₁ w').1 h₂
      obtain ⟨hs, rfl⟩ := BufferWriter.append_eq_ok.1 h₁
      obtain ⟨ht, rfl⟩ := BufferWriter.append_eq_ok.1 h₂
      refine ⟨⟨hP, hQ⟩, ?_, BufferWriter.put_put w s t⟩
      rcases ht with rfl | ht
      · simpa using hs
      · right
        simpa only [BufferWriter.put, List.length_append, Nat.add_assoc] using ht
    · rintro ⟨⟨hP, hQ⟩, hlen, rfl⟩
      have hs : w.append s = .ok (w.put s) := by
        refine BufferWriter.append_eq_ok.2 ⟨hlen.imp (fun h => ?_) fun h => ?_, rfl⟩
        · exact (List.append_eq_nil_iff.1 h).1
        · rw [List.length_append] at h
          omega
      have ht : (w.put s).append t = .ok (w.put (s ++ t)) := by
        refine BufferWriter.append_eq_ok.2 ⟨hlen.imp (fun h => ?_) fun h => ?_,
          (BufferWriter.put_put w s t).symm⟩
        · exact (List.append_eq_nil_iff.1 h).2
        · simpa only [BufferWriter.put, List.length_append, Nat.add_assoc] using h
      rw [(hf.ok _ _).2 ⟨hP, hs⟩]
      exact (hg.ok _ _).2 ⟨hQ, ht⟩
  · cases h₁ : f w with
    | error status₁ =>
      rw [h₁] at h
      obtain rfl := Except.error.inj h
      exact hf.error w _ h₁
    | ok w₁ =>
      rw [h₁] at h
      exact hg.error w₁ status h

theorem Emits.of_iff {P Q : Prop} (h : Emits f P s) (hPQ : P ↔ Q) (hst : s = t) : Emits f Q t := by
  rwa [← propext hPQ, ← hst]

theorem Emits.bytes (t : Bytes) : Emits (fun w => t.foldlM BufferWriter.appendByte w) True t := by
  induction t with
  | nil => exact Emits.skip
  | cons c t ih => exact ((Emits.append [c]).bind ih).of_iff (and_self_iff) rfl

/-! ### Header fields -/

/-- `AppendHeader` accepts the field. -/
def ValidField (h : HttpHeader) : Prop :=
  isValidHeaderName h.name = true ∧ isValidHeaderValue h.value = true

theorem validateTrailer_eq_ok {trailer : HttpHeader} (h : validateTrailer trailer = .ok ()) :
    ValidField trailer ∧ isForbiddenTrailerField trailer.name = false := by
  unfold validateTrailer at h
  split_ifs at h with hvalid hforbidden
  push Not at hvalid
  exact ⟨hvalid, Bool.eq_false_iff.2 hforbidden⟩

def fieldLine (h : HttpHeader) : Bytes := h.name ++ (text ": " ++ (h.value ++ crlf))

def fieldsText (headers : List HttpHeader) : Bytes := (headers.map fieldLine).flatten

theorem Emits.header (name value : Bytes) :
    Emits (·.appendHeader name value) (ValidField ⟨name, value⟩) (fieldLine ⟨name, value⟩) := by
  have hparts := (Emits.append name).bind ((Emits.append (text ": ")).bind
    ((Emits.append value).bind (Emits.append (text "\r\n"))))
  by_cases hvalid : ¬ isValidHeaderName name = true ∨ ¬ isValidHeaderValue value = true
  · refine ⟨fun w w' => ?_, fun w status h => ?_⟩
    · rw [BufferWriter.appendHeader, if_pos hvalid]
      simp only [reduceCtorEq, false_iff]
      rintro ⟨⟨hname, hvalue⟩, -⟩
      exact hvalid.elim (· hname) (· hvalue)
    · rw [BufferWriter.appendHeader, if_pos hvalid] at h
      obtain rfl := Except.error.inj h
      exact refused_statuses.1
  · have hfield : ValidField ⟨name, value⟩ := by
      push Not at hvalid
      exact hvalid
    have heq : (fun w : BufferWriter => w.appendHeader name value) = fun w =>
        w.append name >>= fun w => w.append (text ": ") >>= fun w => w.append value >>= fun w =>
          w.append (text "\r\n") := by
      funext w
      rw [BufferWriter.appendHeader, if_neg hvalid]
    rw [heq]
    exact hparts.of_iff (by simp [hfield]) rfl

/-- A list of fields, one after the other. -/
theorem Emits.headers (headers : List HttpHeader) :
    Emits (fun w => appendHeaders w headers) (∀ h ∈ headers, ValidField h)
      (fieldsText headers) := by
  induction headers with
  | nil => exact Emits.skip.of_iff (by simp) rfl
  | cons h headers ih =>
    exact ((Emits.header h.name h.value).bind ih).of_iff List.forall_mem_cons.symm rfl

/-! ### The parts of the request -/

def optionalField (name value : Bytes) : List HttpHeader :=
  if value.length > 0 then [⟨name, value⟩] else []

def decimalText (n : ℕ) : Bytes := BufferWriter.decimalDigits n (BufferWriter.decimalDivisor n 1)

def framingFields (options : HttpRequestBuildOptions) : List HttpHeader :=
  if hasBody options then
    if options.bodyMode = .chunked then [⟨text "Transfer-Encoding", text "chunked"⟩]
    else [⟨text "Content-Length", decimalText options.body.length⟩]
  else []

def connectionFields : HttpConnectionDirective → List HttpHeader
  | .omit => []
  | .keepAlive => [⟨text "Connection", text "keep-alive"⟩]
  | .close => [⟨text "Connection", text "close"⟩]
  | .upgrade => [⟨text "Connection", text "Upgrade"⟩]

/-- The fields that `Build` writes of its own. -/
def fixedFields (options : HttpRequestBuildOptions) : List HttpHeader :=
  ⟨text "Host", options.host⟩ :: (optionalField (text "User-Agent") options.userAgent ++
    (optionalField (text "Content-Type") options.contentType ++
      (framingFields options ++ connectionFields options.connection)))

/-- A chunk, if there is anything to put into one. -/
def chunkText (body : Bytes) : Bytes :=
  if body.length ≠ 0 then BufferWriter.hexDigits body.length 15 false ++ (crlf ++ (body ++ crlf))
  else []

def chunkedText (body : Bytes) (trailers : List HttpHeader) : Bytes :=
  chunkText body ++ (text "0\r\n" ++ (fieldsText trailers ++ crlf))

def bodyText (options : HttpRequestBuildOptions) : Bytes :=
  if hasBody options then
    if options.bodyMode = .chunked then chunkedText options.body options.trailers
    else options.body
  else []

def requestText (options : HttpRequestBuildOptions) : Bytes :=
  methodText options ++ (text " " ++ (options.path ++ (text " HTTP/1.1\r\n" ++
    (fieldsText (fixedFields options ++ options.extraHeaders) ++ (crlf ++ bodyText options)))))

/-- The trailers are written and acceptable. -/
def ValidBody (options : HttpRequestBuildOptions) : Prop :=
  hasBody options = true → options.bodyMode = .chunked → ∀ h ∈ options.trailers, ValidField h

theorem Emits.optional (name value : Bytes) :
    Emits (fun w => appendOptionalHeader w name value)
      (∀ h ∈ optionalField name value, ValidField h) (fieldsText (optionalField name value)) := by
  unfold appendOptionalHeader optionalField
  by_cases hvalue : value.length > 0
  · simp only [if_pos hvalue]
    exact (Emits.header name value).of_iff (by simp) (by simp [fieldsText])
  · simp only [if_neg hvalue]
    exact Emits.skip.of_iff (by simp) rfl

theorem digit_valid (n : ℕ) : isDigit (UInt8.ofNat (48 + n % 10)) = true := by
  have hlt : n % 10 < 10 := Nat.mod_lt _ (by decide)
  have hnat : (UInt8.ofNat (48 + n % 10)).toNat = 48 + n % 10 := by
    rw [UInt8.toNat_ofNat', Nat.mod_eq_of_lt (by omega)]
  rw [isDigit, hnat, Bool.and_eq_true, decide_eq_true_eq, decide_eq_true_eq]
  omega

theorem decimalDigits_digits (n d : ℕ) : ∀ c ∈ BufferWriter.decimalDigits n d,
    isDigit c = true := by
  induction d using Nat.strong_induction_on with
  | _ d ih =>
    rw [BufferWriter.decimalDigits]
    intro c hc
    rcases List.mem_cons.1 hc with rfl | hc
    · exact digit_valid _
    · split_ifs at hc with hd
      · exact ih (d / 10) (by omega) c hc
      · cases hc

theorem isValidHeaderValue_of_digits (h : ∀ c ∈ t, isDigit c = true) :
    isValidHeaderValue t = true := by
  apply List.all_eq_true.2
  rintro c hc
  have hdigit := h c hc
  simp only [isDigit, Bool.and_eq_true, decide_eq_true_eq] at hdigit
  have hrange : ¬ (c.toNat < 32 ∨ c.toNat = 127) := by omega
  simp only [Bool.or_eq_true, beq_iff_eq, Bool.not_eq_true', Bool.or_eq_false_iff,
    decide_eq_false_iff_not]
  right
  push Not at hrange
  exact ⟨not_lt.2 hrange.1, by simpa using hrange.2⟩

theorem contentLength_valid : isValidHeaderName (text "Content-Length") = true := by
  decide

theorem Emits.framing (options : HttpRequestBuildOptions) :
    Emits (fun w => appendFraming w options)
      (∀ h ∈ framingFields options, ValidField h) (fieldsText (framingFields options)) := by
  unfold appendFraming framingFields
  by_cases hbody : hasBody options = true
  · simp only [if_pos hbody]
    by_cases hmode : options.bodyMode = .chunked
    · simp only [if_pos hmode]
      exact (Emits.header _ _).of_iff (by simp) (by simp [fieldsText])
    · simp only [if_neg hmode]
      have hvalid : ValidField ⟨text "Content-Length", decimalText options.body.length⟩ :=
        ⟨contentLength_valid, isValidHeaderValue_of_digits (decimalDigits_digits _ _)⟩
      refine ((Emits.append (text "Content-Length: ")).bind
        ((Emits.bytes (decimalText options.body.length)).bind
          (Emits.append (text "\r\n")))).of_iff (by simp [hvalid]) ?_
      simp only [fieldsText, List.map_cons, List.map_nil, List.flatten_cons, List.flatten_nil,
        List.append_nil, fieldLine, ← List.append_assoc]
      rfl
  · simp only [if_neg hbody]
    exact Emits.skip.of_iff (by simp) rfl

theorem Emits.connection (directive : HttpConnectionDirective) :
    Emits (fun w => appendConnection w directive)
      (∀ h ∈ connectionFields directive, ValidField h)
      (fieldsText (connectionFields directive)) := by
  have hheader : ∀ value : Bytes, Emits (·.appendHeader (text "Connection") value)
      (∀ h ∈ [(⟨text "Connection", value⟩ : HttpHeader)], ValidField h)
      (fieldsText [⟨text "Connection", value⟩]) :=
    fun value => (Emits.header _ value).of_iff (by simp) (by simp [fieldsText])
  rcases directive with _ | _ | _ | _
  · exact Emits.skip.of_iff (by simp [connectionFields]) rfl
  · exact hheader _
  · exact hheader _
  · exact hheader _

theorem Emits.chunk (body : Bytes) : Emits (fun w => appendChunk w body) True (chunkText body) := by
  unfold appendChunk chunkText
  by_cases hne : body.length ≠ 0
  · simp only [if_pos hne]
    have hall := (Emits.bytes (BufferWriter.hexDigits body.length 15 false)).bind
      ((Emits.append (text "\r\n")).bind ((Emits.append body).bind (Emits.append (text "\r\n"))))
    exact hall.of_iff (by simp) rfl
  · simp only [if_neg hne]
    exact Emits.skip

theorem Emits.chunked (body : Bytes) (trailers : List HttpHeader) :
    Emits (fun w => appendChunkedBody w body trailers) (∀ h ∈ trailers, ValidField h)
      (chunkedText body trailers) := by
  have hall := (Emits.chunk body).bind ((Emits.append (text "0\r\n")).bind
    ((Emits.headers trailers).bind (Emits.append (text "\r\n"))))
  exact hall.of_iff (by simp) rfl

theorem Emits.body (options : HttpRequestBuildOptions) :
    Emits (fun w => appendBody w options) (ValidBody options) (bodyText options) := by
  unfold appendBody bodyText ValidBody
  by_cases hbody : hasBody options = true
  · simp only [if_pos hbody]
    by_cases hmode : options.bodyMode = .chunked
    · simp only [if_pos hmode]
      exact (Emits.chunked _ _).of_iff (by simp [hbody, hmode]) rfl
    · simp only [if_neg hmode]
      by_cases hlen : options.body.length > 0
      · simp only [if_pos hlen]
        exact (Emits.append _).of_iff (by simp [hmode]) rfl
      · simp only [if_neg hlen]
        exact Emits.skip.of_iff (by simp [hmode])
          (List.eq_nil_of_length_eq_zero (by omega)).symm
  · simp only [if_neg hbody]
    exact Emits.skip.of_iff (by simp [hbody]) rfl

/-- **What `Build` writes.** -/
theorem emitRequest_emits (options : HttpRequestBuildOptions) :
    Emits (emitRequest options)
      ((∀ h ∈ fixedFields options ++ options.extraHeaders, ValidField h) ∧ ValidBody options)
      (requestText options) := by
  have hfields := (Emits.header (text "Host") options.host).of_iff
    (Q := ∀ h ∈ [(⟨text "Host", options.host⟩ : HttpHeader)], ValidField h)
    (t := fieldsText [⟨text "Host", options.host⟩]) (by simp) (by simp [fieldsText])
  have hall := (Emits.append (methodText options)).bind ((Emits.append (text " ")).bind
    ((Emits.append options.path).bind ((Emits.append (text " HTTP/1.1\r\n")).bind
      (hfields.bind ((Emits.optional (text "User-Agent") options.userAgent).bind
        ((Emits.optional (text "Content-Type") options.contentType).bind ((Emits.framing options).bind
          ((Emits.connection options.connection).bind ((Emits.headers options.extraHeaders).bind
            ((Emits.append (text "\r\n")).bind (Emits.body options)))))))))))
  refine hall.of_iff ?_ ?_
  · simp only [fixedFields, List.cons_append, List.forall_mem_cons, List.forall_mem_append,
      List.not_mem_nil, IsEmpty.forall_iff, implies_true, true_and, and_assoc]
  · simp only [requestText, fixedFields, fieldsText, List.cons_append, List.map_cons,
      List.map_append, List.map_nil, List.flatten_cons, List.flatten_append, List.flatten_nil,
      List.append_nil, List.append_assoc]
    rfl

/-! ## Lengths are read back -/

theorem decimalDivisor_spec (n d : ℕ) (hd : 0 < d) :
    ∃ k, BufferWriter.decimalDivisor n d = d * 10 ^ k ∧ n < d * 10 ^ (k + 1) := by
  induction h : n / d using Nat.strong_induction_on generalizing d with
  | _ q ih =>
    rw [BufferWriter.decimalDivisor]
    by_cases hbig : 10 ≤ n / d
    · rw [if_pos ⟨hd, hbig⟩]
      obtain ⟨k, hk, hlt⟩ := ih (n / (d * 10)) (by rw [← Nat.div_div_eq_div_mul]; omega) (d * 10)
        (by omega) rfl
      refine ⟨k + 1, ?_, ?_⟩
      · rw [hk, Nat.pow_succ']
        ring
      · calc n < d * 10 * 10 ^ (k + 1) := hlt
          _ = d * 10 ^ (k + 1 + 1) := by ring
    · rw [if_neg fun h => hbig h.2]
      refine ⟨0, by ring, ?_⟩
      have := (Nat.div_lt_iff_lt_mul hd).1 (not_le.1 hbig)
      calc n < 10 * d := this
        _ = d * 10 ^ (0 + 1) := by ring

theorem digit_value (n : ℕ) : (UInt8.ofNat (48 + n % 10)).toNat - 48 = n % 10 := by
  have hlt : n % 10 < 10 := Nat.mod_lt _ (by decide)
  rw [UInt8.toNat_ofNat', Nat.mod_eq_of_lt (by omega)]
  omega

theorem foldl_decimalDigits (n k m : ℕ) :
    (BufferWriter.decimalDigits n (10 ^ k)).foldl (fun a c => a * 10 + (c.toNat - 48)) m =
      m * 10 ^ (k + 1) + n % 10 ^ (k + 1) := by
  induction k generalizing m with
  | zero =>
    rw [BufferWriter.decimalDigits, if_neg (by simp), List.foldl_cons, List.foldl_nil, digit_value]
    simp
  | succ k ih =>
    have hdiv : 10 ^ (k + 1) / 10 = 10 ^ k := by rw [Nat.pow_succ, Nat.mul_div_cancel _ (by decide)]
    have hpos : 10 ^ k ≠ 0 := by positivity
    rw [BufferWriter.decimalDigits, hdiv, if_pos hpos, List.foldl_cons, ih, digit_value,
      Nat.mod_pow_succ (k := k + 1)]
    ring

/-- A decimal length is read back. -/
theorem numeral_decimalText (n : ℕ) :
    numeral (fun c => c.toNat - 48) 10 (decimalText n) = n := by
  obtain ⟨k, hk, hlt⟩ := decimalDivisor_spec n 1 Nat.one_pos
  rw [decimalText, hk, numeral, Nat.one_mul, foldl_decimalDigits, Nat.zero_mul, Nat.zero_add]
  rw [Nat.one_mul] at hlt
  exact Nat.mod_eq_of_lt hlt

theorem decimalText_ne_nil (n : ℕ) : decimalText n ≠ [] := by
  rw [decimalText, BufferWriter.decimalDigits]
  exact List.cons_ne_nil _ _

theorem hexDigit_spec (d : ℕ) (hd : d < 16) : isHexDigit (BufferWriter.hexDigit d) = true ∧
    hexValue (BufferWriter.hexDigit d) = d := by
  have hall : ∀ d : Fin 16, isHexDigit (BufferWriter.hexDigit d) = true ∧
      hexValue (BufferWriter.hexDigit d) = d := by
    decide
  exact hall ⟨d, hd⟩

theorem hexDigits_valid (n : ℕ) : ∀ (k : ℕ) (wrote : Bool),
    BufferWriter.hexDigits n k wrote ≠ [] ∧
      ∀ c ∈ BufferWriter.hexDigits n k wrote, isHexDigit c = true := by
  intro k
  induction k with
  | zero =>
    intro wrote
    refine ⟨List.cons_ne_nil _ _, fun c hc => ?_⟩
    obtain rfl := List.mem_singleton.1 hc
    exact (hexDigit_spec _ (Nat.mod_lt _ (by decide))).1
  | succ k ih =>
    intro wrote
    rw [BufferWriter.hexDigits]
    split_ifs
    · refine ⟨List.cons_ne_nil _ _, fun c hc => ?_⟩
      rcases List.mem_cons.1 hc with rfl | hc
      · exact (hexDigit_spec _ (Nat.mod_lt _ (by decide))).1
      · exact (ih true).2 c hc
    · exact ih wrote

theorem foldl_hexDigits (n k m : ℕ) (wrote : Bool) (hm : wrote = false → m = 0) :
    (BufferWriter.hexDigits n k wrote).foldl (fun a c => a * 16 + hexValue c) m =
      m * 16 ^ (k + 1) + n % 16 ^ (k + 1) := by
  induction k generalizing m wrote with
  | zero =>
    simp [BufferWriter.hexDigits, (hexDigit_spec (n % 16) (Nat.mod_lt _ (by decide))).2]
  | succ k ih =>
    have hdigit := (hexDigit_spec (n / 16 ^ (k + 1) % 16) (Nat.mod_lt _ (by decide))).2
    rw [BufferWriter.hexDigits, Nat.mod_pow_succ (k := k + 1)]
    by_cases hw : n / 16 ^ (k + 1) % 16 ≠ 0 ∨ wrote = true
    · simp only [if_pos hw, List.foldl_cons]
      rw [ih _ true nofun, hdigit]
      ring
    · -- a leading zero: nothing has been read so far
      simp only [if_neg hw]
      push Not at hw
      rw [ih m wrote hm, hw.1, hm (by simpa using hw.2)]
      ring

theorem not_whitespace_of_hexDigit {c : UInt8} (h : isHexDigit c = true) :
    isOptionalWhitespace c = false ∧ (c.toNat != 59) = true ∧ c ≠ 13 := by
  simp only [isHexDigit, isDigit, Bool.or_eq_true, Bool.and_eq_true, decide_eq_true_eq] at h
  simp only [isOptionalWhitespace, Bool.or_eq_false_iff, beq_eq_false_iff_ne, bne_iff_ne]
  refine ⟨by omega, by omega, ?_⟩
  rintro rfl
  simp at h

/-- A text without white space is not trimmed. -/
theorem trimOptionalWhitespace_eq_self
    (h : ∀ c ∈ t, isOptionalWhitespace c = false) : trimOptionalWhitespace t = t := by
  rw [trimOptionalWhitespace, List.dropWhile_eq_self_iff.2, List.rdropWhile_eq_self_iff.2]
  · intro hne
    simp [h _ (List.getLast_mem hne)]
  · intro hlen
    simp [h _ (List.getElem_mem hlen)]

theorem chunkSize_hexDigits {n : ℕ} (hn : n < 16 ^ 16) :
    chunkSize (BufferWriter.hexDigits n 15 false) = some n := by
  obtain ⟨hne, hvalid⟩ := hexDigits_valid n 15 false
  have htake : (BufferWriter.hexDigits n 15 false).takeWhile (·.toNat != 59) =
      BufferWriter.hexDigits n 15 false :=
    List.takeWhile_eq_self_iff.2 fun c hc => (not_whitespace_of_hexDigit (hvalid c hc)).2.1
  have htrim : trimOptionalWhitespace (BufferWriter.hexDigits n 15 false) =
      BufferWriter.hexDigits n 15 false :=
    trimOptionalWhitespace_eq_self fun c hc => (not_whitespace_of_hexDigit (hvalid c hc)).1
  simp only [chunkSize, htake, htrim]
  rw [if_pos ⟨hne, List.all_eq_true.2 hvalid⟩, numeral, foldl_hexDigits n 15 0 false fun _ => rfl,
    Nat.zero_mul, Nat.zero_add, Nat.mod_eq_of_lt hn]

/-! ## The request is read as it was written -/

theorem isValidHeaderNameByte_eq (c : UInt8) : isValidHeaderNameByte c = isTchar c := by
  have hall : ∀ n : Fin 256, isValidHeaderNameByte (UInt8.ofFin n) = isTchar (UInt8.ofFin n) := by
    decide +kernel
  exact hall c.toFin

example : isValidHeaderNameByte 58 = false := by decide +kernel

theorem isValidHeaderName_eq (t : Bytes) : isValidHeaderName t = isValidToken t := by
  rw [isValidHeaderName, isValidToken, funext isValidHeaderNameByte_eq]

theorem not_mem_of_isValidHeaderName (h : isValidHeaderName t = true) :
    (13 : UInt8) ∉ t ∧ (10 : UInt8) ∉ t ∧ (32 : UInt8) ∉ t ∧ (58 : UInt8) ∉ t := by
  simp only [isValidHeaderName, Bool.and_eq_true, List.all_eq_true] at h
  refine ⟨fun hc => ?_, fun hc => ?_, fun hc => ?_, fun hc => ?_⟩
  · exact absurd (h.2 13 hc) (by decide)
  · exact absurd (h.2 10 hc) (by decide)
  · exact absurd (h.2 32 hc) (by decide)
  · exact absurd (h.2 58 hc) (by decide)

theorem not_mem_of_isValidHeaderValue (h : isValidHeaderValue t = true) :
    (13 : UInt8) ∉ t ∧ (10 : UInt8) ∉ t := by
  simp only [isValidHeaderValue, List.all_eq_true] at h
  refine ⟨fun hc => ?_, fun hc => ?_⟩
  · exact absurd (h 13 hc) (by decide)
  · exact absurd (h 10 hc) (by decide)

theorem not_mem_of_isValidRequestTarget (h : isValidRequestTarget t = true) :
    (13 : UInt8) ∉ t ∧ (10 : UInt8) ∉ t ∧ (32 : UInt8) ∉ t := by
  simp only [isValidRequestTarget, Bool.and_eq_true, List.all_eq_true] at h
  refine ⟨fun hc => ?_, fun hc => ?_, fun hc => ?_⟩
  · exact absurd (h.2 13 hc) (by decide)
  · exact absurd (h.2 10 hc) (by decide)
  · exact absurd (h.2 32 hc) (by decide)

/-- A field as it is read: the white space around its value is gone. -/
def trimmedField (h : HttpHeader) : HttpHeader := ⟨h.name, trimOptionalWhitespace h.value⟩

def fieldLineText (h : HttpHeader) : Bytes := h.name ++ 58 :: 32 :: h.value

theorem fieldLine_eq (h : HttpHeader) : fieldLine h = fieldLineText h ++ crlf := by
  rw [fieldLine, fieldLineText, List.append_assoc]
  rfl

theorem fieldsText_eq (headers : List HttpHeader) :
    fieldsText headers = (headers.map fun h => fieldLineText h ++ crlf).flatten := by
  rw [fieldsText, funext fieldLine_eq]

/-- Nothing is trimmed where there is no white space at the ends. -/
theorem trimOptionalWhitespace_eq_self_iff (hfirst : t.head?.any isOptionalWhitespace = false) :
    trimOptionalWhitespace t = t ↔ t.getLast?.any isOptionalWhitespace = false := by
  have hdrop : t.dropWhile isOptionalWhitespace = t := by
    cases t with
    | nil => rfl
    | cons c t => exact List.dropWhile_cons_of_neg (by simpa using hfirst)
  rw [trimOptionalWhitespace, hdrop, List.rdropWhile_eq_self_iff]
  cases hlast : t.getLast? with
  | none =>
    rw [List.getLast?_eq_none_iff.1 hlast]
    simp
  | some c =>
    obtain ⟨front, rfl⟩ := List.getLast?_eq_some_iff.1 hlast
    simp

theorem trimOptionalWhitespace_space (t : Bytes) :
    trimOptionalWhitespace (32 :: t) = trimOptionalWhitespace t := by
  rw [trimOptionalWhitespace, List.dropWhile_cons_of_pos (by decide)]
  rfl

theorem parseFieldLine_fieldLineText {h : HttpHeader} (hh : ValidField h) :
    IsLine (fieldLineText h) ∧ fieldLineText h ≠ [] ∧
      RequestGrammar.parseFieldLine (fieldLineText h) = some (trimmedField h) := by
  obtain ⟨hname, hvalue⟩ := hh
  obtain ⟨hn13, -, -, hn58⟩ := not_mem_of_isValidHeaderName hname
  obtain ⟨hv13, -⟩ := not_mem_of_isValidHeaderValue hvalue
  refine ⟨isLine_of_not_mem ?_, ?_, ?_⟩
  · rw [fieldLineText, List.mem_append, List.mem_cons, List.mem_cons]
    rintro (h | h | h | h)
    · exact hn13 h
    · exact absurd h (by decide)
    · exact absurd h (by decide)
    · exact hv13 h
  · exact List.append_ne_nil_of_right_ne_nil _ (List.cons_ne_nil _ _)
  · have hspace : isValidHeaderValue (32 :: h.value) = true := by
      rw [isValidHeaderValue, List.all_cons]
      exact hvalue
    rw [fieldLineText, parseFieldLine_spec hn58, ← isValidHeaderName_eq, hname, hspace,
      trimOptionalWhitespace_space]
    rfl

/-- Fields are read as they were written. -/
theorem parseFields_fieldsText {headers : List HttpHeader} (h : ∀ a ∈ headers, ValidField a)
    (rest : Bytes) : RequestGrammar.parseFields (fieldsText headers ++ (crlf ++ rest)) =
      some (headers.map trimmedField, rest) := by
  rw [fieldsText_eq]
  exact parseFields_lines fieldLineText trimmedField rest headers fun a ha =>
    parseFieldLine_fieldLineText (h a ha)

theorem parseChunkedBody_chunkedText {body : Bytes} {trailers : List HttpHeader}
    (hlen : body.length < 16 ^ 16) (h : ∀ a ∈ trailers, ValidField a) (rest : Bytes) :
    parseChunkedBody (chunkedText body trailers ++ rest) =
      some (body, trailers.map trimmedField, rest) := by
  have hlast : parseChunkedBody (text "0\r\n" ++ (fieldsText trailers ++ crlf) ++ rest) =
      some ([], trailers.map trimmedField, rest) := by
    have hline : IsLine (text "0") := isLine_of_not_mem (by decide)
    have hsize : chunkSize (text "0") = some 0 := by decide
    have := parseChunkedBody_last hline hsize (fieldsText trailers ++ (crlf ++ rest))
    rw [parseFields_fieldsText h] at this
    rw [List.append_assoc, List.append_assoc]
    exact this
  by_cases hne : body.length ≠ 0
  · have hline : IsLine (BufferWriter.hexDigits body.length 15 false) :=
      isLine_of_not_mem fun hc =>
        (not_whitespace_of_hexDigit ((hexDigits_valid body.length 15 false).2 _ hc)).2.2 rfl
    have := parseChunkedBody_chunk hline (chunkSize_hexDigits hlen)
      (fun h => hne (congrArg List.length h))
      (text "0\r\n" ++ (fieldsText trailers ++ crlf) ++ rest)
    rw [hlast] at this
    rw [chunkedText, chunkText, if_pos hne]
    simpa only [List.append_assoc, Option.map_some, List.append_nil] using this
  · obtain rfl : body = [] := List.eq_nil_of_length_eq_zero (not_not.1 hne)
    rw [chunkedText, chunkText, if_neg hne]
    exact hlast

/-! ### The fields that decide -/

theorem fieldValues_append (a b : List HttpHeader) (name : Bytes) :
    fieldValues (a ++ b) name = fieldValues a name ++ fieldValues b name := by
  simp only [fieldValues, List.filter_append, List.map_append]

theorem fieldValues_map_trimmedField (headers : List HttpHeader) (name : Bytes) :
    fieldValues (headers.map trimmedField) name =
      (fieldValues headers name).map trimOptionalWhitespace := by
  simp only [fieldValues, List.filter_map, List.map_map]
  rfl

theorem fieldValues_eq_nil {headers : List HttpHeader}
    (h : ∀ a ∈ headers, textEqualsIgnoreCase a.name name = false) :
    fieldValues headers name = [] := by
  rw [fieldValues, List.filter_eq_nil_iff.2 fun a ha => by simp [h a ha]]
  rfl

theorem fieldValues_fixedFields (options : HttpRequestBuildOptions)
    (hua : textEqualsIgnoreCase (text "User-Agent") name = false)
    (hct : textEqualsIgnoreCase (text "Content-Type") name = false)
    (hconnection : textEqualsIgnoreCase (text "Connection") name = false) :
    fieldValues (fixedFields options) name =
      fieldValues [⟨text "Host", options.host⟩] name ++
        fieldValues (framingFields options) name := by
  have hoptional : ∀ {n v : Bytes}, textEqualsIgnoreCase n name = false →
      fieldValues (optionalField n v) name = [] := by
    intro n v hn
    apply fieldValues_eq_nil
    rw [optionalField]
    split_ifs <;> simp [hn]
  have hdirective : fieldValues (connectionFields options.connection) name = [] := by
    apply fieldValues_eq_nil
    rcases options.connection with _ | _ | _ | _ <;> simp [connectionFields, hconnection]
  rw [fixedFields, ← List.singleton_append, fieldValues_append, fieldValues_append,
    fieldValues_append, fieldValues_append, hoptional hua, hoptional hct, hdirective,
    List.append_nil, List.nil_append, List.nil_append]

theorem validateExtraHeader_ok {header : HttpHeader}
    (h : validateExtraHeader options header = .ok ()) :
    textEqualsIgnoreCase header.name (text "Transfer-Encoding") = false ∧
      textEqualsIgnoreCase header.name (text "Content-Length") = false ∧
      textEqualsIgnoreCase header.name (text "Host") = false := by
  unfold validateExtraHeader at h
  split_ifs at h with hte _ _ _ hrest
  push Not at hrest
  exact ⟨by simpa using hte, by simpa using hrest.2.1, by simpa using hrest.1⟩

/-- What the options of a request that is written satisfy. -/
structure Accepted (options : HttpRequestBuildOptions) : Prop where
  path : isValidRequestTarget options.path = true
  method : isValidHeaderName (methodText options) = true
  fields : ∀ h ∈ fixedFields options ++ options.extraHeaders, ValidField h
  extraHeaders : ∀ h ∈ options.extraHeaders, validateExtraHeader options h = .ok ()
  chunked : options.trailers ≠ [] → requestEmitsChunkedFraming options = true
  trailers : ∀ h ∈ options.trailers, validateTrailer h = .ok ()

/-- The values of a framing field or of Host in an accepted request. -/
theorem Accepted.fieldValues_eq (h : Accepted options)
    (hname : name = text "Transfer-Encoding" ∨ name = text "Content-Length" ∨
      name = text "Host") :
    fieldValues (fixedFields options ++ options.extraHeaders) name =
      fieldValues [⟨text "Host", options.host⟩] name ++
        fieldValues (framingFields options) name := by
  have hextra : fieldValues options.extraHeaders name = [] := by
    apply fieldValues_eq_nil
    intro a ha
    obtain ⟨hte, hcl, hhost⟩ := validateExtraHeader_ok (h.extraHeaders a ha)
    rcases hname with rfl | rfl | rfl
    · exact hte
    · exact hcl
    · exact hhost
  rw [fieldValues_append, hextra, List.append_nil]
  rcases hname with rfl | rfl | rfl
  · exact fieldValues_fixedFields options (by decide) (by decide) (by decide)
  · exact fieldValues_fixedFields options (by decide) (by decide) (by decide)
  · exact fieldValues_fixedFields options (by decide) (by decide) (by decide)

theorem fieldValues_single (n v name : Bytes) :
    fieldValues [⟨n, v⟩] name = if textEqualsIgnoreCase n name then [v] else [] := by
  simp only [fieldValues, List.filter_cons, List.filter_nil]
  split_ifs <;> rfl

/-- The framing fields of an accepted request. -/
theorem Accepted.framing (h : Accepted options) :
    fieldValues (fixedFields options ++ options.extraHeaders) (text "Transfer-Encoding") =
        (if hasBody options ∧ options.bodyMode = .chunked then [text "chunked"] else []) ∧
      fieldValues (fixedFields options ++ options.extraHeaders) (text "Content-Length") =
        (if hasBody options ∧ options.bodyMode ≠ .chunked then [decimalText options.body.length]
          else []) := by
  rw [h.fieldValues_eq (.inl rfl), h.fieldValues_eq (.inr (.inl rfl)), fieldValues_single,
    fieldValues_single, framingFields]
  have h₁ : textEqualsIgnoreCase (text "Host") (text "Transfer-Encoding") = false := by decide
  have h₂ : textEqualsIgnoreCase (text "Host") (text "Content-Length") = false := by decide
  have h₃ : textEqualsIgnoreCase (text "Transfer-Encoding") (text "Content-Length") = false := by
    decide
  have h₄ : textEqualsIgnoreCase (text "Content-Length") (text "Transfer-Encoding") = false := by
    decide
  have h₅ : textEqualsIgnoreCase (text "Transfer-Encoding") (text "Transfer-Encoding") = true := by
    decide
  have h₆ : textEqualsIgnoreCase (text "Content-Length") (text "Content-Length") = true := by
    decide
  by_cases hbody : hasBody options = true
  · by_cases hmode : options.bodyMode = .chunked
    · simp [hbody, hmode, h₁, h₂, h₃, h₅, fieldValues_single]
    · simp [hbody, hmode, h₁, h₂, h₄, h₆, fieldValues_single]
  · simp [hbody, h₁, h₂, fieldValues]

theorem Accepted.host (h : Accepted options) :
    fieldValues (fixedFields options ++ options.extraHeaders) (text "Host") = [options.host] := by
  have hself : textEqualsIgnoreCase (text "Host") (text "Host") = true := by decide
  have hframing : fieldValues (framingFields options) (text "Host") = [] := by
    apply fieldValues_eq_nil
    have hte : textEqualsIgnoreCase (text "Transfer-Encoding") (text "Host") = false := by decide
    have hcl : textEqualsIgnoreCase (text "Content-Length") (text "Host") = false := by decide
    rw [framingFields]
    split_ifs <;> simp [hte, hcl]
  rw [h.fieldValues_eq (.inr (.inr rfl)), hframing, fieldValues_single, if_pos hself,
    List.append_nil]

theorem requestEmitsChunkedFraming_iff :
    requestEmitsChunkedFraming options = true ↔
      hasBody options = true ∧ options.bodyMode = .chunked := by
  simp only [requestEmitsChunkedFraming, hasBody, Bool.and_eq_true, beq_iff_eq, Bool.or_eq_true,
    bne_iff_ne, decide_eq_true_eq, Nat.pos_iff_ne_zero]
  exact and_comm

/-- The body of an accepted request is read as it was written. -/
theorem Accepted.parseMessageBody (h : Accepted options)
    (hlen : options.body.length < 16 ^ 16) (rest : Bytes) :
    RequestGrammar.parseMessageBody
        ((fixedFields options ++ options.extraHeaders).map trimmedField)
        (bodyText options ++ rest) =
      some (options.body, options.trailers.map trimmedField, rest) := by
  obtain ⟨hte, hcl⟩ := h.framing
  have hnotrailers : ¬ (hasBody options = true ∧ options.bodyMode = .chunked) →
      options.trailers = [] := by
    intro hnot
    by_contra htrailers
    exact hnot (requestEmitsChunkedFraming_iff.1 (h.chunked htrailers))
  rw [RequestGrammar.parseMessageBody, fieldValues_map_trimmedField, fieldValues_map_trimmedField,
    hte, hcl, bodyText]
  by_cases hbody : hasBody options = true
  · by_cases hmode : options.bodyMode = .chunked
    · have hcodings : transferCodings
          ((fixedFields options ++ options.extraHeaders).map trimmedField) = [text "chunked"] := by
        rw [transferCodings, fieldValues_map_trimmedField, hte, if_pos ⟨hbody, hmode⟩]
        decide
      have hvalid : ∀ a ∈ options.trailers, ValidField a := fun a ha =>
        (validateTrailer_eq_ok (h.trailers a ha)).1
      have hchunked := parseChunkedBody_chunkedText hlen hvalid rest
      have hlast : [text "chunked"].getLast?.any isChunked = true := by decide
      simp only [hbody, hmode, hcodings, hlast, and_self, if_true, ne_eq, not_true_eq_false,
        and_false, if_false, List.map_nil, List.map_cons, reduceCtorEq, not_false_eq_true]
      exact hchunked
    · have hdigits := decimalDigits_digits options.body.length
        (BufferWriter.decimalDivisor options.body.length 1)
      have htrim : trimOptionalWhitespace (decimalText options.body.length) =
          decimalText options.body.length := by
        apply trimOptionalWhitespace_eq_self
        rintro c hc
        exact (not_whitespace_of_hexDigit (by simp [isHexDigit, hdigits c hc])).1
      have hall : (decimalText options.body.length).all isDigit = true :=
        List.all_eq_true.2 hdigits
      rw [hnotrailers fun hboth => hmode hboth.2]
      simp only [hbody, hmode, and_false, if_false, ne_eq, not_false_eq_true, and_self, if_true,
        List.map_nil, not_true_eq_false, List.map_cons, htrim, numeral_decimalText, hall,
        decimalText_ne_nil, List.length_append, Nat.le_add_right, List.take_left, List.drop_left]
  · have hempty : options.body = [] := by
      apply List.eq_nil_of_length_eq_zero
      simp only [hasBody, Bool.or_eq_true, decide_eq_true_eq] at hbody
      omega
    rw [hnotrailers fun hboth => hbody hboth.1, hempty]
    simp [hbody]

def requestMessage (options : HttpRequestBuildOptions) : RequestMessage where
  method := methodText options
  target := options.path
  version := text "HTTP/1.1"
  fields := (fixedFields options ++ options.extraHeaders).map trimmedField
  body := options.body
  trailers := options.trailers.map trimmedField

/-- **The text of an accepted request is read as the request.** -/
theorem Accepted.parseRequest (h : Accepted options)
    (hlen : options.body.length < 16 ^ 16) (validTarget : Bytes → Bool) (rest : Bytes) :
    RequestGrammar.parseRequest validTarget (requestText options ++ rest) =
      if validTarget options.path then some (requestMessage options, rest) else none := by
  obtain ⟨hm13, -, hm32, -⟩ := not_mem_of_isValidHeaderName h.method
  obtain ⟨hp13, -, hp32⟩ := not_mem_of_isValidRequestTarget h.path
  have hline : IsLine (methodText options ++ 32 :: (options.path ++ 32 :: text "HTTP/1.1")) := by
    apply isLine_of_not_mem
    simp only [List.mem_append, List.mem_cons, not_or]
    exact ⟨hm13, by decide, hp13, by decide, by decide⟩
  have htext : requestText options ++ rest =
      methodText options ++ 32 :: (options.path ++ 32 :: text "HTTP/1.1") ++ (crlf ++
        (fieldsText (fixedFields options ++ options.extraHeaders) ++
          (crlf ++ (bodyText options ++ rest)))) := by
    have hversion : text " HTTP/1.1\r\n" = 32 :: (text "HTTP/1.1" ++ crlf) := by decide
    have hspace : text " " = [32] := by decide
    rw [requestText, hversion, hspace]
    simp only [List.append_assoc, List.cons_append, List.nil_append]
  have hversion : isHttpVersion (text "HTTP/1.1") = true := by decide
  rw [htext, RequestGrammar.parseRequest, splitLine_line hline]
  simp only [Option.bind_eq_bind, Option.bind_some]
  rw [parseRequestLine_spec hm32 hp32, ← isValidHeaderName_eq, h.method, hversion, Bool.true_and,
    Bool.and_true]
  by_cases htarget : validTarget options.path = true
  · simp only [if_pos htarget, Option.bind_some]
    rw [parseFields_fieldsText h.fields, Option.bind_some, h.parseMessageBody hlen rest]
    rfl
  · simp only [if_neg htarget, Option.bind_none]

/-! ## `Build` -/

theorem forM_refused {α : Type} {f : α → Except NTSTATUS Unit} {l : List α}
    (hf : ∀ a status, f a = .error status → Refused status) (h : l.forM f = .error status) :
    Refused status := by
  induction l with
  | nil => cases h
  | cons a l ih =>
    rw [forM_cons_eq] at h
    cases ha : f a with
    | error status' =>
      rw [ha] at h
      obtain rfl := Except.error.inj h
      exact hf a _ ha
    | ok u =>
      rw [ha] at h
      exact ih h

theorem validateExtraHeader_refused (options : HttpRequestBuildOptions) (header : HttpHeader)
    (status : NTSTATUS) (h : validateExtraHeader options header = .error status) :
    Refused status := by
  unfold validateExtraHeader at h
  split_ifs at h <;> obtain rfl := Except.error.inj h
  · exact refused_statuses.2.1
  · exact refused_statuses.2.1
  · exact refused_statuses.2.1
  · exact refused_statuses.2.1
  · exact refused_statuses.1

theorem validateTrailer_refused (trailer : HttpHeader) (status : NTSTATUS)
    (h : validateTrailer trailer = .error status) : Refused status := by
  unfold validateTrailer at h
  split_ifs at h <;> obtain rfl := Except.error.inj h
  · exact refused_statuses.1
  · exact refused_statuses.2.1

theorem validateTrailers_eq_ok :
    validateTrailers options = .ok () ↔
      (options.trailers ≠ [] → requestEmitsChunkedFraming options = true) ∧
        ∀ h ∈ options.trailers, validateTrailer h = .ok () := by
  unfold validateTrailers
  by_cases hnil : options.trailers.length = 0
  · rw [if_pos hnil, List.eq_nil_of_length_eq_zero hnil]
    simp
  · have hne : options.trailers ≠ [] := fun h => hnil (congrArg List.length h)
    rw [if_neg hnil]
    by_cases hchunked : requestEmitsChunkedFraming options = true
    · rw [if_neg (not_not.2 hchunked), forM_eq_ok]
      simp [hchunked]
    · rw [if_pos hchunked]
      simp [hchunked, hne]

theorem checkOptions_eq_ok : checkOptions options = .ok () ↔
    (isValidRequestTarget options.path = true ∧ isValidHeaderValue options.host = true) ∧
      (∀ h ∈ options.extraHeaders, validateExtraHeader options h = .ok ()) ∧
      ((options.trailers ≠ [] → requestEmitsChunkedFraming options = true) ∧
        ∀ h ∈ options.trailers, validateTrailer h = .ok ()) ∧
      isValidHeaderName (methodText options) = true := by
  rw [← forM_eq_ok, ← validateTrailers_eq_ok]
  unfold checkOptions validateExtraHeaders
  by_cases htexts : ¬ isValidRequestTarget options.path = true ∨
      ¬ isValidHeaderValue options.host = true
  · rw [if_pos htexts]
    refine ⟨nofun, fun h => ?_⟩
    exact htexts.elim (absurd h.1.1) (absurd h.1.2)
  · rw [if_neg htexts]
    push Not at htexts
    rw [and_iff_right htexts]
    cases options.extraHeaders.forM (validateExtraHeader options) with
    | error status => exact ⟨nofun, fun h => absurd h.1 nofun⟩
    | ok u =>
      cases validateTrailers options with
      | error status => exact ⟨nofun, fun h => absurd h.2.1 nofun⟩
      | ok u =>
        show (if _ then _ else _) = _ ↔ _
        split_ifs with hmethod
        · exact ⟨fun _ => ⟨rfl, rfl, hmethod⟩, fun _ => rfl⟩
        · exact ⟨nofun, fun h => absurd h.2.2 hmethod⟩

theorem validateTrailers_refused
    (h : validateTrailers options = .error status) : Refused status := by
  unfold validateTrailers at h
  split_ifs at h
  · exact forM_refused validateTrailer_refused h
  · obtain rfl := Except.error.inj h
    exact refused_statuses.2.1

theorem checkOptions_refused (h : checkOptions options = .error status) : Refused status := by
  unfold checkOptions at h
  split at h
  · obtain rfl := Except.error.inj h
    exact refused_statuses.1
  · cases hextra : validateExtraHeaders options with
    | error status' =>
      rw [hextra] at h
      obtain rfl := Except.error.inj h
      exact forM_refused (validateExtraHeader_refused options) hextra
    | ok u =>
      cases htrailers : validateTrailers options with
      | error status' =>
        rw [hextra, htrailers] at h
        obtain rfl := Except.error.inj h
        exact validateTrailers_refused htrailers
      | ok u' =>
        rw [hextra, htrailers] at h
        replace h : (if ¬ isValidHeaderName (methodText options) = true then
          .error statusInvalidParameter else .ok ()) = (.error status : Except NTSTATUS Unit) := h
        split_ifs at h
        obtain rfl := Except.error.inj h
        exact refused_statuses.1

theorem requestText_ne_nil (options : HttpRequestBuildOptions) : requestText options ≠ [] := by
  intro h
  have hspace := (List.append_eq_nil_iff.1 (List.append_eq_nil_iff.1 h).2).1
  exact absurd hspace (by decide)

theorem Accepted.validBody (h : Accepted options) :
    ValidBody options := by
  intro _ _ trailer htrailer
  exact (validateTrailer_eq_ok (h.trailers trailer htrailer)).1

theorem build_of_checked (hcheck : checkOptions options = .ok ()) (capacity : ℕ) :
    build options capacity =
      match emitRequest options { capacity := capacity } with
      | .error status => { status := status }
      | .ok writer =>
        { status :=
            if writer.required ≤ writer.capacity then statusSuccess else statusBufferTooSmall
          bytesWritten := writer.required
          destination := writer.written } := by
  rw [build, hcheck]
  rfl

/-- `Build` writes the text of an accepted request. -/
theorem Accepted.build (h : Accepted options)
    (hlen : (requestText options).length ≤ maxSizeT) (capacity : ℕ) :
    build options capacity =
      ⟨if (requestText options).length ≤ capacity then statusSuccess else statusBufferTooSmall,
        (requestText options).length, (requestText options).take capacity⟩ := by
  have hhost : isValidHeaderValue options.host = true :=
    (h.fields ⟨text "Host", options.host⟩ (List.mem_append_left _ List.mem_cons_self)).2
  have hcheck : checkOptions options = .ok () :=
    checkOptions_eq_ok.2 ⟨⟨h.path, hhost⟩, h.extraHeaders, ⟨h.chunked, h.trailers⟩, h.method⟩
  have hemit : emitRequest options { capacity := capacity } =
      .ok (BufferWriter.put { capacity := capacity } (requestText options)) :=
    ((emitRequest_emits options).ok _ _).2 ⟨⟨h.fields, h.validBody⟩,
      BufferWriter.append_eq_ok.2 ⟨.inr (by rwa [Nat.zero_add]), rfl⟩⟩
  rw [build_of_checked hcheck, hemit]
  simp only [BufferWriter.put, Nat.zero_add, Nat.sub_zero, List.nil_append]

/-- `Build` writes the text of an accepted request, or refuses the request for every
destination. -/
theorem build_cases (options : HttpRequestBuildOptions) :
    (Accepted options ∧ (requestText options).length ≤ maxSizeT ∧ ∀ capacity,
      build options capacity =
        ⟨if (requestText options).length ≤ capacity then statusSuccess else statusBufferTooSmall,
          (requestText options).length, (requestText options).take capacity⟩) ∨
    ∀ capacity, Refused (build options capacity).status ∧ (build options capacity).bytesWritten = 0 := by
  have hemits := emitRequest_emits options
  cases hcheck : checkOptions options with
  | error status =>
    right
    intro capacity
    rw [build, hcheck]
    exact ⟨checkOptions_refused hcheck, rfl⟩
  | ok u =>
    obtain ⟨⟨hpath, -⟩, hextra, ⟨hchunked, htrailers⟩, hmethod⟩ := checkOptions_eq_ok.1 hcheck
    by_cases hok : (∀ h ∈ fixedFields options ++ options.extraHeaders, ValidField h) ∧
        ValidBody options ∧ (requestText options).length ≤ maxSizeT
    · left
      obtain ⟨hfields, hbody, hlen⟩ := hok
      have haccepted : Accepted options :=
        ⟨hpath, hmethod, hfields, hextra, hchunked, htrailers⟩
      exact ⟨haccepted, hlen, haccepted.build hlen⟩
    · right
      intro capacity
      rw [build_of_checked hcheck]
      cases hemit : emitRequest options { capacity := capacity } with
      | error status => exact ⟨hemits.error _ _ hemit, rfl⟩
      | ok writer =>
        obtain ⟨⟨hfields, hbody⟩, happend⟩ := (hemits.ok _ _).1 hemit
        obtain ⟨hempty | hlen, -⟩ := BufferWriter.append_eq_ok.1 happend
        · exact absurd hempty (requestText_ne_nil options)
        · exact absurd ⟨hfields, hbody, by rwa [Nat.zero_add] at hlen⟩ hok

theorem body_length_le (options : HttpRequestBuildOptions) :
    options.body.length ≤ (requestText options).length := by
  have hbody : options.body.length ≤ (bodyText options).length := by
    rw [bodyText, chunkedText, chunkText]
    split_ifs with h
    · simp only [List.length_append]
      omega
    · omega
    · exact le_rfl
    · simp only [hasBody, Bool.or_eq_true, decide_eq_true_eq] at h
      omega
  simp only [requestText, List.length_append]
  omega

/-- What `Build` has written when it succeeds. -/
theorem build_success {capacity : ℕ} (h : (build options capacity).status = statusSuccess) :
    Accepted options ∧ options.body.length < 16 ^ 16 ∧
      (build options capacity).destination = requestText options ∧
      (build options capacity).bytesWritten = (requestText options).length := by
  rcases build_cases options with ⟨haccepted, hlen, hbuild⟩ | hrefused
  · rw [hbuild] at h ⊢
    have hfits : (requestText options).length ≤ capacity := by
      by_contra hnot
      simp only [if_neg hnot] at h
      exact absurd h (by decide)
    refine ⟨haccepted, ?_, List.take_of_length_le hfits, rfl⟩
    exact lt_of_le_of_lt ((body_length_le options).trans hlen) (by decide)
  · have := (hrefused capacity).1.1
    rw [h] at this
    cases this

def NoLineEnd (t : Bytes) : Prop := (13 : UInt8) ∉ t ∧ (10 : UInt8) ∉ t

theorem Accepted.noLineEnd (h : Accepted options) :
    NoLineEnd (methodText options) ∧ NoLineEnd options.path ∧
      ∀ field ∈ fixedFields options ++ options.extraHeaders ++ options.trailers,
        NoLineEnd field.name ∧ NoLineEnd field.value := by
  obtain ⟨hm13, hm10, -, -⟩ := not_mem_of_isValidHeaderName h.method
  obtain ⟨hp13, hp10, -⟩ := not_mem_of_isValidRequestTarget h.path
  have hvalid : ∀ field, ValidField field → NoLineEnd field.name ∧ NoLineEnd field.value := by
    rintro field ⟨hname, hvalue⟩
    obtain ⟨hn13, hn10, -, -⟩ := not_mem_of_isValidHeaderName hname
    exact ⟨⟨hn13, hn10⟩, not_mem_of_isValidHeaderValue hvalue⟩
  refine ⟨⟨hm13, hm10⟩, ⟨hp13, hp10⟩, fun field hfield => ?_⟩
  rcases List.mem_append.1 hfield with hfield | hfield
  · exact hvalid field (h.fields field hfield)
  · exact hvalid field (validateTrailer_eq_ok (h.trailers field hfield)).1

/-- **Requests are unambiguous.**  What `Build` writes is read as the request of the options, with
nothing left over: its fields are those of the request in order, with one Host and at most one
framing field; none of its texts brings a line end with it.  Two requests with the same octets are
the same, and the length that is reported does not depend on the destination. -/
theorem build_unambiguous :
    (∀ options capacity rest, (build options capacity).status = statusSuccess →
      parseRequest isTargetText ((build options capacity).destination ++ rest) =
        some (requestMessage options, rest) ∧
      (build options capacity).destination.length = (build options capacity).bytesWritten ∧
      fieldValues (requestMessage options).fields (text "Host") =
        [trimOptionalWhitespace options.host] ∧
      (fieldValues (requestMessage options).fields (text "Content-Length")).length +
        (fieldValues (requestMessage options).fields (text "Transfer-Encoding")).length ≤ 1 ∧
      NoLineEnd (methodText options) ∧ NoLineEnd options.path ∧
      ∀ field ∈ fixedFields options ++ options.extraHeaders ++ options.trailers,
        NoLineEnd field.name ∧ NoLineEnd field.value) ∧
    (∀ options options' capacity capacity', (build options capacity).status = statusSuccess →
      (build options' capacity').status = statusSuccess →
      (build options capacity).destination = (build options' capacity').destination →
      requestMessage options = requestMessage options') ∧
    ∀ options capacity capacity',
      (build options capacity).bytesWritten = (build options capacity').bytesWritten ∧
      ((build options capacity).status = statusBufferTooSmall →
        (build options (build options capacity).bytesWritten).status = statusSuccess) := by
  have hread : ∀ options capacity rest, (build options capacity).status = statusSuccess →
      parseRequest isTargetText ((build options capacity).destination ++ rest) =
        some (requestMessage options, rest) := by
    intro options capacity rest h
    obtain ⟨haccepted, hlen, hdestination, -⟩ := build_success h
    have htarget : isTargetText options.path = true := haccepted.path
    rw [hdestination, haccepted.parseRequest hlen, if_pos htarget]
  refine ⟨fun options capacity rest h => ?_, fun options options' capacity capacity' h h' heq => ?_,
    fun options capacity capacity' => ?_⟩
  · obtain ⟨haccepted, -, hdestination, hwritten⟩ := build_success h
    obtain ⟨hte, hcl⟩ := haccepted.framing
    refine ⟨hread options capacity rest h, by rw [hdestination, hwritten], ?_, ?_,
      haccepted.noLineEnd⟩
    · rw [requestMessage, fieldValues_map_trimmedField, haccepted.host]
      rfl
    · simp only [requestMessage, fieldValues_map_trimmedField, hte, hcl, List.length_map]
      split_ifs with hsized hchunked
      · exact absurd hchunked.2 hsized.2
      · exact le_rfl
      · exact le_rfl
      · exact Nat.zero_le 1
  · have hleft := hread options capacity [] h
    rw [heq, hread options' capacity' [] h'] at hleft
    exact (Prod.mk.inj (Option.some.inj hleft)).1.symm
  · rcases build_cases options with ⟨-, -, hbuild⟩ | hrefused
    · refine ⟨by rw [hbuild, hbuild], fun _ => ?_⟩
      rw [hbuild, hbuild]
      exact if_pos le_rfl
    · refine ⟨(hrefused capacity).2.trans (hrefused capacity').2.symm, fun h => ?_⟩
      exact absurd h (hrefused capacity).1.2

def chunkedOptions : HttpRequestBuildOptions :=
  { method := .post, path := text "/upload", host := text "example.org"
    extraHeaders := [⟨text "Trailer", text "Digest "⟩]
    trailers := [⟨text "Digest", text "abc"⟩], body := text "\r\n0\r\n\r\n", bodyMode := .chunked }

theorem build_unambiguous_chunked :
    (build chunkedOptions 200).status = statusSuccess ∧
      parseRequest isTargetText ((build chunkedOptions 200).destination ++ text "GET") =
        some (requestMessage chunkedOptions, text "GET") ∧
      (build chunkedOptions 0).bytesWritten = (build chunkedOptions 200).bytesWritten := by
  have hstatus : (build chunkedOptions 200).status = statusSuccess := by decide
  exact ⟨hstatus, (build_unambiguous.1 chunkedOptions 200 (text "GET") hstatus).1,
    (build_unambiguous.2.2 chunkedOptions 0 200).1⟩

/-- A target that no form of `request-target` covers: braces are no characters of a URI. -/
def bracesOptions : HttpRequestBuildOptions :=
  { path := text "/\x7b\x7d", host := text "example.org" }

/-- `Build` accepts a target that the grammar of URIs excludes. -/
theorem build_braces :
    (build bracesOptions 200).status = statusSuccess ∧
      parseRequest isUriText (build bracesOptions 200).destination = none := by
  have hstatus : (build bracesOptions 200).status = statusSuccess := by decide
  obtain ⟨haccepted, hlen, hdestination, -⟩ := build_success hstatus
  have hbraces : isUriText bracesOptions.path = false := by decide
  have hread := haccepted.parseRequest hlen isUriText []
  rw [List.append_nil, hbraces] at hread
  refine ⟨hstatus, ?_⟩
  rw [hdestination, hread]
  rfl

end KernelHttp.Http1
