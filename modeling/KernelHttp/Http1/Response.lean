/-
  The HTTP/1 response parser (`HttpParser::ParseResponse`).
-/
import KernelHttp.Http1.TransferCoding

namespace KernelHttp.Http1

open Incremental

/-- `KhHttpMaxHeaderBytes`. -/
def maxHeaderBytes : ℕ := 64 * 1024

/-- `KhHttpMaxHeaders`. -/
def maxHeaders : ℕ := 200

structure HttpParseOptions where
  headers : OutBuffer := {}
  trailers : OutBuffer := {}
  decodedBody : OutBuffer := {}
  scratchBody : OutBuffer := {}
  messageCompleteOnConnectionClose : Bool := false
  responseBodyForbidden : Bool := false
deriving DecidableEq

def HttpParseOptions.buffers (options : HttpParseOptions) : HttpCodingDecodeBuffers :=
  ⟨options.decodedBody, options.scratchBody⟩

/-- What `ParseStatusLine` reads. -/
structure StatusLine where
  majorVersion : ℕ
  minorVersion : ℕ
  statusCode : ℕ
  reasonPhrase : Bytes
deriving DecidableEq

structure HttpResponse where
  statusLine : StatusLine
  headers : List HttpHeader
  trailerCount : ℕ := 0
  trailers : List HttpHeader := []
  body : Body := ⟨.null, []⟩
  bodyKind : HttpBodyKind := .none
  bodyEndsOnConnectionClose : Bool := false
  bytesConsumed : ℕ := 0
deriving DecidableEq

/-! ## Status line and header section -/

/-- A decimal number in front of the octet `stop`, and the octets behind it. -/
def parseVersionPart (stop : ℕ) (line : Bytes) : Except NTSTATUS (ℕ × Bytes) :=
  let digits := line.takeWhile isDigit
  match line.dropWhile isDigit with
  | [] => .error statusInvalidNetworkResponse
  | c :: rest =>
    if digits = [] ∨ c.toNat ≠ stop then .error statusInvalidNetworkResponse
    else do return (← parseUInt16 digits, rest)

def parseStatusLine (line : Bytes) : Except NTSTATUS StatusLine := do
  if ¬ (text "HTTP/").isPrefixOf line then .error statusInvalidNetworkResponse
  else
    let (majorVersion, line) ← parseVersionPart 46 (line.drop 5)
    let (minorVersion, line) ← parseVersionPart 32 line
    if majorVersion ≠ 1 ∨ minorVersion > 1 then .error statusInvalidNetworkResponse
    else
      let line := line.dropWhile (·.toNat == 32)
      let digits := line.take 3
      if digits.length < 3 ∨ ¬ digits.all isDigit then .error statusInvalidNetworkResponse
      else
        let statusCode ← parseUInt16 digits
        if statusCode < 100 ∨ statusCode > 599 then .error statusInvalidNetworkResponse
        else
          match line.drop 3 with
          | [] => return ⟨majorVersion, minorVersion, statusCode, []⟩
          | c :: reasonPhrase =>
            if c.toNat ≠ 32 then .error statusInvalidNetworkResponse
            else return ⟨majorVersion, minorVersion, statusCode, reasonPhrase⟩

/-- The loop of `ParseHeaders` from `cursor` on. -/
def headerLoop (data : Bytes) (headerEnd : ℕ) (target : OutBuffer) (cursor : ℕ)
    (headers : List HttpHeader) : Except NTSTATUS (List HttpHeader) :=
  if cursor < headerEnd - 2 then
    match findCrlf (data.drop cursor) with
    | none => .error statusInvalidNetworkResponse
    | some length =>
      if cursor + length > headerEnd ∨ length > maxHeaderLineBytes then
        .error statusInvalidNetworkResponse
      else if length = 0 then .ok headers
      else
        match parseFieldLine ((data.drop cursor).take length) with
        | .error status => .error status
        | .ok (name, value) =>
          if headers.length ≥ maxHeaders ∨ headers.length ≥ target.capacity ∨
              target.present = false then .error statusBufferTooSmall
          else if ¬ isValidToken name ∨ ¬ isValidHeaderValue value then
            .error statusInvalidNetworkResponse
          else headerLoop data headerEnd target (cursor + length + 2) (headers ++ [⟨name, value⟩])
  else .ok headers
termination_by headerEnd - cursor

/-- The field lines, up to the empty one. -/
def parseHeaders (data : Bytes) (headerStart headerEnd : ℕ) (target : OutBuffer) :
    Except NTSTATUS (List HttpHeader) :=
  if headerEnd < headerStart ∨ headerEnd - headerStart > maxHeaderBytes then
    .error statusInvalidNetworkResponse
  else headerLoop data headerEnd target headerStart []

/-- The loop of `ReadContentLength` over the Content-Length values. -/
def readContentLengthLoop : List Bytes → Option ℕ → Except NTSTATUS (Option ℕ)
  | [], found => .ok found
  | value :: values, found =>
    let value := trimOptionalWhitespace value
    if value = [] ∨ value.any (·.toNat == 44) ∨ found.isSome then
      .error statusInvalidNetworkResponse
    else
      match parseSize value with
      | .error status => .error status
      | .ok parsed => readContentLengthLoop values (some parsed)

def readContentLength (headers : List HttpHeader) : Except NTSTATUS (Option ℕ) :=
  readContentLengthLoop (fieldValues headers (text "Content-Length")) none

def statusCodeHasNoBody (statusCode : ℕ) : Bool :=
  (100 ≤ statusCode && statusCode ≤ 199) || statusCode == 204 || statusCode == 205 ||
    statusCode == 304

/-! ## The body -/

def applyContentEncoding [DecodedSizeCheck] (codecs : ExternalCodecs) (options : HttpParseOptions)
    (response : HttpResponse) (body : Body) : Except NTSTATUS HttpResponse :=
  if body.octets = [] then .ok { response with body := ⟨.null, []⟩ }
  else do
    let decoded ← contentEncodingDecode codecs response.headers body options.buffers
    return { response with body := decoded.orNull }

/-- The body of a message with Transfer-Encoding. -/
def parseTransferBody [DecodedSizeCheck] (codecs : ExternalCodecs) (options : HttpParseOptions)
    (info : HttpTransferCodingInfo) (response : HttpResponse) (headerEnd : ℕ) (rest : Bytes) :
    Except NTSTATUS HttpResponse := do
  let decoded ← decodeResponseBody codecs info options.messageCompleteOnConnectionClose
    options.buffers options.trailers rest
  applyContentEncoding codecs options
    { response with
      bodyKind := decoded.bodyKind
      trailerCount := if options.trailers.present then decoded.trailerCount else 0
      trailers := decoded.trailers
      bodyEndsOnConnectionClose :=
        !info.finalCodingIsChunked && options.messageCompleteOnConnectionClose
      bytesConsumed := headerEnd + decoded.bytesConsumed }
    decoded.body

/-- A body of a known length. -/
def parseSizedBody [DecodedSizeCheck] (codecs : ExternalCodecs) (options : HttpParseOptions)
    (response : HttpResponse) (headerEnd contentLength : ℕ) (rest : Bytes) :
    Except NTSTATUS HttpResponse :=
  if contentLength > rest.length then .error statusMoreProcessingRequired
  else applyContentEncoding codecs options
    { response with
      bodyKind := if contentLength = 0 then .none else .contentLength
      bytesConsumed := headerEnd + contentLength }
    (Body.orNull ⟨.wire, rest.take contentLength⟩)

/-- A body that ends with the connection. -/
def parseUnframedBody [DecodedSizeCheck] (codecs : ExternalCodecs) (options : HttpParseOptions)
    (response : HttpResponse) (headerEnd : ℕ) (rest : Bytes) : Except NTSTATUS HttpResponse :=
  if options.messageCompleteOnConnectionClose then
    applyContentEncoding codecs options
      { response with
        bodyKind := if rest = [] then .none else .closeDelimited
        bodyEndsOnConnectionClose := true
        bytesConsumed := headerEnd + rest.length }
      (Body.orNull ⟨.wire, rest⟩)
  else .error statusMoreProcessingRequired

/-- The part of `ParseResponse` behind the header section, which ends at `headerEnd`. -/
def parseBody [DecodedSizeCheck] (codecs : ExternalCodecs) (options : HttpParseOptions)
    (response : HttpResponse) (headerEnd : ℕ) (rest : Bytes) : Except NTSTATUS HttpResponse :=
  if options.responseBodyForbidden ∨ statusCodeHasNoBody response.statusLine.statusCode then
    .ok { response with bytesConsumed := headerEnd }
  else do
    let info ← HttpTransferCodingInfo.parse response.headers
    if info.hasTransferEncoding ∧ (response.statusLine.majorVersion < 1 ∨
        (response.statusLine.majorVersion = 1 ∧ response.statusLine.minorVersion < 1)) then
      .error statusInvalidNetworkResponse
    else
      let contentLength ← readContentLength response.headers
      if info.hasTransferEncoding then
        if contentLength.isSome then .error statusInvalidNetworkResponse
        else parseTransferBody codecs options info response headerEnd rest
      else
        match contentLength with
        | some contentLength => parseSizedBody codecs options response headerEnd contentLength rest
        | none => parseUnframedBody codecs options response headerEnd rest

/-- The part of `ParseResponse` up to the header end: the response and where the
    header section ends. -/
def parseHead (options : HttpParseOptions) (data : Bytes) :
    Except NTSTATUS (HttpResponse × ℕ) :=
  match findHeaderEnd data with
  | none => .error statusMoreProcessingRequired
  | some headerEnd =>
    if headerEnd > maxHeaderBytes then .error statusInvalidNetworkResponse
    else
      match findCrlf data with
      | none => .error statusInvalidNetworkResponse
      | some statusLineEnd =>
        if statusLineEnd + 2 > headerEnd then .error statusInvalidNetworkResponse
        else do
          let statusLine ← parseStatusLine (data.take statusLineEnd)
          let headers ← parseHeaders data (statusLineEnd + 2) headerEnd options.headers
          return ({ statusLine, headers }, headerEnd)

/-- `HttpParser::ParseResponse` on a pointer that is not null. -/
def parseResponse [DecodedSizeCheck] (codecs : ExternalCodecs) (options : HttpParseOptions) (data : Bytes) :
    Except NTSTATUS HttpResponse := do
  let (response, headerEnd) ← parseHead options data
  parseBody codecs options response headerEnd (data.drop headerEnd)

/-! ## Growing input -/

section Growing

variable {codecs : ExternalCodecs} {options : HttpParseOptions} {response : HttpResponse}
  {headerEnd : ℕ}

variable {body : Body} {p rest : Bytes} {r : HttpResponse}

theorem headerLoop_append (hend : startsWithCrlf (p.drop (headerEnd - 2)) = true)
    (s : Bytes) (target : OutBuffer) : ∀ (n cursor : ℕ) (headers : List HttpHeader),
    headerEnd - cursor ≤ n →
    headerLoop (p ++ s) headerEnd target cursor headers =
      headerLoop p headerEnd target cursor headers := by
  intro n
  induction n with
  | zero =>
    intro cursor headers hn
    have hc : ¬ cursor < headerEnd - 2 := by omega
    rw [headerLoop, headerLoop, if_neg hc, if_neg hc]
  | succ n ih =>
    intro cursor headers hn
    rw [headerLoop, headerLoop.eq_1 p]
    by_cases hc : cursor < headerEnd - 2
    · rw [if_pos hc, if_pos hc]
      have hdrop : startsWithCrlf ((p.drop cursor).drop (headerEnd - 2 - cursor)) = true := by
        rw [List.drop_drop, show cursor + (headerEnd - 2 - cursor) = headerEnd - 2 by omega]
        exact hend
      obtain ⟨length, hf, -⟩ := findCrlf_of_drop hdrop
      have hlen := findCrlf_le hf
      rw [List.length_drop] at hlen
      rw [List.drop_append_of_le_length (by omega), findCrlf_append hf, hf]
      simp only [take_append_of_findCrlf hf, ih (cursor + length + 2) _ (by omega)]
    · rw [if_neg hc, if_neg hc]

theorem parseHeaders_append (hend : startsWithCrlf (p.drop (headerEnd - 2)) = true)
    (s : Bytes) (headerStart : ℕ) (target : OutBuffer) :
    parseHeaders (p ++ s) headerStart headerEnd target =
      parseHeaders p headerStart headerEnd target := by
  unfold parseHeaders
  rw [headerLoop_append hend s target _ headerStart [] le_rfl]

theorem parseHead_stable :
    Stable statusMoreProcessingRequired fun data => parseHead options data := by
  intro p s h
  simp only [parseHead] at h ⊢
  cases he : findHeaderEnd p with
  | none => simp [he] at h
  | some headerEnd =>
    obtain ⟨h4, hle, -, hend⟩ := findHeaderEnd_spec he
    obtain ⟨statusLineEnd, hf, -⟩ := findCrlf_of_drop hend
    rw [findHeaderEnd_append he, findCrlf_append hf, hf]
    simp only [take_append_of_findCrlf hf, parseHeaders_append hend]

theorem parseHead_eq_ok {r : HttpResponse × ℕ} (h : parseHead options p = .ok r) :
    findHeaderEnd p = some r.2 ∧ ∃ statusLine headers, r.1 = { statusLine, headers } := by
  unfold parseHead at h
  cases he : findHeaderEnd p with
  | none => simp [he] at h
  | some headerEnd =>
    rw [he] at h
    simp only at h
    split_ifs at h
    split at h
    · cases h
    · split_ifs at h
      obtain ⟨statusLine, -, h⟩ := bind_eq_ok h
      obtain ⟨headers, -, h⟩ := bind_eq_ok h
      obtain rfl := Except.ok.inj h
      exact ⟨rfl, _, _, rfl⟩

theorem parseHead_headerEnd {r : HttpResponse × ℕ} (h : parseHead options p = .ok r) :
    r.2 ≤ p.length :=
  (findHeaderEnd_spec (parseHead_eq_ok h).1).2.1

theorem applyContentEncoding_eq_ok {_ : DecodedSizeCheck}
    (h : applyContentEncoding codecs options response body = .ok r) :
    ∃ decoded, r = { response with body := decoded } := by
  unfold applyContentEncoding at h
  split_ifs at h
  · exact ⟨_, (Except.ok.inj h).symm⟩
  · obtain ⟨decoded, -, h⟩ := bind_eq_ok h
    exact ⟨_, (Except.ok.inj h).symm⟩

theorem applyContentEncoding_consumed {_ : DecodedSizeCheck}
    (h : applyContentEncoding codecs options response body = .ok r) :
    r.bytesConsumed = response.bytesConsumed := by
  obtain ⟨_, rfl⟩ := applyContentEncoding_eq_ok h
  rfl

theorem applyContentEncoding_bodyEnds {_ : DecodedSizeCheck}
    (h : applyContentEncoding codecs options response body = .ok r) :
    r.bodyEndsOnConnectionClose = response.bodyEndsOnConnectionClose := by
  obtain ⟨_, rfl⟩ := applyContentEncoding_eq_ok h
  rfl

/-- What the body keeps of the response in front of it. -/
structure BehindHead (options : HttpParseOptions) (response : HttpResponse) (headerEnd : ℕ)
    (r : HttpResponse) : Prop where
  statusLine : r.statusLine = response.statusLine
  headers : r.headers = response.headers
  consumed : headerEnd ≤ r.bytesConsumed
  bodyEnds : options.messageCompleteOnConnectionClose = false →
    response.bodyEndsOnConnectionClose = false → r.bodyEndsOnConnectionClose = false

theorem parseBody_behindHead {_ : DecodedSizeCheck}
    (h : parseBody codecs options response headerEnd rest = .ok r) :
    BehindHead options response headerEnd r := by
  unfold parseBody at h
  split_ifs at h
  · obtain rfl := Except.ok.inj h
    exact ⟨rfl, rfl, le_rfl, fun _ => id⟩
  obtain ⟨info, -, h⟩ := bind_eq_ok h
  split at h
  · cases h
  obtain ⟨contentLength, -, h⟩ := bind_eq_ok h
  split at h
  · split at h
    · cases h
    obtain ⟨decoded, -, h⟩ := bind_eq_ok h
    obtain ⟨_, rfl⟩ := applyContentEncoding_eq_ok h
    refine ⟨rfl, rfl, Nat.le_add_right .., fun hclose _ => ?_⟩
    dsimp only
    rw [hclose, Bool.and_false]
  cases contentLength with
  | some contentLength =>
    simp only [parseSizedBody] at h
    split at h
    · cases h
    obtain ⟨_, rfl⟩ := applyContentEncoding_eq_ok h
    exact ⟨rfl, rfl, Nat.le_add_right .., fun _ => id⟩
  | none =>
    simp only [parseUnframedBody] at h
    split at h
    · next hclosed =>
      obtain ⟨_, rfl⟩ := applyContentEncoding_eq_ok h
      exact ⟨rfl, rfl, Nat.le_add_right .., fun hclose => absurd hclosed (by rw [hclose]; decide)⟩
    · cases h

theorem parseHead_bodyEnds {r : HttpResponse × ℕ} (h : parseHead options p = .ok r) :
    r.1.bodyEndsOnConnectionClose = false := by
  obtain ⟨-, _, _, hr⟩ := parseHead_eq_ok h
  rw [hr]

theorem parseSizedBody_stable (contentLength : ℕ) :
    Stable statusMoreProcessingRequired fun rest =>
      parseSizedBody codecs options response headerEnd contentLength rest :=
  Stable.waitFor contentLength fun body => applyContentEncoding codecs options
    { response with
      bodyKind := if contentLength = 0 then .none else .contentLength
      bytesConsumed := headerEnd + contentLength }
    (Body.orNull ⟨.wire, body⟩)

variable (hclose : options.messageCompleteOnConnectionClose = false)
include hclose

theorem parseTransferBody_stable {info : HttpTransferCodingInfo}
    (he : info.hasTransferEncoding = true) (hv : info.Valid) :
    Stable statusMoreProcessingRequired fun rest =>
      parseTransferBody codecs options info response headerEnd rest := by
  unfold parseTransferBody
  rw [hclose]
  exact (decodeResponseBody_stable he hv).bind fun decoded => Stable.const _

theorem parseBody_stable : Stable statusMoreProcessingRequired fun rest =>
    parseBody codecs options response headerEnd rest := by
  unfold parseBody
  refine Stable.ite (Stable.const _) ?_
  cases hi : HttpTransferCodingInfo.parse response.headers with
  | error status => exact Stable.const _
  | ok info =>
    refine Stable.ite (Stable.const _) ?_
    cases readContentLength response.headers with
    | error status => exact Stable.const _
    | ok contentLength =>
      by_cases he : info.hasTransferEncoding = true
      · simp only [he, if_true]
        exact Stable.ite (Stable.const _)
          (parseTransferBody_stable hclose he (HttpTransferCodingInfo.parse_valid hi he))
      · simp only [he, Bool.false_eq_true, if_false]
        cases contentLength with
        | some contentLength => exact parseSizedBody_stable contentLength
        | none =>
          simp only [parseUnframedBody, hclose, Bool.false_eq_true, if_false]
          exact Stable.const _

theorem parseBody_consumed_le (h : parseBody codecs options response headerEnd rest = .ok r) :
    r.bytesConsumed ≤ headerEnd + rest.length := by
  unfold parseBody at h
  split_ifs at h
  · obtain rfl := Except.ok.inj h
    exact Nat.le_add_right _ _
  · obtain ⟨info, hi, h⟩ := bind_eq_ok h
    split at h
    · cases h
    obtain ⟨contentLength, -, h⟩ := bind_eq_ok h
    by_cases he : info.hasTransferEncoding = true
    · rw [if_pos he] at h
      split at h
      · cases h
      obtain ⟨decoded, hd, h⟩ := bind_eq_ok h
      rw [hclose] at hd
      have hle := decodeResponseBody_consumed_le he (HttpTransferCodingInfo.parse_valid hi he) hd
      rw [applyContentEncoding_consumed h]
      exact Nat.add_le_add_left hle headerEnd
    · rw [if_neg he] at h
      cases contentLength with
      | some contentLength =>
        simp only [parseSizedBody] at h
        split at h
        · cases h
        rw [applyContentEncoding_consumed h]
        simp only; omega
      | none =>
        simp only [parseUnframedBody, hclose, Bool.false_eq_true, if_false] at h
        cases h

theorem parseResponse_bodyEnds
    (h : parseResponse codecs options p = .ok r) : r.bodyEndsOnConnectionClose = false := by
  obtain ⟨⟨response, headerEnd⟩, hh, h⟩ := bind_eq_ok h
  exact (parseBody_behindHead h).bodyEnds hclose (parseHead_bodyEnds hh)

theorem parseResponse_isStable :
    Stable statusMoreProcessingRequired fun data => parseResponse codecs options data :=
  parseHead_stable.bindDrop (fun _ _ h => parseHead_headerEnd h)
    fun r => @parseBody_stable codecs options r.1 r.2 hclose

theorem parseResponse_consumed_le
    (h : parseResponse codecs options p = .ok r) : r.bytesConsumed ≤ p.length := by
  obtain ⟨⟨response, headerEnd⟩, hh, h⟩ := bind_eq_ok h
  have hle := parseHead_headerEnd hh
  have hb := parseBody_consumed_le hclose h
  rw [List.length_drop] at hb
  simp only at hle
  omega

end Growing

/-- **HTTP/1 responses parse the same however the octets arrive**: an answer of
    `ParseResponse` on a part of the octets, other than the request for more, is
    its answer on all of them, and a complete message lies inside the part. -/
theorem parseResponse_stable (codecs : ExternalCodecs) (options : HttpParseOptions)
    (hclose : options.messageCompleteOnConnectionClose = false) (p d : Bytes) (hp : p <+: d) :
    (∀ r, parseResponse codecs options p = .ok r →
      r.bytesConsumed ≤ p.length ∧ parseResponse codecs options d = .ok r) ∧
    (∀ status, parseResponse codecs options p = .error status →
      status ≠ statusMoreProcessingRequired →
      parseResponse codecs options d = .error status) := by
  obtain ⟨s, rfl⟩ := hp
  have hstable : parseResponse codecs options p ≠ .error statusMoreProcessingRequired →
      parseResponse codecs options (p ++ s) = parseResponse codecs options p :=
    parseResponse_isStable hclose p s
  constructor
  · intro r hr
    refine ⟨parseResponse_consumed_le hclose hr, ?_⟩
    rw [← hr]
    exact hstable (by rw [hr]; exact nofun)
  · intro status hs hne
    rw [← hs]
    refine hstable ?_
    rw [hs]
    exact fun heq => hne (Except.error.inj heq)

/-- Buffers for a small response. -/
def smallOptions : HttpParseOptions where
  headers := ⟨true, 8⟩
  trailers := ⟨true, 8⟩
  decodedBody := ⟨true, 64⟩
  scratchBody := ⟨true, 64⟩

/-- The head of a chunked response. -/
def chunkedHead : Bytes := text "HTTP/1.1 200 OK\r\nTransfer-Encoding: chunked\r\n\r\n"

/-- A chunked response with a trailer, behind which the next one starts; one that is refused within
a chunk, and one within the trailers. -/
theorem parseResponse_stable_chunked :
    let parse := parseResponse ⟨false, fun _ _ => .error statusNotSupported,
      fun _ _ => .error statusNotSupported⟩ smallOptions
    let message := chunkedHead ++ text "3\r\nabc\r\n0\r\nA: b\r\n\r\n"
    (∃ r, parse message = .ok r ∧ (r.body.octets, r.trailerCount, r.bytesConsumed) =
      (text "abc", 1, 66) ∧ parse (message ++ text "HTTP/1.1 200") = .ok r) ∧
    parse ((chunkedHead ++ text "3\r\nabcde") ++ text "\r\n0\r\n\r\n") =
      .error statusInvalidNetworkResponse ∧
    parse ((chunkedHead ++ text "3\r\nabc\r\n0\r\n: b\r\nA") ++ text ": b\r\n\r\n") =
      .error statusInvalidNetworkResponse := by
  intro parse message
  have hstable := fun p s => parseResponse_stable ⟨false, fun _ _ => .error statusNotSupported,
    fun _ _ => .error statusNotSupported⟩ smallOptions rfl p (p ++ s) (List.prefix_append p s)
  obtain ⟨hmessage, hchunk, htrailer⟩ :
      (parse message).toOption.map (fun r => (r.body.octets, r.trailerCount, r.bytesConsumed)) =
        some (text "abc", 1, 66) ∧
      parse (chunkedHead ++ text "3\r\nabcde") = .error statusInvalidNetworkResponse ∧
      parse (chunkedHead ++ text "3\r\nabc\r\n0\r\n: b\r\nA") =
        .error statusInvalidNetworkResponse := by
    clear hstable
    decide +kernel +revert
  refine ⟨?_, (hstable _ _).2 _ hchunk (by decide), (hstable _ _).2 _ htrailer (by decide)⟩
  cases hr : parse message with
  | error status =>
    rw [hr] at hmessage
    cases hmessage
  | ok r =>
    rw [hr] at hmessage
    exact ⟨r, rfl, Option.some.inj hmessage, ((hstable _ _).1 r hr).2⟩

end KernelHttp.Http1
