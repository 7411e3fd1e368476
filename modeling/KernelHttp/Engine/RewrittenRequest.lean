/-
  Requests that a redirect rewrites to GET (`BuildHttpRequestOptions`, `KhHttpRequestClearBody`).

  A rewrite clears the body and its `Content-Type`; the trailers stay, and `Build` refuses them.
-/
import KernelHttp.Engine.LocationForms

namespace KernelHttp.Engine

open Incremental KhRequest Http1

/-! ## The options of a request -/

def khMaxHostHeaderLength : ℕ := khMaxHostLength + 9

inductive KhRequestBodyMode where
  | contentLength
  | chunked
deriving DecidableEq

/-- A `KhRequest` with its body mode and its connection policy. -/
structure FramedRequest extends KhRequest where
  bodyMode : KhRequestBodyMode
  connectionPolicy : KhConnectionPolicy
deriving DecidableEq

/-- `KhHttpRequestCreate`. -/
def framedRequestCreate (sessionServerName : Option Bytes) : FramedRequest where
  toKhRequest := khHttpRequestCreate sessionServerName
  bodyMode := .contentLength
  connectionPolicy := .reuseOrCreate

/-- A call that builds a request, with the calls for the mode and the policy. -/
inductive FramedCall where
  | call (call : RequestCall)
  | setBodyMode (mode : KhRequestBodyMode)
  | setConnectionPolicy (policy : KhConnectionPolicy)

def FramedCall.apply (r : FramedRequest) : FramedCall → FramedRequest
  | .call c => { r with toKhRequest := c.apply r.toKhRequest }
  | .setBodyMode mode => { r with bodyMode := mode }
  | .setConnectionPolicy policy => { r with connectionPolicy := policy }

def toHttpMethod : KhHttpMethod → HttpMethod
  | .get => .get
  | .post => .post
  | .put => .put
  | .patch => .patch
  | .delete => .deleteMethod
  | .head => .head
  | .options => .options
  | .connect => .connect

def defaultAcceptEncoding (deflateRuntimeAvailable : Bool) : Bytes :=
  if deflateRuntimeAvailable then text "gzip, deflate, br, identity" else text "br, identity"

/-- The checks of `BuildHttpRequestOptions` on one header. -/
def checkRequestHeader (r : FramedRequest) (header : HttpHeader) : Except NTSTATUS Unit :=
  if textEqualsIgnoreCase header.name (text "Transfer-Encoding") then .error statusNotSupported
  else if textEqualsIgnoreCase header.name (text "TE") then .error statusNotSupported
  else if textEqualsIgnoreCase header.name (text "Trailer") ∧ r.bodyMode ≠ .chunked then
    .error statusNotSupported
  else if r.body.length ≠ 0 ∧ textEqualsIgnoreCase header.name (text "Expect") ∧
      headerValueHasToken header.value (text "100-continue") then .error statusNotSupported
  else if textEqualsIgnoreCase header.name (text "Host") ∨
      textEqualsIgnoreCase header.name (text "Content-Length") ∨
      textEqualsIgnoreCase header.name (text "Connection") then .error statusInvalidParameter
  else .ok ()

/-- One turn of the loop over the headers. -/
def addRequestHeader (r : FramedRequest) (headers : List HttpHeader) (header : HttpHeader) :
    Except NTSTATUS (List HttpHeader) := do
  checkRequestHeader r header
  if headers.length ≥ khMaxHeadersPerRequest then .error statusBufferTooSmall
  else .ok (headers ++ [header])

/-- The header is an `Accept-Encoding`. -/
def isAcceptEncoding (h : HttpHeader) : Bool := textEqualsIgnoreCase h.name (text "Accept-Encoding")

def requestHeaders (deflateRuntimeAvailable : Bool) (r : FramedRequest) :
    Except NTSTATUS (List HttpHeader) := do
  let headers ← r.headers.foldlM (addRequestHeader r) []
  if r.headers.any isAcceptEncoding then .ok headers
  else if headers.length ≥ khMaxHeadersPerRequest then .error statusBufferTooSmall
  else
    .ok (headers ++ [⟨text "Accept-Encoding", defaultAcceptEncoding deflateRuntimeAvailable⟩])

def requestOptions (r : FramedRequest) (host : Bytes) (headers : List HttpHeader) :
    HttpRequestBuildOptions where
  method := toHttpMethod r.method
  path := r.path
  host := host
  connection := if r.connectionPolicy = .reuseOrCreate then .keepAlive else .close
  extraHeaders := headers
  body := r.body
  includeContentLength := r.hasBody
  bodyMode := if r.bodyMode = .chunked then .chunked else .contentLength
  trailers := r.trailers

/-- `BuildHttpRequestOptions`, with the buffers of `ApiHttpHeaderScratch`. -/
def buildHttpRequestOptions (deflateRuntimeAvailable : Bool) (r : FramedRequest) :
    Except NTSTATUS HttpRequestBuildOptions :=
  if r.trailers.length > khMaxHeadersPerRequest then .error statusInvalidParameter
  else do
    let host ← buildHostHeaderValue r.toKhRequest khMaxHostHeaderLength
    let headers ← requestHeaders deflateRuntimeAvailable r
    .ok (requestOptions r host headers)

/-- `BuildHttpRequestOptions` and `HttpRequestBuilder::Build` write the request into a buffer. -/
def Builds (deflateRuntimeAvailable : Bool) (capacity : ℕ) (r : FramedRequest) (sent : Bytes) :
    Prop :=
  ∃ options, buildHttpRequestOptions deflateRuntimeAvailable r = .ok options ∧
    (build options capacity).status = statusSuccess ∧
    (build options capacity).destination = sent

/-- `ApplyRedirectToRequest`. -/
def FramedRequest.applyRedirect (capacity : ℕ) (r : FramedRequest) (statusCode : ℕ)
    (location : Bytes) : Except NTSTATUS FramedRequest := do
  let redirected ← applyRedirectToRequest capacity r.toKhRequest statusCode location
  .ok { r with toKhRequest := redirected }

variable {deflate : Bool} {capacity : ℕ} {r r' : FramedRequest}

/-! ## The headers -/

variable {header : HttpHeader} {options : HttpRequestBuildOptions} {result : List HttpHeader}

theorem addRequestHeader_eq_ok {headers : List HttpHeader} :
    addRequestHeader r headers header = .ok result ↔
      checkRequestHeader r header = .ok () ∧ headers.length < khMaxHeadersPerRequest ∧
        result = headers ++ [header] := by
  rw [addRequestHeader, bind_eq_ok_iff]
  constructor
  · rintro ⟨_, hcheck, h⟩
    split_ifs at h with hfull
    exact ⟨hcheck, not_le.1 hfull, (Except.ok.inj h).symm⟩
  · rintro ⟨hcheck, hroom, rfl⟩
    exact ⟨(), hcheck, if_neg (not_le.2 hroom)⟩

theorem foldlM_addRequestHeader {headers front : List HttpHeader} :
    headers.foldlM (addRequestHeader r) front = .ok result ↔
      (∀ h ∈ headers, checkRequestHeader r h = .ok ()) ∧
        (headers = [] ∨ front.length + headers.length ≤ khMaxHeadersPerRequest) ∧
        result = front ++ headers := by
  induction headers generalizing front with
  | nil =>
    rw [List.foldlM_nil, List.append_nil]
    constructor
    · rintro h
      exact ⟨nofun, .inl rfl, (Except.ok.inj h).symm⟩
    · rintro ⟨-, -, rfl⟩
      rfl
  | cons header headers ih =>
    rw [List.foldlM_cons, bind_eq_ok_iff]
    simp only [addRequestHeader_eq_ok, ih, List.forall_mem_cons, List.length_cons]
    constructor
    · rintro ⟨_, ⟨hcheck, hroom, rfl⟩, hall, hfits, rfl⟩
      refine ⟨⟨hcheck, hall⟩, .inr ?_, ?_⟩
      · rcases hfits with rfl | hfits
        · exact hroom
        · rw [List.length_append, List.length_singleton] at hfits
          omega
      · rw [List.append_assoc, List.singleton_append]
    · rintro ⟨⟨hcheck, hall⟩, hfits, rfl⟩
      have hfits := hfits.resolve_left (List.cons_ne_nil _ _)
      refine ⟨_, ⟨hcheck, by omega, rfl⟩, hall, .inr ?_, ?_⟩
      · rw [List.length_append, List.length_singleton]
        omega
      · rw [List.append_assoc, List.singleton_append]

/-- The headers with the `Accept-Encoding` of the engine. -/
def offeredHeaders (deflateRuntimeAvailable : Bool) (headers : List HttpHeader) :
    List HttpHeader :=
  if headers.any isAcceptEncoding then headers
  else headers ++ [⟨text "Accept-Encoding", defaultAcceptEncoding deflateRuntimeAvailable⟩]

theorem requestHeaders_eq_ok {headers : List HttpHeader} :
    requestHeaders deflate r = .ok headers ↔
      (∀ h ∈ r.headers, checkRequestHeader r h = .ok ()) ∧
        headers = offeredHeaders deflate r.headers ∧ headers.length ≤ khMaxHeadersPerRequest := by
  rw [requestHeaders, bind_eq_ok_iff, offeredHeaders]
  simp only [foldlM_addRequestHeader, List.nil_append, List.length_nil, Nat.zero_add]
  have hempty : ∀ {n}, (r.headers = [] ∨ r.headers.length ≤ n) ↔ r.headers.length ≤ n := by
    intro n
    refine or_iff_right_of_imp fun h => ?_
    rw [h]
    exact Nat.zero_le n
  constructor
  · rintro ⟨_, ⟨hall, hfits, rfl⟩, h⟩
    rw [hempty] at hfits
    split_ifs at h ⊢ with hany hfull
    · obtain rfl := Except.ok.inj h
      exact ⟨hall, rfl, hfits⟩
    · obtain rfl := Except.ok.inj h
      exact ⟨hall, rfl, by simpa using hfull⟩
  · rintro ⟨hall, rfl, hfits⟩
    split_ifs at hfits ⊢ with hany
    · exact ⟨_, ⟨hall, hempty.2 hfits, rfl⟩, rfl⟩
    · rw [List.length_append, List.length_singleton] at hfits
      exact ⟨_, ⟨hall, hempty.2 (Nat.le_of_succ_le hfits), rfl⟩, if_neg (not_le.2 hfits)⟩

/-- The options of a request. -/
theorem buildHttpRequestOptions_eq_ok :
    buildHttpRequestOptions deflate r = .ok options ↔
      r.trailers.length ≤ khMaxHeadersPerRequest ∧
        (∀ h ∈ r.headers, checkRequestHeader r h = .ok ()) ∧
        (offeredHeaders deflate r.headers).length ≤ khMaxHeadersPerRequest ∧
        ∃ host, buildHostHeaderValue r.toKhRequest khMaxHostHeaderLength = .ok host ∧
          options = requestOptions r host (offeredHeaders deflate r.headers) := by
  rw [buildHttpRequestOptions]
  constructor
  · intro h
    split_ifs at h with htrailers
    obtain ⟨host, hhost, h⟩ := bind_eq_ok h
    obtain ⟨headers, hheaders, h⟩ := bind_eq_ok h
    obtain ⟨hall, rfl, hfits⟩ := requestHeaders_eq_ok.1 hheaders
    exact ⟨not_lt.1 htrailers, hall, hfits, host, hhost, (Except.ok.inj h).symm⟩
  · rintro ⟨htrailers, hall, hfits, host, hhost, rfl⟩
    rw [if_neg (not_lt.2 htrailers), bind_of_ok hhost,
      bind_of_ok (requestHeaders_eq_ok.2 ⟨hall, rfl, hfits⟩)]

/-! ## What a rewrite leaves -/

theorem setUrl_eq_ok {r r' : KhRequest} {url : Bytes} (h : r.setUrl url = .ok r') :
    ∃ parts serverName, parseUrlIntoRequest url = .ok parts ∧
      r' = { r with
        url
        scheme := parts.scheme
        host := parts.host
        path := parts.path
        port := parts.port
        serverName } := by
  rw [setUrl] at h
  split_ifs at h
  obtain ⟨parts, hparts, h⟩ := bind_eq_ok h
  obtain rfl := Except.ok.inj h
  split_ifs
  · exact ⟨parts, _, hparts, rfl⟩
  · exact ⟨parts, _, hparts, rfl⟩

theorem leaveOrigin_eq (r : KhRequest) : ∃ serverName,
    leaveOrigin r = { r with serverName, headers := r.headers.filter (!isSensitive ·) } := by
  rw [leaveOrigin, removeRedirectSensitiveHeaders, removeStoredHeaders_eq]
  split_ifs
  · exact ⟨_, rfl⟩
  · exact ⟨_, rfl⟩

/-- A request without a body, but with the trailers of the other one, and with its headers but for
the `Content-Type` and some of the sensitive ones. -/
structure Rewritten (r r' : KhRequest) : Prop where
  method : r'.method = .get
  hasBody : r'.hasBody = false
  body : r'.body = []
  trailers : r'.trailers = r.trailers
  headers : r'.headers.Sublist r.headers
  contentType : ∀ h ∈ r'.headers, isContentType h = false
  kept : ∀ h ∈ r.headers, isContentType h = false → isSensitive h = false → h ∈ r'.headers
  url : parseUrlIntoRequest r'.url = .ok r'.urlParts

theorem rewritten_clearBody (r : KhRequest) {leaves : HttpHeader → Bool} {r' : KhRequest}
    (htrailers : r'.trailers = r.trailers) (hheaders : r'.headers = r.headers.filter leaves)
    (hleaves : ∀ h, isSensitive h = false → leaves h = true)
    (hurl : parseUrlIntoRequest r'.url = .ok r'.urlParts) :
    Rewritten r (r'.setMethod .get).clearBody where
  method := rfl
  hasBody := rfl
  body := rfl
  trailers := htrailers
  headers := by
    rw [clearBody, setMethod, removeStoredHeaders_eq, hheaders]
    exact List.filter_sublist.trans List.filter_sublist
  contentType := by
    intro h hmem
    rw [clearBody, removeStoredHeaders_eq] at hmem
    simpa using (List.mem_filter.1 hmem).2
  kept := by
    intro h hmem htype hsensitive
    rw [clearBody, setMethod, removeStoredHeaders_eq, hheaders, List.mem_filter, List.mem_filter]
    exact ⟨⟨hmem, hleaves h hsensitive⟩, by rw [htype]; rfl⟩
  url := hurl

theorem applyRedirect_rewritten {r r' : KhRequest} {statusCode : ℕ} {location : Bytes}
    (h : applyRedirectToRequest capacity r statusCode location = .ok r')
    (hget : shouldRewriteRedirectToGet statusCode r.method = true) : Rewritten r r' := by
  obtain ⟨redirectUrl, -, h⟩ := bind_eq_ok h
  split at h
  · cases h
  obtain ⟨redirected, hset, h⟩ := bind_eq_ok h
  obtain ⟨parts, serverName, hparts, rfl⟩ := setUrl_eq_ok hset
  have hall : r.headers = r.headers.filter fun _ => true := (List.filter_eq_self.2 fun _ _ => rfl).symm
  split at h
  · split at h
    · cases h
    obtain rfl := Except.ok.inj h
    obtain ⟨name, hleave⟩ := leaveOrigin_eq { r with
      url := redirectUrl
      scheme := parts.scheme
      host := parts.host
      path := parts.path
      port := parts.port
      serverName }
    rw [hleave, rewriteToGet, if_pos hget]
    exact rewritten_clearBody r rfl rfl (fun h hnot => by rw [hnot]; rfl) hparts
  · obtain rfl := Except.ok.inj h
    rw [rewriteToGet, if_pos hget]
    exact rewritten_clearBody r rfl hall (fun _ _ => rfl) hparts

/-! ## The Host of a request -/

theorem decimalDivisor_le (n d : ℕ) (hd : 0 < d) :
    BufferWriter.decimalDivisor n d ≤ max d n := by
  induction h : n / d using Nat.strong_induction_on generalizing d with
  | _ q ih =>
    rw [BufferWriter.decimalDivisor]
    by_cases hbig : 10 ≤ n / d
    · have hnext := ih (n / (d * 10)) (by rw [← Nat.div_div_eq_div_mul]; omega) (d * 10)
        (by omega) rfl
      have hle : d * 10 ≤ n := by
        rw [Nat.mul_comm]
        exact (Nat.le_div_iff_mul_le hd).1 hbig
      rw [if_pos ⟨hd, hbig⟩]
      exact hnext.trans (by omega)
    · rw [if_neg fun h => hbig h.2]
      exact le_max_left d n

theorem length_decimalDigits (n k : ℕ) : (BufferWriter.decimalDigits n (10 ^ k)).length = k + 1 := by
  induction k with
  | zero => rw [BufferWriter.decimalDigits, if_neg (by simp)]; rfl
  | succ k ih =>
    have hdiv : 10 ^ (k + 1) / 10 = 10 ^ k := by
      rw [Nat.pow_succ, Nat.mul_div_cancel _ (by decide)]
    have hpos : 10 ^ k ≠ 0 := by positivity
    rw [BufferWriter.decimalDigits, hdiv, if_pos hpos, List.length_cons, ih]

theorem length_decimalText {n : ℕ} (h : n ≤ 0xffff) : (decimalText n).length ≤ 5 := by
  obtain ⟨k, hk, -⟩ := decimalDivisor_spec n 1 Nat.one_pos
  have hle := decimalDivisor_le n 1 Nat.one_pos
  rw [hk, Nat.one_mul] at hle
  rw [decimalText, hk, Nat.one_mul, length_decimalDigits]
  by_contra hlong
  have hpow : 10 ^ 5 ≤ 10 ^ k := Nat.pow_le_pow_right (by decide) (by omega)
  omega

theorem authority_spec {r : KhRequest} (h : UrlText r.urlParts) :
    r.authority.length < khMaxHostHeaderLength ∧ isValidHeaderValue r.authority = true := by
  have hport : (portSuffix (portText false r.urlParts)).length ≤ 6 ∧
      isValidHeaderValue (portSuffix (portText false r.urlParts)) = true := by
    cases htext : portText false r.urlParts with
    | none => exact ⟨Nat.zero_le 6, rfl⟩
    | some t =>
      have hdigits := portText_digits htext
      have hlength : t.length ≤ 5 := by
        rw [portText] at htext
        split_ifs at htext
        rw [← Option.some.inj htext]
        exact length_decimalText h.port.2
      refine ⟨Nat.succ_le_succ hlength, ?_⟩
      have hvalid := isValidHeaderValue_of_digits hdigits
      rw [isValidHeaderValue] at hvalid ⊢
      rw [portSuffix, List.all_cons, hvalid]
      rfl
  have hhost : (authorityHost r.urlParts.host).length ≤ khMaxHostLength + 2 ∧
      ∀ c ∈ authorityHost r.urlParts.host, 0x20 < c.toNat ∧ c.toNat < 0x7f := by
    have hprintable : r.urlParts.host.length ≤ khMaxHostLength ∧
        ∀ c ∈ r.urlParts.host, 0x20 < c.toNat ∧ c.toNat < 0x7f := by
      cases h.host with
      | name hne hle ht => exact ⟨hle, ht.printable⟩
      | literal ht =>
        refine ⟨ht.le, fun c hc => ?_⟩
        have hc := ht.octets c hc
        rw [isLiteralByte, Bool.and_eq_true, Bool.and_eq_true, decide_eq_true_eq,
          decide_eq_true_eq] at hc
        exact hc.1
    rw [authorityHost]
    split_ifs
    · refine ⟨?_, fun c hc => ?_⟩
      · rw [List.length_append, List.length_cons, List.length_singleton]
        exact Nat.add_le_add_right hprintable.1 2
      · rcases List.mem_cons.1 hc with rfl | hc
        · decide
        · rcases List.mem_append.1 hc with hc | hc
          · exact hprintable.2 c hc
          · rw [List.mem_singleton.1 hc]
            decide
    · exact ⟨hprintable.1.trans (Nat.le_add_right _ 2), hprintable.2⟩
  rw [KhRequest.authority]
  constructor
  · have hlength : (authorityHost r.urlParts.host).length +
        (portSuffix (portText false r.urlParts)).length ≤ khMaxHostLength + 2 + 6 :=
      Nat.add_le_add hhost.1 hport.1
    rw [List.length_append]
    exact Nat.lt_succ_of_le hlength
  · rw [isValidHeaderValue, List.all_append, Bool.and_eq_true, List.all_eq_true]
    refine ⟨fun c hc => ?_, hport.2⟩
    have hc := hhost.2 c hc
    simp only [Bool.or_eq_true, Bool.not_eq_true', Bool.or_eq_false_iff, decide_eq_false_iff_not,
      beq_eq_false_iff_ne]
    right
    omega

/-! ## The rewritten request -/

theorem textEqualsIgnoreCase_trans {a b c : Bytes} (hab : textEqualsIgnoreCase a b = true)
    (hbc : textEqualsIgnoreCase b c = false) : textEqualsIgnoreCase a c = false := by
  rw [textEqualsIgnoreCase_iff] at hab
  rw [← Bool.not_eq_true, textEqualsIgnoreCase_iff] at hbc ⊢
  rwa [hab]

/-- Headers of these names stay. -/
theorem ordinary_of_name {name : Bytes} (hname : name ∈ [text "Accept-Encoding", text "Trailer"])
    (h : textEqualsIgnoreCase header.name name = true) :
    isContentType header = false ∧ isSensitive header = false := by
  have hnames : ∀ name ∈ [text "Accept-Encoding", text "Trailer"],
      ∀ other ∈ [text "Content-Type", text "Authorization", text "Cookie",
        text "Proxy-Authorization"], textEqualsIgnoreCase name other = false := by decide +kernel
  have hother := fun other hother => textEqualsIgnoreCase_trans h (hnames name hname other hother)
  simp only [List.forall_mem_cons] at hother
  obtain ⟨htype, hauthorization, hcookie, hproxy, -⟩ := hother
  refine ⟨htype, ?_⟩
  rw [isSensitive, hauthorization, hcookie, hproxy]
  rfl

/-- The headers that passed the checks pass them again. -/
theorem Rewritten.checkRequestHeader (h : Rewritten r.toKhRequest r'.toKhRequest)
    (hmode : r'.bodyMode = r.bodyMode)
    (hcheck : checkRequestHeader r header = .ok ()) : checkRequestHeader r' header = .ok () := by
  rw [Engine.checkRequestHeader] at hcheck ⊢
  split_ifs at hcheck with hte htransfer htrailer hexpect hfixed
  rw [hmode, h.body, if_neg hte, if_neg htransfer, if_neg htrailer, if_neg (by simp), if_neg hfixed]

/-- The headers of the options are some of those before. -/
theorem Rewritten.offeredHeaders {r r' : KhRequest} (h : Rewritten r r') (deflate : Bool) :
    (offeredHeaders deflate r'.headers).Sublist (offeredHeaders deflate r.headers) := by
  have hany : r'.headers.any isAcceptEncoding = r.headers.any isAcceptEncoding := by
    rw [Bool.eq_iff_iff, List.any_eq_true, List.any_eq_true]
    constructor
    · rintro ⟨header, hmem, hname⟩
      exact ⟨header, h.headers.subset hmem, hname⟩
    · rintro ⟨header, hmem, hname⟩
      obtain ⟨htype, hsensitive⟩ := ordinary_of_name List.mem_cons_self hname
      exact ⟨header, h.kept header hmem htype hsensitive, hname⟩
  rw [Engine.offeredHeaders, Engine.offeredHeaders, hany]
  split
  · exact h.headers
  · exact h.headers.append_right _

theorem mem_offeredHeaders {headers : List HttpHeader}
    (h : header ∈ offeredHeaders deflate headers) :
    header ∈ headers ∨ header.name = text "Accept-Encoding" := by
  rw [offeredHeaders] at h
  split_ifs at h
  · exact .inl h
  · rcases List.mem_append.1 h with h | h
    · exact .inl h
    · rw [List.mem_singleton.1 h]
      exact .inr rfl

theorem subset_offeredHeaders {headers : List HttpHeader}
    (h : header ∈ headers) : header ∈ offeredHeaders deflate headers := by
  rw [offeredHeaders]
  split_ifs
  · exact h
  · exact List.mem_append_left _ h

/-- No trailers and no field that names them. -/
def TrailerFree (r : KhRequest) : Prop :=
  r.trailers = [] ∧ ∀ h ∈ r.headers, textEqualsIgnoreCase h.name (text "Trailer") = false

/-- The fields that `Build` writes of its own for a rewritten request. -/
theorem Rewritten.fixedFields (h : Rewritten r.toKhRequest r'.toKhRequest) (host : Bytes)
    (headers : List HttpHeader) :
    Http1.hasBody (requestOptions r' host headers) = false ∧
      methodText (requestOptions r' host headers) = text "GET" ∧
      Http1.fixedFields (requestOptions r' host headers) = ⟨text "Host", host⟩ ::
        connectionFields (if r'.connectionPolicy = .reuseOrCreate then .keepAlive else .close) := by
  have hbody : Http1.hasBody (requestOptions r' host headers) = false := by
    rw [Http1.hasBody, requestOptions, h.body, h.hasBody]
    rfl
  refine ⟨hbody, ?_, ?_⟩
  · rw [methodText, requestOptions, h.method]
    rfl
  · rw [Http1.fixedFields, framingFields, hbody]
    rfl

theorem Rewritten.not_chunked (h : Rewritten r.toKhRequest r'.toKhRequest) (host : Bytes)
    (headers : List HttpHeader) :
    ¬ requestEmitsChunkedFraming (requestOptions r' host headers) = true := by
  rw [requestEmitsChunkedFraming_iff, (h.fixedFields host headers).1]
  exact fun hboth => Bool.false_ne_true hboth.1

theorem Rewritten.accepted_iff (h : Rewritten r.toKhRequest r'.toKhRequest) {host host' : Bytes}
    (haccepted : Accepted (requestOptions r host (Engine.offeredHeaders deflate r.headers)))
    (hpath : isValidRequestTarget r'.path = true) (hhost : isValidHeaderValue host' = true) :
    Accepted (requestOptions r' host' (Engine.offeredHeaders deflate r'.headers)) ↔
      TrailerFree r.toKhRequest := by
  have hoffered := h.offeredHeaders deflate
  obtain ⟨-, hmethod, hfixed⟩ := h.fixedFields host' (Engine.offeredHeaders deflate r'.headers)
  have hframing := h.not_chunked host' (Engine.offeredHeaders deflate r'.headers)
  constructor
  · intro haccepted'
    constructor
    · by_contra hne
      rw [← h.trailers] at hne
      exact hframing (haccepted'.chunked hne)
    · intro header hmem
      by_contra hname
      rw [Bool.not_eq_false] at hname
      obtain ⟨htype, hsensitive⟩ :=
        ordinary_of_name (List.mem_cons_of_mem _ List.mem_cons_self) hname
      have hcheck := haccepted'.extraHeaders header
        (subset_offeredHeaders (h.kept header hmem htype hsensitive))
      rw [validateExtraHeader] at hcheck
      split_ifs at hcheck with _ _ htrailer
      exact htrailer ⟨hname, hframing⟩
  · rintro ⟨htrailers, hnames⟩
    have hnone : r'.trailers = [] := h.trailers.trans htrailers
    refine ⟨hpath, ?_, ?_, ?_, fun hne => absurd hnone hne, ?_⟩
    · rw [hmethod]
      decide +kernel
    · intro field hfield
      rcases List.mem_append.1 hfield with hfield | hfield
      · rw [hfixed] at hfield
        rcases List.mem_cons.1 hfield with rfl | hfield
        · have hname : isValidHeaderName (text "Host") = true := by decide +kernel
          exact ⟨hname, hhost⟩
        · have hdirective : ∀ field ∈ connectionFields .keepAlive ++ connectionFields .close,
              isValidHeaderName field.name = true ∧ isValidHeaderValue field.value = true := by
            decide +kernel
          split_ifs at hfield
          · exact hdirective field (List.mem_append_left _ hfield)
          · exact hdirective field (List.mem_append_right _ hfield)
      · exact haccepted.fields field (List.mem_append_right _ (hoffered.subset hfield))
    · intro header hheader
      have hname : textEqualsIgnoreCase header.name (text "Trailer") = false := by
        rcases mem_offeredHeaders hheader with hmem | hname
        · exact hnames header (h.headers.subset hmem)
        · rw [hname]
          decide +kernel
      have hcheck := haccepted.extraHeaders header (hoffered.subset hheader)
      rw [validateExtraHeader] at hcheck ⊢
      split_ifs at hcheck with hte htransfer htrailer hexpect hfixed
      have hempty : (requestOptions r' host' (Engine.offeredHeaders deflate r'.headers)).body =
          [] := h.body
      rw [if_neg hte, if_neg htransfer, hname, hempty, if_neg (by simp), if_neg (by simp),
        if_neg hfixed]
    · rw [requestOptions, hnone]
      exact nofun

/-- A GET without a body, and without a field that describes one. -/
structure Bodiless (message : RequestGrammar.RequestMessage) : Prop where
  method : message.method = text "GET"
  body : message.body = []
  trailers : message.trailers = []
  fields : ∀ name ∈ [text "Content-Length", text "Transfer-Encoding", text "Content-Type",
    text "Trailer"], fieldValues message.fields name = []

theorem Rewritten.bodiless (h : Rewritten r.toKhRequest r'.toKhRequest) {host : Bytes}
    (haccepted : Accepted (requestOptions r' host (Engine.offeredHeaders deflate r'.headers))) :
    Bodiless (requestMessage (requestOptions r' host (Engine.offeredHeaders deflate r'.headers))) := by
  obtain ⟨hbody, hmethod, hfixed⟩ := h.fixedFields host (Engine.offeredHeaders deflate r'.headers)
  obtain ⟨hte, hcl⟩ := haccepted.framing
  have hnone : r'.trailers = [] := by
    by_contra hne
    exact h.not_chunked host _ (haccepted.chunked hne)
  have hlost : ∀ name ∈ [text "Content-Type", text "Trailer"],
      (∀ header ∈ r'.headers, textEqualsIgnoreCase header.name name = false) →
        fieldValues (Http1.fixedFields (requestOptions r' host
          (Engine.offeredHeaders deflate r'.headers)) ++
            Engine.offeredHeaders deflate r'.headers) name = [] := by
    intro name hname hheaders
    have hown : ∀ name ∈ [text "Content-Type", text "Trailer"],
        textEqualsIgnoreCase (text "Host") name = false ∧
          textEqualsIgnoreCase (text "Connection") name = false ∧
            textEqualsIgnoreCase (text "Accept-Encoding") name = false := by decide +kernel
    obtain ⟨hhost, hconnection, hencoding⟩ := hown name hname
    apply fieldValues_eq_nil
    intro field hfield
    rcases List.mem_append.1 hfield with hfield | hfield
    · rw [hfixed] at hfield
      rcases List.mem_cons.1 hfield with rfl | hfield
      · exact hhost
      · split_ifs at hfield
        · rw [List.mem_singleton.1 hfield]
          exact hconnection
        · rw [List.mem_singleton.1 hfield]
          exact hconnection
    · rcases mem_offeredHeaders hfield with hmem | heq
      · exact hheaders field hmem
      · rw [heq]
        exact hencoding
  have htrailer : ∀ header ∈ r'.headers,
      textEqualsIgnoreCase header.name (text "Trailer") = false := by
    intro header hmem
    have hcheck := haccepted.extraHeaders header (subset_offeredHeaders hmem)
    rw [validateExtraHeader] at hcheck
    split_ifs at hcheck with _ _ hnamed
    exact Bool.eq_false_iff.2 fun hname => hnamed ⟨hname, h.not_chunked host _⟩
  refine ⟨hmethod, h.body, ?_, ?_⟩
  · rw [requestMessage, requestOptions, hnone]
    rfl
  · rw [hbody] at hte hcl
    simp only [List.forall_mem_cons, requestMessage, fieldValues_map_trimmedField]
    refine ⟨?_, ?_, ?_, ?_, fun _ he => by cases he⟩
    · rw [hcl, if_neg fun hboth => Bool.false_ne_true hboth.1]
      rfl
    · rw [hte, if_neg fun hboth => Bool.false_ne_true hboth.1]
      rfl
    · exact congrArg _ (hlost _ List.mem_cons_self h.contentType)
    · exact congrArg _ (hlost _ (List.mem_cons_of_mem _ List.mem_cons_self) htrailer)

/-- The text of a request, as `Build` writes it. -/
def FramedRequest.sentText (deflateRuntimeAvailable : Bool) (r : FramedRequest) : Bytes :=
  requestText (requestOptions r r.authority (offeredHeaders deflateRuntimeAvailable r.headers))

/-- The rewritten request is built as a GET without a body. -/
def BuildsBodiless (deflateRuntimeAvailable : Bool) (capacity : ℕ) (r : FramedRequest) : Prop :=
  ∃ sent message, Builds deflateRuntimeAvailable capacity r sent ∧
    (∀ rest, RequestGrammar.parseRequest RequestGrammar.isTargetText (sent ++ rest) =
      some (message, rest)) ∧ Bodiless message

theorem builds_iff (hcapacity : capacity ≤ maxSizeT)
    (hoptions : buildHttpRequestOptions deflate r = .ok options) {sent : Bytes} :
    Builds deflate capacity r sent ↔
      Accepted options ∧ (requestText options).length ≤ capacity ∧ sent = requestText options := by
  constructor
  · rintro ⟨_, h, hstatus, rfl⟩
    obtain rfl := Except.ok.inj (hoptions.symm.trans h)
    obtain ⟨haccepted, -, hdestination, hwritten⟩ := build_success hstatus
    refine ⟨haccepted, ?_, hdestination⟩
    rcases build_cases options with ⟨-, -, hbuild⟩ | hrefused
    · have hsmall : statusBufferTooSmall ≠ statusSuccess := by decide
      rw [hbuild] at hstatus
      by_contra hlong
      dsimp only at hstatus
      rw [if_neg hlong] at hstatus
      exact hsmall hstatus
    · have hpos := List.length_pos_of_ne_nil (requestText_ne_nil options)
      rw [← hwritten, (hrefused capacity).2] at hpos
      exact absurd hpos (lt_irrefl 0)
  · rintro ⟨haccepted, hfits, rfl⟩
    have hbuild := haccepted.build (hfits.trans hcapacity) capacity
    refine ⟨options, hoptions, ?_, ?_⟩
    · rw [hbuild, if_pos hfits]
    · rw [hbuild]
      exact List.take_of_length_le hfits

/-- **A request that a redirect rewrites to GET is built where the request had no trailers and no
field that names them**, and what is built has no body. -/
theorem rewritten_builds (deflate : Bool) (urlCapacity capacity : ℕ) (r r' : FramedRequest)
    (statusCode : ℕ) (location sent : Bytes) (hcapacity : capacity ≤ maxSizeT)
    (hbuilds : Builds deflate capacity r sent)
    (hredirect : r.applyRedirect urlCapacity statusCode location = .ok r')
    (hget : shouldRewriteRedirectToGet statusCode r.method = true) :
    (BuildsBodiless deflate capacity r' ↔
      TrailerFree r.toKhRequest ∧ (r'.sentText deflate).length ≤ capacity) ∧
    ∀ sent', Builds deflate capacity r' sent' → ∃ message,
      (∀ rest, RequestGrammar.parseRequest RequestGrammar.isTargetText (sent' ++ rest) =
        some (message, rest)) ∧ Bodiless message := by
  obtain ⟨redirected, happly, hredirect⟩ := bind_eq_ok hredirect
  have hrewritten := applyRedirect_rewritten happly hget
  obtain rfl := Except.ok.inj hredirect
  obtain ⟨options, hoptions, hstatus, -⟩ := hbuilds
  obtain ⟨htrailers, hall, hfits, host, -, rfl⟩ := buildHttpRequestOptions_eq_ok.1 hoptions
  obtain ⟨haccepted, -⟩ := build_success hstatus
  have hurl : UrlText redirected.urlParts := parseUrl_urlText hrewritten.url
  obtain ⟨hauthority, hvalue⟩ := authority_spec hurl
  set r' : FramedRequest := { r with toKhRequest := redirected } with hr'
  have hrequest : Rewritten r.toKhRequest r'.toKhRequest := hrewritten
  have hpath : isValidRequestTarget r'.path = true := by
    obtain ⟨rest, hrest⟩ := hurl.path.slash
    have hne : r'.path ≠ [] := fun hnil => List.cons_ne_nil _ _ (hrest.symm.trans hnil)
    rw [isValidRequestTarget, Bool.and_eq_true, bne_iff_ne, List.all_eq_true]
    refine ⟨hne, fun c hc => isValidRequestTargetByte_iff.2 ?_⟩
    exact ⟨(hurl.path.octets c hc).1, (hurl.path.octets c hc).2.1⟩
  have hoptions' : buildHttpRequestOptions deflate r' =
      .ok (requestOptions r' redirected.authority (offeredHeaders deflate r'.headers)) := by
    refine buildHttpRequestOptions_eq_ok.2 ⟨hrequest.trailers ▸ htrailers, ?_, ?_, _, ?_, rfl⟩
    · intro header hmem
      exact hrequest.checkRequestHeader rfl (hall header (hrequest.headers.subset hmem))
    · exact (hrequest.offeredHeaders deflate).length_le.trans hfits
    · exact (buildHostHeaderValue_eq_ok hurl.host.ne_nil).2 ⟨rfl, hauthority⟩
  have hread : ∀ sent', Builds deflate capacity r' sent' → ∃ message,
      (∀ rest, RequestGrammar.parseRequest RequestGrammar.isTargetText (sent' ++ rest) =
        some (message, rest)) ∧ Bodiless message := by
    intro sent' hsent'
    obtain ⟨haccepted', -, rfl⟩ := (builds_iff hcapacity hoptions').1 hsent'
    refine ⟨_, fun rest => ?_, hrequest.bodiless haccepted'⟩
    have hshort : r'.body.length < 16 ^ 16 := by
      rw [hrequest.body]
      exact Nat.pow_pos (by decide)
    have htarget : RequestGrammar.isTargetText (requestOptions r' redirected.authority
        (offeredHeaders deflate r'.headers)).path = true := haccepted'.path
    rw [haccepted'.parseRequest hshort, if_pos htarget]
  refine ⟨⟨?_, ?_⟩, hread⟩
  · rintro ⟨sent', _, hsent', -⟩
    obtain ⟨haccepted', hlength, -⟩ := (builds_iff hcapacity hoptions').1 hsent'
    exact ⟨(hrequest.accepted_iff haccepted hpath hvalue).1 haccepted', hlength⟩
  · rintro ⟨hfree, hlength⟩
    have hsent : Builds deflate capacity r' (r'.sentText deflate) :=
      (builds_iff hcapacity hoptions').2
        ⟨(hrequest.accepted_iff haccepted hpath hvalue).2 hfree, hlength, rfl⟩
    obtain ⟨message, hmessage, hbodiless⟩ := hread _ hsent
    exact ⟨_, message, hsent, hmessage, hbodiless⟩

def postRequest : FramedRequest :=
  [.call (.setUrl (text "http://h/a")), .call (.setMethod .post),
    .call (.setTypedBody (text "x") (text "text/plain")), .setBodyMode .chunked].foldl
      FramedCall.apply (framedRequestCreate none)

/-- The POST behind a redirect to `/b`. -/
def redirectedPost : FramedRequest :=
  { postRequest with
    url := text "http://h/b"
    path := text "/b"
    method := .get
    hasBody := false
    body := []
    headers := [] }

theorem postRequest_builds : Builds true 4096 postRequest (postRequest.sentText true) := by
  have hoptions : buildHttpRequestOptions true postRequest = .ok
      (requestOptions postRequest (text "h") (offeredHeaders true postRequest.headers)) :=
    buildHttpRequestOptions_eq_ok.2 ⟨by decide +kernel, by decide +kernel, by decide +kernel,
      text "h", by decide +kernel, rfl⟩
  exact ⟨_, hoptions, by decide +kernel, by decide +kernel⟩

theorem rewritten_builds_post : BuildsBodiless true 4096 redirectedPost := by
  have hredirect : postRequest.applyRedirect 4096 303 (text "/b") = .ok redirectedPost := by
    decide +kernel
  have hfree : TrailerFree postRequest.toKhRequest := by
    constructor
    · decide +kernel
    · decide +kernel
  exact (rewritten_builds true 4096 4096 postRequest redirectedPost 303 (text "/b") _
    (by decide +kernel) postRequest_builds hredirect (by decide +kernel)).1.2
      ⟨hfree, by decide +kernel⟩

/-- The POST with a trailer, which a redirect does not clear. -/
def trailerPost : FramedRequest :=
  FramedCall.apply postRequest (.call (.addTrailer (text "X-Checksum") (text "1")))

/-- A request with a trailer is built, but not behind a redirect. -/
theorem trailerPost_refused :
    Builds true 4096 trailerPost (trailerPost.sentText true) ∧
      shouldRewriteRedirectToGet 303 trailerPost.method = true ∧
      ∃ r', trailerPost.applyRedirect 4096 303 (text "/b") = .ok r' ∧
        ∀ capacity sent, ¬ Builds true capacity r' sent := by
  have hoptions : buildHttpRequestOptions true trailerPost = .ok
      (requestOptions trailerPost (text "h") (offeredHeaders true trailerPost.headers)) :=
    buildHttpRequestOptions_eq_ok.2 ⟨by decide +kernel, by decide +kernel, by decide +kernel,
      text "h", by decide +kernel, rfl⟩
  refine ⟨⟨_, hoptions, by decide +kernel, by decide +kernel⟩, by decide +kernel,
    { redirectedPost with trailers := [⟨text "X-Checksum", text "1"⟩] }, by decide +kernel, ?_⟩
  rintro capacity sent ⟨options, hoptions, hstatus, -⟩
  obtain ⟨-, -, -, host, -, rfl⟩ := buildHttpRequestOptions_eq_ok.1 hoptions
  have hchunked := (build_success hstatus).1.chunked (List.cons_ne_nil _ _)
  exact Bool.false_ne_true hchunked

end KernelHttp.Engine
