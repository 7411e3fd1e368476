/-
  Requests and redirects (`engine/Engine.cpp`,
  `engine/HttpEngine.cpp`).

  What an attempt yields (`Hop`) is free: it stands for the connection, the server and
  the caller who may cancel.
-/
import KernelHttp.Engine.Executions
import KernelHttp.Engine.Url

namespace KernelHttp.Engine

open Incremental

def khMaxHeadersPerRequest : ℕ := 16
def khMaxHeaderNameLength : ℕ := 128
def khMaxHeaderValueLength : ℕ := 512
def khDefaultMaxRedirects : ℕ := 10

def statusCancelled : NTSTATUS := 0xC0000120

/-! ## Requests -/

/-- Where `Tls.ServerName` points: nowhere, to the request's own `Host` (with a length of
    its own), or to another text. -/
inductive ServerName where
  | null
  | host (length : ℕ)
  | text (name : Bytes)
deriving DecidableEq

/-- A `KhRequest`. -/
structure KhRequest where
  method : KhHttpMethod
  url : Bytes
  scheme : Bytes
  host : Bytes
  path : Bytes
  port : ℕ
  hasBody : Bool
  body : Bytes
  headers : List HttpHeader
  trailers : List HttpHeader
  serverName : ServerName
  hasTlsOverride : Bool
deriving DecidableEq

/-- `KhHttpRequestCreate`, with the server name of the session's options. -/
def khHttpRequestCreate (sessionServerName : Option Bytes) : KhRequest where
  method := .get
  url := []
  scheme := []
  host := []
  path := []
  port := 0
  hasBody := false
  body := []
  headers := []
  trailers := []
  serverName := match sessionServerName with
    | none => .null
    | some name => .text name
  hasTlsOverride := false

namespace KhRequest

def urlParts (r : KhRequest) : UrlParts := ⟨r.scheme, r.host, r.path, r.port⟩

/-- `IsHttpsRequest`. -/
def isHttps (r : KhRequest) : Bool := textEqualsIgnoreCase r.scheme (text "https")

/-- The name that a TLS handshake for the request verifies; behind the host, its buffer
    holds zeros. -/
def tlsServerName (r : KhRequest) : Bytes :=
  match r.serverName with
  | .null => r.host
  | .host length => (r.host ++ List.replicate (khMaxHostLength + 1) 0).take length
  | .text name => name

/-- `KhHttpRequestSetUrl`. -/
def setUrl (r : KhRequest) (url : Bytes) : Except NTSTATUS KhRequest :=
  if url = [] then .error statusInvalidParameter
  else do
    let parts ← parseUrlIntoRequest url
    let r := { r with
      url
      scheme := parts.scheme
      host := parts.host
      path := parts.path
      port := parts.port }
    .ok (if ¬ r.hasTlsOverride ∧ r.isHttps then { r with serverName := .host r.host.length } else r)

/-- `KhHttpRequestSetMethod`. -/
def setMethod (r : KhRequest) (method : KhHttpMethod) : KhRequest := { r with method }

/-- The checks that `AddStoredHeader` and `AddStoredTrailer` begin with. -/
def checkStoredField (name value : Bytes) : Except NTSTATUS Unit :=
  if name.length = 0 then .error statusInvalidParameter
  else if name.length > khMaxHeaderNameLength ∨ value.length > khMaxHeaderValueLength then
    .error statusBufferTooSmall
  else if ¬ name.all Http1.isValidHeaderNameByte ∨
      ¬ (value.all fun c => c.toNat == 9 || (0x20 ≤ c.toNat && c.toNat != 0x7f)) then
    .error statusInvalidParameter
  else .ok ()

def addStoredHeader (r : KhRequest) (name value : Bytes) : Except NTSTATUS KhRequest := do
  checkStoredField name value
  if r.headers.length ≥ khMaxHeadersPerRequest then .error statusInsufficientResources
  else .ok { r with headers := r.headers ++ [⟨name, value⟩] }

def isForbiddenRequestTrailerField (name : Bytes) : Bool :=
  textEqualsIgnoreCase name (text "Content-Length") ||
    textEqualsIgnoreCase name (text "Transfer-Encoding") ||
    textEqualsIgnoreCase name (text "Host") ||
    textEqualsIgnoreCase name (text "Authorization") ||
    textEqualsIgnoreCase name (text "Proxy-Authorization") ||
    textEqualsIgnoreCase name (text "Cookie") ||
    textEqualsIgnoreCase name (text "Set-Cookie")

def addStoredTrailer (r : KhRequest) (name value : Bytes) : Except NTSTATUS KhRequest := do
  checkStoredField name value
  if isForbiddenRequestTrailerField name then .error statusNotSupported
  else if r.trailers.length ≥ khMaxHeadersPerRequest then .error statusInsufficientResources
  else .ok { r with trailers := r.trailers ++ [⟨name, value⟩] }

/-- `RemoveStoredHeadersByName` and `RemoveRedirectSensitiveHeaders`: the fields that
    `drops` leave, the others move up. -/
def removeStoredHeaders (drops : HttpHeader → Bool) : List HttpHeader → List HttpHeader
  | [] => []
  | h :: headers =>
    if drops h then removeStoredHeaders drops headers else h :: removeStoredHeaders drops headers

/-- The header is a `Content-Type`. -/
def isContentType (h : HttpHeader) : Bool := textEqualsIgnoreCase h.name (text "Content-Type")

/-- `ReplaceContentType`: the headers change even where the new type is refused. -/
def replaceContentType (r : KhRequest) (contentType : Bytes) : KhRequest :=
  if contentType = [] then r
  else
    let r := { r with headers := removeStoredHeaders isContentType r.headers }
    match r.addStoredHeader (text "Content-Type") contentType with
    | .ok r => r
    | .error _ => r

/-- `KhHttpRequestClearBody`. -/
def clearBody (r : KhRequest) : KhRequest :=
  { r with hasBody := false, body := [], headers := removeStoredHeaders isContentType r.headers }

/-- `CloneRequestForAsync`. -/
def cloneRequest (source : KhRequest) : Except NTSTATUS KhRequest := do
  let clone := { source with
    serverName := match source.serverName with
      | .null => .null
      | .host _ => .host source.host.length
      | .text name => .text name
    body := if source.hasBody then source.body else []
    headers := []
    trailers := [] }
  let clone ← source.headers.foldlM (fun r h => r.addStoredHeader h.name h.value) clone
  source.trailers.foldlM (fun r h => r.addStoredTrailer h.name h.value) clone

end KhRequest

open KhRequest

/-- A call that builds a request, none of which sets TLS options. -/
inductive RequestCall where
  | setUrl (url : Bytes)
  | setMethod (method : KhHttpMethod)
  | setHeader (name value : Bytes)
  | addTrailer (name value : Bytes)
  | setBody (body : Option Bytes)
  | setTypedBody (body contentType : Bytes)
  | clearBody

def RequestCall.apply (r : KhRequest) (call : RequestCall) : KhRequest :=
  let orSame : Except NTSTATUS KhRequest → KhRequest
    | .ok r => r
    | .error _ => r
  match call with
  | .setUrl url => orSame (r.setUrl url)
  | .setMethod method => r.setMethod method
  | .setHeader name value => orSame (r.addStoredHeader name value)
  | .addTrailer name value => orSame (r.addStoredTrailer name value)
  | .setBody body => { r with hasBody := body.isSome, body := body.getD [] }
  | .setTypedBody body contentType =>
    { r with hasBody := true, body }.replaceContentType contentType
  | .clearBody => r.clearBody

/-! ## The URL of a redirect -/

def startsWithLiteralIgnoreCase (value literal : Bytes) : Bool :=
  literal.length ≤ value.length && textEqualsIgnoreCase (value.take literal.length) literal

def isAbsoluteHttpLocation (location : Bytes) : Bool :=
  startsWithLiteralIgnoreCase location (text "http://") ||
    startsWithLiteralIgnoreCase location (text "https://")

def isUriSchemeChar (c : UInt8) (first : Bool) : Bool :=
  (65 ≤ c.toNat && c.toNat ≤ 90) || (97 ≤ c.toNat && c.toNat ≤ 122) ||
    !first && ((48 ≤ c.toNat && c.toNat ≤ 57) || (text "+-.").contains c)

/-- `HasUriScheme`: a `':'` that is not the first octet ends the scheme, another separator
    before it ends the search. -/
def hasUriScheme (location : Bytes) : Bool :=
  match location with
  | [] => false
  | first :: rest =>
    let scheme := rest.takeWhile fun c => !(c == colon || c == slash || c == question || c == hash)
    !(first == slash || first == question || first == hash) &&
      (rest.drop scheme.length).head? == some colon &&
      isUriSchemeChar first true && scheme.all (isUriSchemeChar · false)

def appendRedirectText (capacity : ℕ) (destination t : Bytes) : Except NTSTATUS Bytes :=
  if t.length > capacity - destination.length then .error statusBufferTooSmall
  else .ok (destination ++ t)

def removePreviousRedirectPathSegment (path : Bytes) : Bytes :=
  if path = [] then []
  else
    let path := if path.length > 1 ∧ path.getLast? = some slash then path.dropLast else path
    match path.rdropWhile (· ≠ slash) with
    | [] => [slash]
    | path => path

/-- The octets from `/` on, without the `/`. -/
def skipSlash : Bytes → Bytes
  | 47 :: rest => rest
  | rest => rest

theorem skipSlash_length (rest : Bytes) : (skipSlash rest).length ≤ rest.length := by
  unfold skipSlash
  split
  · rw [List.length_cons]
    omega
  · exact le_rfl

/-- The loop of `RemoveRedirectDotSegments`: `path` was written, `rest` is still to be read. -/
def removeDotSegmentsLoop (path rest : Bytes) : Bytes :=
  match rest with
  | [] => path
  | c :: rest =>
    if c = slash then removeDotSegmentsLoop (path ++ [c]) rest
    else
      let segment := c :: rest.takeWhile (· ≠ slash)
      let behind := rest.dropWhile (· ≠ slash)
      if segment = text "." then removeDotSegmentsLoop path (skipSlash behind)
      else if segment = text ".." then
        removeDotSegmentsLoop (removePreviousRedirectPathSegment path) (skipSlash behind)
      else removeDotSegmentsLoop (path ++ segment) behind
termination_by rest.length
decreasing_by
  all_goals
    have hlt := Nat.lt_succ_of_le (List.dropWhile_suffix (· ≠ slash) (l := rest)).length_le
    first
    | exact hlt
    | exact (skipSlash_length _).trans_lt hlt
    | exact Nat.lt_succ_self _

def removeRedirectDotSegments (path : Bytes) : Bytes :=
  if path = [] then []
  else
    match removeDotSegmentsLoop [] path with
    | [] => [slash]
    | path => path

def baseRequestFragment (r : KhRequest) : Bytes := r.url.dropWhile (· ≠ hash)

def isDefaultPort (scheme : Bytes) (port : ℕ) : Bool :=
  ((textEqualsIgnoreCase scheme (text "http") || textEqualsIgnoreCase scheme (text "ws")) &&
      port == 80) ||
    ((textEqualsIgnoreCase scheme (text "https") || textEqualsIgnoreCase scheme (text "wss")) &&
      port == 443)

def buildHostHeaderValue (r : KhRequest) (destinationCapacity : ℕ) : Except NTSTATUS Bytes :=
  if destinationCapacity = 0 ∨ r.host.length = 0 then .error statusInvalidParameter
  else
    let host := if colon ∈ r.host then openBracket :: r.host ++ [closeBracket] else r.host
    if host.length ≥ destinationCapacity then .error statusBufferTooSmall
    else if isDefaultPort r.scheme r.port then .ok host
    else
      let digits := Http1.BufferWriter.decimalDigits r.port
        (Http1.BufferWriter.decimalDivisor r.port 1)
      if host.length + 1 ≥ destinationCapacity then .error statusBufferTooSmall
      else if host.length + 1 + digits.length ≥ destinationCapacity then .error statusBufferTooSmall
      else .ok (host ++ colon :: digits)

/-- `AppendRedirectOrigin`, into an empty destination. -/
def appendRedirectOrigin (capacity : ℕ) (r : KhRequest) : Except NTSTATUS Bytes := do
  let destination ← appendRedirectText capacity [] r.scheme
  let destination ← appendRedirectText capacity destination (text "://")
  let authority ← buildHostHeaderValue r (capacity - destination.length)
  .ok (destination ++ authority)

def appendRedirectPathAndSuffix (capacity : ℕ) (r : KhRequest) (location destination : Bytes) :
    Except NTSTATUS Bytes := do
  let reference := location.takeWhile (· ≠ hash)
  let referencePath := reference.takeWhile (· ≠ question)
  let referenceQuery := reference.dropWhile (· ≠ question)
  let referenceFragment := location.dropWhile (· ≠ hash)
  let basePath := r.path.takeWhile (· ≠ question)
  let baseQuery := r.path.dropWhile (· ≠ question)
  let withPath ←
    if referencePath = [] then appendRedirectText capacity destination basePath
    else if referencePath.head? = some slash then
      appendRedirectText capacity destination referencePath
    else do
      let baseDirectory := basePath.rdropWhile (· ≠ slash)
      let destination ← appendRedirectText capacity destination
        (if baseDirectory = [] then [slash] else baseDirectory)
      appendRedirectText capacity destination referencePath
  let destination := destination ++ removeRedirectDotSegments (withPath.drop destination.length)
  let destination ←
    if referenceQuery ≠ [] then appendRedirectText capacity destination referenceQuery
    else if referencePath = [] then appendRedirectText capacity destination baseQuery
    else .ok destination
  appendRedirectText capacity destination
    (if referenceFragment ≠ [] then referenceFragment else baseRequestFragment r)

/-- `BuildRedirectUrl`, into a buffer of `capacity` octets. -/
def buildRedirectUrl (capacity : ℕ) (r : KhRequest) (location : Bytes) : Except NTSTATUS Bytes :=
  let location := Http1.trimOptionalWhitespace location
  if location = [] ∨ r.scheme = [] then .error statusInvalidParameter
  else if isAbsoluteHttpLocation location then do
    let destination ← appendRedirectText capacity [] location
    if hash ∉ location then appendRedirectText capacity destination (baseRequestFragment r)
    else .ok destination
  else if hasUriScheme location then .error statusNotSupported
  else if location.take 2 = [slash, slash] then do
    let destination ← appendRedirectText capacity [] r.scheme
    let destination ← appendRedirectText capacity destination (text ":")
    appendRedirectText capacity destination location
  else do
    let destination ← appendRedirectOrigin capacity r
    appendRedirectPathAndSuffix capacity r location destination

/-! ## The request behind a redirect -/

/-- A field that `RemoveRedirectSensitiveHeaders` removes. -/
def isSensitive (h : HttpHeader) : Bool :=
  textEqualsIgnoreCase h.name (text "Authorization") ||
    textEqualsIgnoreCase h.name (text "Cookie") ||
    textEqualsIgnoreCase h.name (text "Proxy-Authorization")

def removeRedirectSensitiveHeaders (r : KhRequest) : KhRequest :=
  { r with headers := removeStoredHeaders isSensitive r.headers }

/-- Scheme, host or port changes. -/
def isCrossOriginRedirect (oldScheme oldHost : Bytes) (oldPort : ℕ) (redirected : KhRequest) :
    Bool :=
  oldPort != redirected.port || !textEqualsIgnoreCase oldScheme redirected.scheme ||
    !textEqualsIgnoreCase oldHost redirected.host

def isHttpsDowngradeRedirect (r : KhRequest) (redirectUrl : Bytes) : Bool :=
  r.isHttps && startsWithLiteralIgnoreCase redirectUrl (text "http://")

def isRedirectStatus (statusCode : ℕ) : Bool :=
  statusCode == 301 || statusCode == 302 || statusCode == 303 || statusCode == 307 ||
    statusCode == 308

/-- 303 unless HEAD, and 301 or 302 of a POST. -/
def shouldRewriteRedirectToGet (statusCode : ℕ) (method : KhHttpMethod) : Bool :=
  if statusCode = 303 then method != .head
  else if statusCode ≠ 301 ∧ statusCode ≠ 302 then false
  else method == .post

/-- The TLS server name and the headers of a request that went to another origin. -/
def leaveOrigin (r : KhRequest) : KhRequest :=
  removeRedirectSensitiveHeaders
    (if r.isHttps then { r with serverName := .host r.host.length } else r)

/-- The last step of `ApplyRedirectToRequest`. -/
def rewriteToGet (statusCode : ℕ) (r : KhRequest) : KhRequest :=
  if shouldRewriteRedirectToGet statusCode r.method then (r.setMethod .get).clearBody else r

/-- The request of the next hop. -/
def applyRedirectToRequest (capacity : ℕ) (r : KhRequest) (statusCode : ℕ) (location : Bytes) :
    Except NTSTATUS KhRequest := do
  let tlsServerNameMatchedOldHost :=
    r.serverName = .null ∨ textEqualsIgnoreCase r.tlsServerName r.host
  let redirectUrl ← buildRedirectUrl capacity r location
  if isHttpsDowngradeRedirect r redirectUrl then .error statusNotSupported
  else do
    let redirected ← r.setUrl redirectUrl
    if isCrossOriginRedirect r.scheme r.host r.port redirected then
      if r.hasTlsOverride ∧ ¬ tlsServerNameMatchedOldHost then .error statusNotSupported
      else .ok (rewriteToGet statusCode (leaveOrigin redirected))
    else .ok (rewriteToGet statusCode redirected)

/-! ## The loop of `KhHttpSendSyncImpl` -/

/-- What the loop sees of one turn: whether the operation was canceled before it, the status
    of `SendSingleHttpRequest` and what the response says, and whether the allocations of a
    redirect succeed. -/
structure Hop where
  canceled : Bool
  status : NTSTATUS
  statusCode : ℕ
  location : Bytes
  allocates : Bool

/-- The options that the loop reads. -/
structure KhHttpSendOptions where
  disableAutoRedirect : Bool
  maxRedirects : ℕ

def effectiveMaxRedirects (options : KhHttpSendOptions) : ℕ :=
  if options.maxRedirects ≠ 0 then options.maxRedirects else khDefaultMaxRedirects

/-- The loop ends behind a response that is no redirect or not to be followed. -/
def stopsAt (options : KhHttpSendOptions) (redirectCount : ℕ) (hop : Hop) : Bool :=
  !ntSuccess hop.status || options.disableAutoRedirect || !isRedirectStatus hop.statusCode ||
    redirectCount ≥ effectiveMaxRedirects options || hop.location == []

/-- The loop of `KhHttpSendSyncImpl`: its status, and the requests it sends. `copied` says
    that the request is already a copy of the caller's. -/
def sendLoop (options : KhHttpSendOptions) (capacity : ℕ) (hops : ℕ → Hop) (redirectCount : ℕ)
    (copied : Bool) (request : KhRequest) : NTSTATUS × List KhRequest :=
  let hop := hops redirectCount
  if hop.canceled then (statusCancelled, [])
  else if _h : stopsAt options redirectCount hop then (hop.status, [request])
  else if ¬ hop.allocates then (statusInsufficientResources, [request])
  else
    match (if copied then .ok request else request.cloneRequest) with
    | .error status => (status, [request])
    | .ok current =>
      match applyRedirectToRequest capacity current hop.statusCode hop.location with
      | .error status =>
        (if status = Tls.statusNotFound ∨ status = statusInvalidParameter then statusSuccess
          else status, [request])
      | .ok redirected =>
        let (status, sent) := sendLoop options capacity hops (redirectCount + 1) true redirected
        (status, request :: sent)
termination_by effectiveMaxRedirects options - redirectCount
decreasing_by
  simp only [stopsAt, Bool.or_eq_true, decide_eq_true_eq, not_or, not_le] at _h
  omega

/-- `KhHttpSendSyncImpl`, where its arguments are valid. -/
def khHttpSendSyncImpl (options : KhHttpSendOptions) (capacity : ℕ) (hops : ℕ → Hop)
    (request : KhRequest) : NTSTATUS × List KhRequest :=
  if request.url = [] then (statusInvalidParameter, [])
  else sendLoop options capacity hops 0 false request

end KernelHttp.Engine
