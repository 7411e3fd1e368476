/-
  Requests as they are written (`HttpRequest.cpp`).

  `requestText` is the text of a request, which is what `build` writes, if anything.
-/
import KernelHttp.Http1.RequestGrammar

namespace KernelHttp.Http1

/-! ## The options -/

inductive HttpMethod where
  | get
  | post
  | put
  | deleteMethod
  | head
  | options
  | patch
  | connect
  | custom
deriving DecidableEq

inductive HttpConnectionDirective where
  | omit
  | keepAlive
  | close
  | upgrade
deriving DecidableEq

inductive HttpRequestBodyMode where
  | contentLength
  | chunked
deriving DecidableEq

structure HttpRequestBuildOptions where
  method : HttpMethod := .get
  customMethod : Bytes := []
  path : Bytes := []
  host : Bytes := []
  userAgent : Bytes := []
  contentType : Bytes := []
  connection : HttpConnectionDirective := .omit
  extraHeaders : List HttpHeader := []
  trailers : List HttpHeader := []
  body : Bytes := []
  includeContentLength : Bool := false
  bodyMode : HttpRequestBodyMode := .contentLength

/-! ## Checks -/

def isValidRequestTargetByte (c : UInt8) : Bool := 0x20 < c.toNat && c.toNat != 0x7f

def isValidRequestTarget (t : Bytes) : Bool := t != [] && t.all isValidRequestTargetByte

def isValidHeaderNameByte (c : UInt8) : Bool :=
  if c.toNat ≤ 0x20 || 0x7f ≤ c.toNat then false
  else !(text "()<>@,;:\\\"/[]?=\x7b\x7d").contains c

def isValidHeaderName (t : Bytes) : Bool := t != [] && t.all isValidHeaderNameByte

def headerValueHasToken (value token : Bytes) : Bool :=
  (splitAtCommas (trimOptionalWhitespace value)).any fun member =>
    textEqualsIgnoreCase (trimOptionalWhitespace member) token

def methodText (options : HttpRequestBuildOptions) : Bytes :=
  match options.method with
  | .get => text "GET"
  | .post => text "POST"
  | .put => text "PUT"
  | .deleteMethod => text "DELETE"
  | .head => text "HEAD"
  | .options => text "OPTIONS"
  | .patch => text "PATCH"
  | .connect => text "CONNECT"
  | .custom => options.customMethod

def requestEmitsChunkedFraming (options : HttpRequestBuildOptions) : Bool :=
  options.bodyMode == .chunked && (options.body.length != 0 || options.includeContentLength)

/-- `ValidateExtraHeaders` on one header. -/
def validateExtraHeader (options : HttpRequestBuildOptions) (header : HttpHeader) :
    Except NTSTATUS Unit :=
  if textEqualsIgnoreCase header.name (text "Transfer-Encoding") then .error statusNotSupported
  else if textEqualsIgnoreCase header.name (text "TE") then .error statusNotSupported
  else if textEqualsIgnoreCase header.name (text "Trailer") ∧ ¬ requestEmitsChunkedFraming options
  then .error statusNotSupported
  else if options.body.length ≠ 0 ∧ textEqualsIgnoreCase header.name (text "Expect") ∧
      headerValueHasToken header.value (text "100-continue") then .error statusNotSupported
  else if textEqualsIgnoreCase header.name (text "Host") ∨
      textEqualsIgnoreCase header.name (text "Content-Length") ∨
      textEqualsIgnoreCase header.name (text "Connection") then .error statusInvalidParameter
  else .ok ()

def validateExtraHeaders (options : HttpRequestBuildOptions) : Except NTSTATUS Unit :=
  options.extraHeaders.forM (validateExtraHeader options)

/-- `ValidateTrailers` on one trailer. -/
def validateTrailer (trailer : HttpHeader) : Except NTSTATUS Unit :=
  if ¬ isValidHeaderName trailer.name ∨ ¬ isValidHeaderValue trailer.value then
    .error statusInvalidParameter
  else if isForbiddenTrailerField trailer.name then .error statusNotSupported
  else .ok ()

def validateTrailers (options : HttpRequestBuildOptions) : Except NTSTATUS Unit :=
  if options.trailers.length = 0 then .ok ()
  else if ¬ requestEmitsChunkedFraming options then .error statusNotSupported
  else options.trailers.forM validateTrailer

/-! ## The writer -/

/-- `BufferWriter`, with the octets it has written to its destination. -/
structure BufferWriter where
  capacity : ℕ
  required : ℕ := 0
  written : Bytes := []

namespace BufferWriter

/-- Counts the octets, and writes those that fit. -/
def append (writer : BufferWriter) (t : Bytes) : Except NTSTATUS BufferWriter :=
  if t.length = 0 then .ok writer
  else if writer.required + t.length > maxSizeT then .error statusIntegerOverflow
  else
    .ok { writer with
      required := writer.required + t.length
      written :=
        if writer.required < writer.capacity then
          writer.written ++ t.take (writer.capacity - writer.required)
        else writer.written }

def appendByte (writer : BufferWriter) (value : UInt8) : Except NTSTATUS BufferWriter :=
  writer.append [value]

def appendHeader (writer : BufferWriter) (name value : Bytes) : Except NTSTATUS BufferWriter :=
  if ¬ isValidHeaderName name ∨ ¬ isValidHeaderValue value then .error statusInvalidParameter
  else do
    let writer ← writer.append name
    let writer ← writer.append (text ": ")
    let writer ← writer.append value
    writer.append (text "\r\n")

/-- The first loop of `AppendDecimal`: the weight of the first digit. -/
def decimalDivisor (value divisor : ℕ) : ℕ :=
  if 0 < divisor ∧ 10 ≤ value / divisor then decimalDivisor value (divisor * 10) else divisor
termination_by value / divisor
decreasing_by
  rw [← Nat.div_div_eq_div_mul]
  omega

/-- The second loop of `AppendDecimal`. -/
def decimalDigits (value divisor : ℕ) : Bytes :=
  UInt8.ofNat (48 + value / divisor % 10) ::
    if divisor / 10 ≠ 0 then decimalDigits value (divisor / 10) else []
termination_by divisor
decreasing_by omega

def appendDecimal (writer : BufferWriter) (value : ℕ) : Except NTSTATUS BufferWriter :=
  (decimalDigits value (decimalDivisor value 1)).foldlM appendByte writer

/-- A digit of `AppendHex`. -/
def hexDigit (digit : ℕ) : UInt8 := (text "0123456789abcdef").getD digit 0

/-- The loop of `AppendHex`, with the digits that are left and `wroteDigit`. -/
def hexDigits (value : ℕ) : ℕ → Bool → Bytes
  | 0, _ => [hexDigit (value % 16)]
  | n + 1, wroteDigit =>
    let digit := value / 16 ^ (n + 1) % 16
    if digit ≠ 0 ∨ wroteDigit then hexDigit digit :: hexDigits value n true
    else hexDigits value n wroteDigit

def appendHex (writer : BufferWriter) (value : ℕ) : Except NTSTATUS BufferWriter :=
  (hexDigits value 15 false).foldlM appendByte writer

end BufferWriter

/-! ## The request -/

def appendContentLength (writer : BufferWriter) (bodyLength : ℕ) :
    Except NTSTATUS BufferWriter := do
  let writer ← writer.append (text "Content-Length: ")
  let writer ← writer.appendDecimal bodyLength
  writer.append (text "\r\n")

/-- A loop of `AppendHeader` over headers. -/
def appendHeaders (writer : BufferWriter) (headers : List HttpHeader) :
    Except NTSTATUS BufferWriter :=
  headers.foldlM (fun writer header => writer.appendHeader header.name header.value) writer

/-- The chunk of `AppendChunkedBody`. -/
def appendChunk (writer : BufferWriter) (body : Bytes) : Except NTSTATUS BufferWriter :=
  if body.length ≠ 0 then do
    let writer ← writer.appendHex body.length
    let writer ← writer.append (text "\r\n")
    let writer ← writer.append body
    writer.append (text "\r\n")
  else .ok writer

def appendChunkedBody (writer : BufferWriter) (body : Bytes) (trailers : List HttpHeader) :
    Except NTSTATUS BufferWriter := do
  let writer ← appendChunk writer body
  let writer ← writer.append (text "0\r\n")
  let writer ← appendHeaders writer trailers
  writer.append (text "\r\n")

/-- A header that is written if its value is not empty. -/
def appendOptionalHeader (writer : BufferWriter) (name value : Bytes) :
    Except NTSTATUS BufferWriter :=
  if value.length > 0 then writer.appendHeader name value else .ok writer

def hasBody (options : HttpRequestBuildOptions) : Bool :=
  0 < options.body.length || options.includeContentLength

def appendFraming (writer : BufferWriter) (options : HttpRequestBuildOptions) :
    Except NTSTATUS BufferWriter :=
  if hasBody options then
    if options.bodyMode = .chunked then
      writer.appendHeader (text "Transfer-Encoding") (text "chunked")
    else appendContentLength writer options.body.length
  else .ok writer

def appendConnection (writer : BufferWriter) :
    HttpConnectionDirective → Except NTSTATUS BufferWriter
  | .omit => .ok writer
  | .keepAlive => writer.appendHeader (text "Connection") (text "keep-alive")
  | .close => writer.appendHeader (text "Connection") (text "close")
  | .upgrade => writer.appendHeader (text "Connection") (text "Upgrade")

def appendBody (writer : BufferWriter) (options : HttpRequestBuildOptions) :
    Except NTSTATUS BufferWriter :=
  if hasBody options then
    if options.bodyMode = .chunked then appendChunkedBody writer options.body options.trailers
    else if options.body.length > 0 then writer.append options.body
    else .ok writer
  else .ok writer

/-- The checks of `Build`. -/
def checkOptions (options : HttpRequestBuildOptions) : Except NTSTATUS Unit :=
  if ¬ isValidRequestTarget options.path ∨ ¬ isValidHeaderValue options.host then
    .error statusInvalidParameter
  else do
    validateExtraHeaders options
    validateTrailers options
    if ¬ isValidHeaderName (methodText options) then .error statusInvalidParameter else .ok ()

/-- The writes of `Build`. -/
def emitRequest (options : HttpRequestBuildOptions) (writer : BufferWriter) :
    Except NTSTATUS BufferWriter := do
  let writer ← writer.append (methodText options)
  let writer ← writer.append (text " ")
  let writer ← writer.append options.path
  let writer ← writer.append (text " HTTP/1.1\r\n")
  let writer ← writer.appendHeader (text "Host") options.host
  let writer ← appendOptionalHeader writer (text "User-Agent") options.userAgent
  let writer ← appendOptionalHeader writer (text "Content-Type") options.contentType
  let writer ← appendFraming writer options
  let writer ← appendConnection writer options.connection
  let writer ← appendHeaders writer options.extraHeaders
  let writer ← writer.append (text "\r\n")
  appendBody writer options

/-- What `Build` returns: the status, `bytesWritten`, and the octets in the destination. -/
structure BuildResult where
  status : NTSTATUS
  bytesWritten : ℕ := 0
  destination : Bytes := []
deriving DecidableEq

/-- The request line, the fields and the body. -/
def build (options : HttpRequestBuildOptions) (destinationCapacity : ℕ) : BuildResult :=
  match checkOptions options >>= fun _ => emitRequest options { capacity := destinationCapacity } with
  | .error status => { status := status }
  | .ok writer =>
    { status := if writer.required ≤ writer.capacity then statusSuccess else statusBufferTooSmall
      bytesWritten := writer.required
      destination := writer.written }

end KernelHttp.Http1
