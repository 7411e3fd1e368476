/-
  Reading a response (`ReadHttpResponseFromSocket` of `engine/HttpEngine.cpp`, with the buffers of
  `engine/Workspace.cpp`).

  The response is parsed from its start after each read, and once more when the connection is
  closed.
-/
import KernelHttp.Http1.Response
import KernelHttp.Lib.Program

namespace KernelHttp.Engine

open Http1 Program

def workspaceDecodedBodyBytes : ℕ := 16 * 1024
def workspaceInitialResponseBytes : ℕ := 4 * 1024

/-- What the reader is given: the codecs, the transport's `ReceiveWithTimeout`, the sizes that
can be allocated, for each turn whether the deadline has not passed, and the capacities. -/
structure ResponseReader (σ : Type) where
  codecs : ExternalCodecs
  receive : ℕ → EStateM NTSTATUS σ Bytes
  canAllocate : ℕ → Bool
  timeLeft : ℕ → Bool
  headerCapacity : ℕ
  trailerCapacity : ℕ
  responseBodyForbidden : Bool

/-- `KhWorkspace`: the lengths of the response buffer, of the decoded body and of the scratch
body, and the limit on a response (zero for none). -/
structure ResponseWorkspace where
  responseLength : ℕ
  decodedBodyLength : ℕ
  scratchBodyLength : ℕ
  maxResponseBytes : ℕ
deriving DecidableEq

namespace ResponseReader

variable {σ : Type} (R : ResponseReader σ)

def parseOptions (workspace : ResponseWorkspace) (closed : Bool) : HttpParseOptions where
  headers := ⟨true, R.headerCapacity⟩
  trailers := ⟨true, R.trailerCapacity⟩
  decodedBody := ⟨workspace.decodedBodyLength ≠ 0, workspace.decodedBodyLength⟩
  scratchBody := ⟨workspace.scratchBodyLength ≠ 0, workspace.scratchBodyLength⟩
  messageCompleteOnConnectionClose := closed
  responseBodyForbidden := R.responseBodyForbidden

/-- The doubling of a buffer until it has the required capacity, with the limit (zero for
none); a unit of fuel is a doubling, and a size doubles at most sixty-four times. -/
def doubledLength (limit required : ℕ) : ℕ → ℕ → Except NTSTATUS ℕ
  | 0, newLength => .ok newLength
  | fuel + 1, newLength =>
    if newLength ≥ required then .ok newLength
    else if limit ≠ 0 ∧ newLength ≥ limit then .error statusBufferTooSmall
    else if newLength + newLength > maxSizeT then .ok required
    else if limit ≠ 0 ∧ newLength * 2 > limit then doubledLength limit required fuel limit
    else doubledLength limit required fuel (newLength * 2)

/-- What `KhWorkspaceEnsureResponseCapacity` and `KhWorkspaceEnsureDecodedBodyCapacity` share:
the length of the buffer afterwards. -/
def ensureCapacity (limit current initial required : ℕ) : Except NTSTATUS ℕ :=
  if required = 0 then .error statusInvalidParameter
  else if limit ≠ 0 ∧ required > limit then .error statusBufferTooSmall
  else if required ≤ current then .ok current
  else
    match doubledLength limit required 65 (if current = 0 then initial else current) with
    | .error status => .error status
    | .ok newLength =>
      if R.canAllocate newLength then .ok newLength else .error statusInsufficientResources

def withinLimit (limit size : ℕ) : ℕ := if limit = 0 then size else min size limit

/-- `KhWorkspaceEnsureResponseCapacity`. -/
def ensureResponseCapacity (workspace : ResponseWorkspace) (required : ℕ) :
    Except NTSTATUS ResponseWorkspace := do
  let responseLength ← R.ensureCapacity workspace.maxResponseBytes workspace.responseLength
    (withinLimit workspace.maxResponseBytes workspaceInitialResponseBytes) required
  return { workspace with responseLength }

/-- `KhWorkspaceEnsureDecodedBodyCapacity`. -/
def ensureDecodedBodyCapacity (workspace : ResponseWorkspace) (required : ℕ) :
    Except NTSTATUS ResponseWorkspace := do
  let decodedBodyLength ← R.ensureCapacity workspace.maxResponseBytes workspace.decodedBodyLength
    (withinLimit workspace.maxResponseBytes workspaceDecodedBodyBytes) required
  return { workspace with decodedBodyLength }

def growDecodedBodyAfterBufferTooSmall (workspace : ResponseWorkspace) :
    Except NTSTATUS ResponseWorkspace :=
  let currentLength := workspace.decodedBodyLength
  let limit := workspace.maxResponseBytes
  if limit ≠ 0 ∧ currentLength ≥ limit then .error statusBufferTooSmall
  else if currentLength ≠ 0 ∧ currentLength * 2 > maxSizeT then .error statusBufferTooSmall
  else
    let doubled := if currentLength = 0 then workspaceDecodedBodyBytes else currentLength * 2
    let requiredCapacity := if limit ≠ 0 ∧ doubled > limit then limit else doubled
    if requiredCapacity ≤ currentLength then .error statusBufferTooSmall
    else R.ensureDecodedBodyCapacity workspace requiredCapacity

def isNonFinalInformationalResponse (parsed : HttpResponse) : Bool :=
  100 ≤ parsed.statusLine.statusCode && parsed.statusLine.statusCode < 200 &&
    parsed.statusLine.statusCode ≠ 101

/-- `DiscardNonFinalInformationalResponse`: what is left behind a response that is skipped. -/
def discardNonFinalInformationalResponse (response : Bytes) (parsed : HttpResponse) :
    Except NTSTATUS (Option Bytes) :=
  if ¬ isNonFinalInformationalResponse parsed then .ok none
  else if parsed.bytesConsumed > response.length then .error statusInvalidNetworkResponse
  else .ok (some (response.drop parsed.bytesConsumed))

/-- The loop behind the end of the connection. -/
def closedResponse : ℕ → ResponseWorkspace → Bytes → Except NTSTATUS (Option HttpResponse)
  | 0, _, _ => .ok none
  | turns + 1, workspace, response =>
    match parseResponse R.codecs (R.parseOptions workspace true) response with
    | .error status =>
      if status = statusBufferTooSmall then do
        let workspace ← R.growDecodedBodyAfterBufferTooSmall workspace
        closedResponse turns workspace response
      else .error status
    | .ok parsed => do
      match ← discardNonFinalInformationalResponse response parsed with
      | some rest => closedResponse turns workspace rest
      | none => return some parsed

/-- What the reader does once the connection has ended. -/
def responseAtClose (turns : ℕ) (workspace : ResponseWorkspace) (response : Bytes) :
    Except NTSTATUS (Option HttpResponse) :=
  if response = [] then .error statusConnectionDisconnected
  else R.closedResponse turns workspace response

/-- The checks in front of a read: the workspace with room for an octet. -/
def prepareRead (turns : ℕ) (workspace : ResponseWorkspace) (response : Bytes) :
    Except NTSTATUS ResponseWorkspace :=
  if workspace.maxResponseBytes ≠ 0 ∧ response.length ≥ workspace.maxResponseBytes then
    .error statusBufferTooSmall
  else if response.length = maxSizeT then .error statusBufferTooSmall
  else do
    let workspace ← R.ensureResponseCapacity workspace (response.length + 1)
    if R.timeLeft turns then .ok workspace else .error statusIoTimeout

/-- `ReadHttpResponseFromSocket`, from the octets that are there. -/
def readResponse : ℕ → ResponseWorkspace → Bytes →
    EStateM NTSTATUS σ (Option HttpResponse)
  | 0, _, _ => pure none
  | turns + 1, workspace, response =>
    match parseResponse R.codecs (R.parseOptions workspace false) response with
    | .ok parsed => do
      match ← ofExcept (discardNonFinalInformationalResponse response parsed) with
      | some rest => readResponse turns workspace rest
      | none => return some parsed
    | .error status =>
      if status = statusBufferTooSmall then do
        let workspace ← ofExcept (R.growDecodedBodyAfterBufferTooSmall workspace)
        readResponse turns workspace response
      else if status ≠ statusMoreProcessingRequired then throw status
      else do
        let workspace ← ofExcept (R.prepareRead turns workspace response)
        match ← attempt (R.receive (workspace.responseLength - response.length)) with
        | .error status =>
          if status = statusConnectionDisconnected then
            ofExcept (R.responseAtClose turns workspace response)
          else throw status
        | .ok received =>
          if received = [] then ofExcept (R.responseAtClose turns workspace response)
          else readResponse turns workspace (response ++ received)

/-- Reads until a final response is whole. -/
def readHttpResponseFromSocket (turns : ℕ) (workspace : ResponseWorkspace) :
    EStateM NTSTATUS σ (Option HttpResponse) :=
  R.readResponse turns workspace []

end ResponseReader

end KernelHttp.Engine
