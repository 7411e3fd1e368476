/-
  Requests that share the connections of a session (`SendSingleHttpRequest` of
  `engine/HttpEngine.cpp`).

  An exchange may end in any way, and other executions take steps between its calls of the pool.
  `generation` is not part of the sources: it counts the detachments of each entry.
-/
import KernelHttp.Engine.ConnectionPool

namespace KernelHttp.Engine

def statusConnectionReset : NTSTATUS := 0xC000020D
def statusConnectionAborted : NTSTATUS := 0xC0000241
def statusDeviceNotConnected : NTSTATUS := 0xC000009D

inductive KhHttpMethod where
  | get
  | post
  | put
  | patch
  | delete
  | head
  | options
  | connect
deriving DecidableEq

/-- What `SendSingleHttpRequest` reads of a `KhRequest` for its use of the pool; the key
    is what `BuildPoolKey` makes of it. -/
structure PooledRequest where
  key : KhConnectionPoolKey
  connectionPolicy : KhConnectionPolicy
  method : KhHttpMethod

def isConnectionCloseStatus (status : NTSTATUS) : Bool :=
  status == statusConnectionDisconnected || status == statusConnectionReset ||
    status == statusConnectionAborted || status == statusDeviceNotConnected

def isSafeFreshConnectionRetryMethod (method : KhHttpMethod) : Bool :=
  method == .get || method == .head || method == .options

def isFreshConnectionRetryStatus (status : NTSTATUS) : Bool :=
  isConnectionCloseStatus status || status == statusRetry || status == statusIoTimeout

def shouldRetryWithFreshConnection (request : PooledRequest) (status : NTSTATUS)
    (reusedConnection : Bool) : Bool :=
  !ntSuccess status && reusedConnection && request.connectionPolicy == .reuseOrCreate &&
    isSafeFreshConnectionRetryMethod request.method && isFreshConnectionRetryStatus status

/-- `KhConnectionPoolClose`. -/
def close (p : KhConnectionPool) (i : ℕ) : KhConnectionPool := p.detach i

/-! ## Executions -/

/-- A pointer to a pooled connection, with the generation of the entry when it was
    acquired. -/
structure Holding where
  index : ℕ
  generation : ℕ
deriving DecidableEq

/-- Where an execution of `SendSingleHttpRequest` stands. -/
inductive Phase where
  | start
  | exchange (held : Holding) (reused : Bool)
  | retry
  | exchangeAgain (held : Holding)
  | finished
deriving DecidableEq

/-- An execution of `SendSingleHttpRequest`. -/
structure Execution where
  request : PooledRequest
  phase : Phase

def Execution.held (x : Execution) : Option Holding :=
  match x.phase with
  | .exchange h _ => some h
  | .exchangeAgain h => some h
  | _ => none

def Execution.holds (i : ℕ) (x : Execution) : Bool := x.held.any (·.index == i)

/-- A step of an execution; `finish` ends `SendViaTransport` with its status and
    `connectionReusable`. -/
inductive ExecutionStep where
  | acquire (now : ℕ)
  | promote (maxConcurrentStreams : ℕ)
  | configure (alpn : Bytes) (resources : KhConnectionResources) (tunnel : Bool)
  | finish (status : NTSTATUS) (reusable : Bool) (now : ℕ)

/-- A session with the executions that use it. -/
structure SessionWorld where
  pool : KhConnectionPool
  executions : List Execution
  generation : ℕ → ℕ

namespace SessionWorld

/-- The resources of an entry are detached: the entry was cleared, or `taken` for a new
    connection. -/
def Detached (before after : KhConnectionPool) (taken : Option ℕ) (j : ℕ) : Prop :=
  (before.entry j).hasConnectionState = true ∧ (after.entry j = {} ∨ taken = some j)

instance (before after : KhConnectionPool) (taken : Option ℕ) (j : ℕ) :
    Decidable (Detached before after taken j) := inferInstanceAs (Decidable (_ ∧ _))

/-- The generations behind a step. -/
def advance (w : SessionWorld) (pool : KhConnectionPool) (taken : Option ℕ) (j : ℕ) : ℕ :=
  if Detached w.pool pool taken j then w.generation j + 1 else w.generation j

/-- The execution `e` goes on in a phase, with a pool. -/
def goOn (w : SessionWorld) (e : ℕ) (x : Execution) (phase : Phase) (pool : KhConnectionPool)
    (taken : Option ℕ) : SessionWorld :=
  { pool
    executions := w.executions.set e { x with phase }
    generation := w.advance pool taken }

/-- The entry an acquisition took for a new connection. -/
def takenBy : Option (ℕ × Bool) → Option ℕ
  | some (i, false) => some i
  | _ => none

def firstAcquired (w : SessionWorld) (e : ℕ) (x : Execution) :
    NTSTATUS × KhConnectionPool × Option (ℕ × Bool) → SessionWorld
  | (_, pool, none) => w.goOn e x .finished pool none
  | (_, pool, some (i, reused)) =>
    let taken := takenBy (some (i, reused))
    w.goOn e x (.exchange ⟨i, w.advance pool taken i⟩ reused) pool taken

/-- The acquisition of the retry; a reused connection is not used, nor released. -/
def againAcquired (w : SessionWorld) (e : ℕ) (x : Execution) :
    NTSTATUS × KhConnectionPool × Option (ℕ × Bool) → SessionWorld
  | (_, pool, some (i, false)) =>
    w.goOn e x (.exchangeAgain ⟨i, w.advance pool (some i) i⟩) pool (some i)
  | (_, pool, _) => w.goOn e x .finished pool none

def canReturnToPool (request : PooledRequest) (status : NTSTATUS) (reusable : Bool) : Bool :=
  ntSuccess status && reusable && request.connectionPolicy == .reuseOrCreate

/-- The end of an exchange that is not retried. -/
def releaseHeld (w : SessionWorld) (e : ℕ) (x : Execution) (h : Holding) (status : NTSTATUS)
    (reusable : Bool) (now : ℕ) : SessionWorld :=
  w.goOn e x .finished
    (release w.pool h.index (canReturnToPool x.request status reusable) now) none

/-- A holder sets up its connection.  What it frees of its own resources on the way
(`EnsureSocketConnected`) is not counted as a detachment. -/
def configured (w : SessionWorld) (h : Holding) (alpn : Bytes) (resources : KhConnectionResources)
    (tunnel : Bool) : KhConnectionPool :=
  let c := w.pool.entry h.index
  w.pool.setEntry h.index { c with
    key := { c.key with alpn }, resources, proxyTunnelEstablished := tunnel }

/-- A step of the execution `e`; one that its phase does not have changes nothing. -/
def step (w : SessionWorld) (e : ℕ) (s : ExecutionStep) : SessionWorld :=
  match w.executions[e]? with
  | none => w
  | some x =>
    match x.phase, s with
    | .start, .acquire now =>
      w.firstAcquired e x (acquire w.pool x.request.key x.request.connectionPolicy now)
    | .retry, .acquire now => w.againAcquired e x (acquire w.pool x.request.key .forceNew now)
    | .exchange h _, .promote m | .exchangeAgain h, .promote m =>
      w.goOn e x x.phase (promoteHttp2StreamLease w.pool h.index m).2 none
    | .exchange h _, .configure alpn resources tunnel
    | .exchangeAgain h, .configure alpn resources tunnel =>
      w.goOn e x x.phase (w.configured h alpn resources tunnel) none
    | .exchange h reused, .finish status reusable now =>
      if shouldRetryWithFreshConnection x.request status reused then
        w.goOn e x .retry (close w.pool h.index) none
      else w.releaseHeld e x h status reusable now
    | .exchangeAgain h, .finish status reusable now => w.releaseHeld e x h status reusable now
    | _, _ => w

/-- The entry that a step closes through `KhConnectionPoolClose`. -/
def closes (w : SessionWorld) (e : ℕ) : ExecutionStep → Option ℕ
  | .finish status _ _ =>
    match w.executions[e]? with
    | some ⟨request, .exchange h reused⟩ =>
      if shouldRetryWithFreshConnection request status reused then some h.index else none
    | _ => none
  | _ => none

/-- The entry that a step takes for a new connection. -/
def takes (w : SessionWorld) (e : ℕ) : ExecutionStep → Option ℕ
  | .acquire now =>
    match w.executions[e]? with
    | some ⟨request, .start⟩ =>
      takenBy (acquire w.pool request.key request.connectionPolicy now).2.2
    | some ⟨request, .retry⟩ => takenBy (acquire w.pool request.key .forceNew now).2.2
    | _ => none
  | _ => none

def Detaches (w : SessionWorld) (e : ℕ) (s : ExecutionStep) (j : ℕ) : Prop :=
  Detached w.pool (w.step e s).pool (w.takes e s) j

end SessionWorld

end KernelHttp.Engine
