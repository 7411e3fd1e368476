/-
  The connection pool (`engine/ConnectionPool.cpp`).

  The lock makes every call atomic.  Of the pointers of a connection, only whether they are null is
  kept.
-/
import KernelHttp.Tls.Policy

namespace KernelHttp.Engine

open KernelHttp.Tls

/-! ## Keys -/

/-- `SOCKADDR_STORAGE`: the address family and the octets behind it. -/
structure SockaddrStorage where
  family : ℕ := 0
  data : Bytes := []
deriving DecidableEq

/-- `SockaddrStorageCompareLength`, less the two octets of the family: `AF_INET` is
    2, `AF_INET6` is 23. -/
def SockaddrStorage.compareLength (address : SockaddrStorage) : ℕ :=
  if address.family = 2 then 14 else if address.family = 23 then 26 else 0

/-- `SockaddrStorageEquals`. -/
def SockaddrStorage.equals (left right : SockaddrStorage) : Bool :=
  left.family == right.family &&
    left.data.take left.compareLength == right.data.take left.compareLength

inductive WskAddressFamily where
  | any
  | ipv4
  | ipv6
deriving DecidableEq

inductive KhTlsVersion where
  | tls12
  | tls13
deriving DecidableEq

inductive KhCertificatePolicy where
  | verify
  | noVerify
deriving DecidableEq

/-- `KhConnectionPoolKey`; the pointers are addresses. -/
structure KhConnectionPoolKey where
  scheme : Bytes := []
  host : Bytes := []
  port : ℕ := 0
  addressFamily : WskAddressFamily := .any
  minTlsVersion : KhTlsVersion := .tls12
  maxTlsVersion : KhTlsVersion := .tls13
  certificatePolicy : KhCertificatePolicy := .verify
  certificateStore : ℕ := 0
  clientCredential : ℕ := 0
  policy : TlsPolicy := {}
  tlsServerName : Bytes := []
  alpn : Bytes := []
  automaticAlpn : Bool := false
  proxyEnabled : Bool := false
  proxyAddress : SockaddrStorage := {}
  proxyAuthority : Bytes := []
deriving DecidableEq

def proxyIdentityEquals (left right : KhConnectionPoolKey) : Bool :=
  if left.proxyEnabled ≠ right.proxyEnabled then false
  else if ¬ left.proxyEnabled then true
  else left.proxyAddress.equals right.proxyAddress && left.proxyAuthority == right.proxyAuthority

/-- `KhConnectionPoolKeysEqualExceptAlpn`. -/
def keysEqualExceptAlpn (left right : KhConnectionPoolKey) : Bool :=
  left.port == right.port &&
    left.addressFamily == right.addressFamily &&
    left.minTlsVersion == right.minTlsVersion &&
    left.maxTlsVersion == right.maxTlsVersion &&
    left.certificatePolicy == right.certificatePolicy &&
    left.certificateStore == right.certificateStore &&
    left.clientCredential == right.clientCredential &&
    left.policy == right.policy &&
    left.automaticAlpn == right.automaticAlpn &&
    proxyIdentityEquals left right &&
    left.scheme == right.scheme &&
    left.host == right.host &&
    left.tlsServerName == right.tlsServerName

/-- `KhConnectionPoolKeysEqual`. -/
def keysEqual (left right : KhConnectionPoolKey) : Bool :=
  keysEqualExceptAlpn left right && left.alpn == right.alpn

/-- `KhConnectionPoolKeysEqualForAutoAlpnAcquire`. -/
def keysEqualForAutoAlpnAcquire (left right : KhConnectionPoolKey) : Bool :=
  if left.alpn ≠ [] ∨ right.alpn = [] then keysEqual left right
  else if ¬ left.automaticAlpn ∨ ¬ right.automaticAlpn then keysEqual left right
  else keysEqualExceptAlpn left right

/-- `ConnectionPoolHostQuotaKeysEqual`. -/
def hostQuotaKeysEqual (left right : KhConnectionPoolKey) : Bool :=
  left.port == right.port && left.addressFamily == right.addressFamily &&
    left.scheme == right.scheme && left.host == right.host

/-! ## The pool -/

/-- The pointers a pooled connection owns: which of them are not null. -/
structure KhConnectionResources where
  socket : Bool := false
  rawTransport : Bool := false
  transport : Bool := false
  tls : Bool := false
  http2 : Bool := false
deriving DecidableEq

/-- `HasDetachedConnectionResources`. -/
def KhConnectionResources.any (r : KhConnectionResources) : Bool :=
  r.socket || r.rawTransport || r.transport || r.tls || r.http2

structure KhPooledConnection where
  inUse : Bool := false
  connected : Bool := false
  id : ℕ := 0
  lastUsedTime : ℕ := 0
  http2StreamLeases : ℕ := 0
  http2MaxStreamLeases : ℕ := 0
  closeWhenIdle : Bool := false
  proxyTunnelEstablished : Bool := false
  key : KhConnectionPoolKey := {}
  resources : KhConnectionResources := {}
deriving DecidableEq

structure KhConnectionPool where
  entries : List KhPooledConnection
  activeCount : ℕ
  maxConnectionsPerHost : ℕ
  nextConnectionId : ℕ
  idleTimeoutMilliseconds : ℕ

/-- `KhConnectionPoolInitialize`, with memory for the entries. -/
def initializePool (capacity maxConnectionsPerHost idleTimeoutMilliseconds : ℕ) :
    Except NTSTATUS KhConnectionPool :=
  if capacity = 0 ∨ maxConnectionsPerHost = 0 ∨ maxConnectionsPerHost > capacity then
    .error statusInvalidParameter
  else .ok
    { entries := List.replicate capacity {}
      activeCount := 0
      maxConnectionsPerHost
      nextConnectionId := 1
      idleTimeoutMilliseconds }

namespace KhPooledConnection

def hasConnectionState (c : KhPooledConnection) : Bool :=
  c.inUse || c.connected || c.http2StreamLeases != 0 || c.closeWhenIdle || c.resources.any

def canShareHttp2Connection (c : KhPooledConnection) (key : KhConnectionPoolKey) : Bool :=
  !(!c.connected || c.closeWhenIdle || c.http2StreamLeases == 0 || c.http2MaxStreamLeases == 0 ||
      decide (c.http2StreamLeases ≥ c.http2MaxStreamLeases) ||
      !keysEqualForAutoAlpnAcquire key c.key) &&
    c.resources.http2 && c.resources.transport

def countsFor (key : KhConnectionPoolKey) (c : KhPooledConnection) : Bool :=
  (c.connected || c.inUse) && hostQuotaKeysEqual c.key key

end KhPooledConnection

namespace KhConnectionPool

def entry (p : KhConnectionPool) (i : ℕ) : KhPooledConnection := p.entries.getD i {}

def setEntry (p : KhConnectionPool) (i : ℕ) (c : KhPooledConnection) : KhConnectionPool :=
  { p with entries := p.entries.set i c }

def isIdleExpired (p : KhConnectionPool) (c : KhPooledConnection) (now : ℕ) : Bool :=
  if p.idleTimeoutMilliseconds = 0 ∨ c.lastUsedTime = 0 ∨ now < c.lastUsedTime then false
  else decide (now - c.lastUsedTime ≥ p.idleTimeoutMilliseconds * 10000)

def countConnectionsForHostQuota (p : KhConnectionPool) (key : KhConnectionPoolKey) : ℕ :=
  p.entries.countP (KhPooledConnection.countsFor key)

/-- `DetachConnectionResources` on an entry, with `ActiveCount`. -/
def detach (p : KhConnectionPool) (i : ℕ) : KhConnectionPool :=
  { p with
    entries := p.entries.set i {}
    activeCount := if (p.entry i).connected then p.activeCount - 1 else p.activeCount }

end KhConnectionPool

/-! ## KhConnectionPoolAcquire -/

inductive KhConnectionPolicy where
  | reuseOrCreate
  | forceNew
  | noPool
deriving DecidableEq

/-- The pool and the local variables of `KhConnectionPoolAcquire`. -/
structure AcquireState where
  pool : KhConnectionPool
  detached : KhConnectionResources := {}
  selected : Option ℕ := none
  reused : Bool := false

def isIdleMatch (key : KhConnectionPoolKey) (c : KhPooledConnection) : Bool :=
  c.connected && !c.inUse && c.http2StreamLeases == 0 && keysEqualForAutoAlpnAcquire key c.key

/-- The loop that looks for a connection to reuse; a connection that was idle for
    too long is closed, and ends the loop as well. -/
def reuseConnection (p : KhConnectionPool) (key : KhConnectionPoolKey) (now : ℕ) : AcquireState :=
  match p.entries.findIdx? fun c =>
      (c.inUse && c.canShareHttp2Connection key) || isIdleMatch key c with
  | none => { pool := p }
  | some i =>
    let c := p.entry i
    if c.inUse && c.canShareHttp2Connection key then
      { pool := p.setEntry i { c with http2StreamLeases := c.http2StreamLeases + 1 }
        selected := some i
        reused := true }
    else if p.isIdleExpired c now then { pool := p.detach i, detached := c.resources }
    else { pool := p.setEntry i { c with inUse := true }, selected := some i, reused := true }

/-- `DetachIdleConnectionForHostQuotaLocked`. -/
def detachIdleConnectionForHostQuota (s : AcquireState) (key : KhConnectionPoolKey) :
    Bool × AcquireState :=
  match s.pool.entries.findIdx? fun c =>
      c.connected && !c.inUse && c.http2StreamLeases == 0 && hostQuotaKeysEqual c.key key with
  | none => (false, s)
  | some i => (true, { s with pool := s.pool.detach i, detached := (s.pool.entry i).resources })

/-- The quota of the host: whether a connection may be added, if need be in place of
    an idle one. -/
def makeRoomForHost (s : AcquireState) (key : KhConnectionPoolKey) : Bool × AcquireState :=
  if s.pool.countConnectionsForHostQuota key ≥ s.pool.maxConnectionsPerHost then
    let (idleDetached, s) :=
      if s.detached.any then (true, s) else detachIdleConnectionForHostQuota s key
    (idleDetached &&
      decide (s.pool.countConnectionsForHostQuota key < s.pool.maxConnectionsPerHost), s)
  else (true, s)

/-- `NextConnectionId++`, which skips 0. -/
def nextId (nextConnectionId : ℕ) : ℕ × ℕ :=
  if nextConnectionId = 0 then (1, 2)
  else (nextConnectionId, (nextConnectionId + 1) % 2 ^ 32)

/-- The loops that take an entry over for a new connection, the first one that
    satisfies `free`; what it holds is detached, unless that was done before. -/
def takeEntry (s : AcquireState) (key : KhConnectionPoolKey) (free : KhPooledConnection → Bool) :
    AcquireState :=
  match s.pool.entries.findIdx? fun c => free c && !(c.hasConnectionState && s.detached.any) with
  | none => s
  | some i =>
    let c := s.pool.entry i
    let zeroed := if c.hasConnectionState then {} else c
    let (id, nextConnectionId) := nextId s.pool.nextConnectionId
    { pool := { s.pool with
        entries := s.pool.entries.set i
          { zeroed with inUse := true, connected := true, key, id, lastUsedTime := 0 }
        activeCount := if c.connected then s.pool.activeCount else s.pool.activeCount + 1
        nextConnectionId }
      detached := if c.hasConnectionState then c.resources else s.detached
      selected := some i
      reused := s.reused }

/-- An entry without a connection. -/
def isVacant (c : KhPooledConnection) : Bool :=
  !c.connected && !c.inUse && c.http2StreamLeases == 0

/-- An entry nobody uses. -/
def isUnused (c : KhPooledConnection) : Bool := !c.inUse && c.http2StreamLeases == 0

/-- The end of `KhConnectionPoolAcquire`: the status, the pool, the connection and
    whether it is reused. -/
def AcquireState.finish (s : AcquireState) : NTSTATUS × KhConnectionPool × Option (ℕ × Bool) :=
  match s.selected with
  | none => (statusInsufficientResources, s.pool, none)
  | some i => (statusSuccess, s.pool, some (i, s.reused))

/-- A connection for the key, where the policy allows it. -/
def tryReuse (p : KhConnectionPool) (key : KhConnectionPoolKey) (policy : KhConnectionPolicy)
    (now : ℕ) : AcquireState :=
  if policy ≠ .forceNew ∧ policy ≠ .noPool then reuseConnection p key now else { pool := p }

/-- A vacant entry, or an unused one. -/
def takeFreeEntry (s : AcquireState) (key : KhConnectionPoolKey) (policy : KhConnectionPolicy) :
    AcquireState :=
  let s := takeEntry s key isVacant
  if s.selected = none ∧ policy ≠ .noPool then takeEntry s key isUnused else s

/-- `KhConnectionPoolAcquire` at the time `now`. -/
def acquire (p : KhConnectionPool) (key : KhConnectionPoolKey) (policy : KhConnectionPolicy)
    (now : ℕ) : NTSTATUS × KhConnectionPool × Option (ℕ × Bool) :=
  let s := tryReuse p key policy now
  if s.selected.isSome then s.finish
  else
    let (room, s) := makeRoomForHost s key
    if ¬ room then (statusInsufficientResources, s.pool, none)
    else (takeFreeEntry s key policy).finish

/-! ## KhConnectionPoolRelease, KhConnectionPoolPromoteHttp2StreamLease -/

/-- A connection that nobody uses any more. -/
def KhConnectionPool.setIdle (p : KhConnectionPool) (i : ℕ) (c : KhPooledConnection) (now : ℕ) :
    KhConnectionPool := p.setEntry i { c with lastUsedTime := now, inUse := false }

/-- `KhConnectionPoolRelease` at the time `now`. -/
def release (p : KhConnectionPool) (i : ℕ) (reusable : Bool) (now : ℕ) : KhConnectionPool :=
  let c := p.entry i
  if ¬ reusable then
    if c.http2StreamLeases ≠ 0 then
      let c := { c with http2StreamLeases := c.http2StreamLeases - 1, closeWhenIdle := true }
      if c.http2StreamLeases = 0 then (p.setEntry i c).detach i else p.setEntry i c
    else p.detach i
  else if c.http2StreamLeases ≠ 0 then
    let c := { c with http2StreamLeases := c.http2StreamLeases - 1 }
    if c.http2StreamLeases = 0 then
      if c.closeWhenIdle then (p.setEntry i c).detach i else p.setIdle i c now
    else p.setEntry i c
  else p.setIdle i c now

/-- `KhConnectionPoolPromoteHttp2StreamLease`. -/
def promoteHttp2StreamLease (p : KhConnectionPool) (i maxConcurrentStreams : ℕ) :
    NTSTATUS × KhConnectionPool :=
  let c := p.entry i
  if maxConcurrentStreams = 0 then (statusInvalidParameter, p)
  else if ¬ c.connected ∨ ¬ c.inUse ∨ c.closeWhenIdle ∨ c.http2StreamLeases ≠ 0 then
    (statusInvalidDeviceState, p)
  else if ¬ c.resources.http2 ∨ ¬ c.resources.transport then (statusInvalidDeviceState, p)
  else (statusSuccess, p.setEntry i { c with
    http2MaxStreamLeases := maxConcurrentStreams
    http2StreamLeases := 1 })

/-! ## The users of a pool -/

/-- A pool, and how many users hold each of its entries. -/
structure PoolWorld where
  pool : KhConnectionPool
  holders : ℕ → ℕ

/-- What a user does.  Between the calls, a user sets up the connection it holds
    (`configure`): the pointers, the negotiated ALPN, the proxy tunnel. -/
inductive PoolCall where
  | acquire (key : KhConnectionPoolKey) (policy : KhConnectionPolicy) (now : ℕ)
  | promote (i maxConcurrentStreams : ℕ)
  | release (i : ℕ) (reusable : Bool) (now : ℕ)
  | configure (i : ℕ) (alpn : Bytes) (resources : KhConnectionResources) (tunnel : Bool)

/-- A connection is promoted by its sole holder, released once for every time it was
    acquired, and set up by a holder. -/
def PoolWorld.Allowed (w : PoolWorld) : PoolCall → Prop
  | .acquire _ _ _ => True
  | .promote i _ => w.holders i = 1
  | .release i _ _ => 0 < w.holders i
  | .configure i _ _ _ => 0 < w.holders i

/-- Who holds what behind an acquisition with its results. -/
def PoolWorld.acquired (w : PoolWorld) :
    NTSTATUS × KhConnectionPool × Option (ℕ × Bool) → PoolWorld
  | (_, pool, none) => { w with pool }
  | (_, pool, some (i, _)) => { pool, holders := Function.update w.holders i (w.holders i + 1) }

def PoolWorld.call (w : PoolWorld) : PoolCall → PoolWorld
  | .acquire key policy now => w.acquired (Engine.acquire w.pool key policy now)
  | .promote i maxConcurrentStreams =>
    { w with pool := (promoteHttp2StreamLease w.pool i maxConcurrentStreams).2 }
  | .release i reusable now =>
    { pool := Engine.release w.pool i reusable now
      holders := Function.update w.holders i (w.holders i - 1) }
  | .configure i alpn resources tunnel =>
    let c := w.pool.entry i
    { w with pool := w.pool.setEntry i { c with
        key := { c.key with alpn }, resources, proxyTunnelEstablished := tunnel } }

/-- The states of a pool that was initialized. -/
inductive PoolWorld.Reachable : PoolWorld → Prop
  | initial {capacity maxConnectionsPerHost idleTimeoutMilliseconds : ℕ} {pool : KhConnectionPool}
      (h : initializePool capacity maxConnectionsPerHost idleTimeoutMilliseconds = .ok pool) :
      Reachable ⟨pool, fun _ => 0⟩
  | step {w : PoolWorld} (h : Reachable w) (call : PoolCall) (ha : w.Allowed call) :
      Reachable (w.call call)

end KernelHttp.Engine
