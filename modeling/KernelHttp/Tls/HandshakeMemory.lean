/-
  The handshake buffer of a TLS connection as it lies in memory
  (`TlsConnection::ReadHandshakeMessage`, `ConsumeOptionalPlainHandshakeRecord`).

  The memory behind the messages still holds what was there before, and a pointer shows what is
  written there later.
-/
import KernelHttp.Lib.Overwriting
import KernelHttp.Tls.Handshake12

namespace KernelHttp.Tls

open Program

/-- What is done with the handshake buffer: the unread octets are parsed, a record is copied
behind them, they move to the front, or a message is taken. -/
inductive AccessKind where
  | parse
  | copy
  | move
  | take
deriving DecidableEq, Repr

/-- An access to the handshake buffer: whether it is there, what its members are, and the octets
that are read or written. -/
structure BufferAccess where
  kind : AccessKind
  present : Bool
  consumed : ℕ
  length : ℕ
  first : ℕ
  count : ℕ
deriving DecidableEq, Repr

/-- Whether octets are written. -/
def BufferAccess.writes (access : BufferAccess) : Bool :=
  access.kind = .copy || access.kind = .move

/-- A connection with the memory of its handshake buffer, the members that only TLS 1.2 reads, and
the session cache of its options. -/
structure ConnectionMemory where
  connection : TlsConnection
  memory : ℕ → UInt8 := fun _ => 0
  accesses : List BufferAccess := []
  lastHandshakeOffset : ℕ := 0
  serverRandom : Bytes := []
  masterSecret : Bytes := []
  tls12SessionCache : Option (List Tls12Session) := none

abbrev MemoryProgram := EStateM NTSTATUS ConnectionMemory

namespace ConnectionMemory

variable {α : Type}

/-- A program of the connection that leaves the memory alone. -/
def lift (p : TlsProgram α) : MemoryProgram α := fun m =>
  match p m.connection with
  | .ok a connection => .ok a { m with connection }
  | .error status connection => .error status { m with connection }

/-- The access that is made in the state. -/
def accessOf (m : ConnectionMemory) (kind : AccessKind) (first count : ℕ) : BufferAccess where
  kind := kind
  present := m.connection.handshakeBufferPresent
  consumed := m.connection.handshakeConsumed
  length := m.connection.handshakeBuffer.length
  first := first
  count := count

def look (kind : AccessKind) (first count : ℕ) : MemoryProgram Unit := modify fun m =>
  { m with accesses := m.accesses ++ [m.accessOf kind first count] }

def put (kind : AccessKind) (first : ℕ) (data : Bytes) : MemoryProgram Unit := modify fun m =>
  { m with
    memory := Overwriting.write m.memory first data
    accesses := m.accesses ++ [m.accessOf kind first data.length] }

/-! ## Handshake messages -/

/-- `ParseMessage` on the unread octets. -/
def parseBuffered : MemoryProgram (Except NTSTATUS TlsHandshakeMessageView) := do
  let m ← get
  look .parse m.connection.handshakeConsumed m.connection.unread.length
  return m.connection.parseBuffered

/-- What follows a message that does not parse: `RtlMoveMemory` where there is something to
move. -/
def keepIncomplete (status : NTSTATUS) : MemoryProgram Unit := do
  lift (require (status = statusMoreProcessingRequired) status)
  let m ← get
  when (m.connection.handshakeConsumed ≠ 0 ∧ m.connection.unread ≠ [])
    (put .move 0 m.connection.unread)
  lift (modify TlsConnection.compact)

/-- `RtlCopyMemory` behind the octets that are there. -/
def copyFragment (fragment : Bytes) : MemoryProgram Unit := do
  let m ← get
  put .copy m.connection.handshakeBuffer.length fragment

/-- The end of `ReadHandshakeMessage`. -/
def takeHandshakeMessage (parsed : TlsHandshakeMessageView) (updateTranscript : Bool) :
    MemoryProgram TlsHandshakeMessageView := do
  let m ← get
  look .take m.connection.handshakeConsumed parsed.bytesConsumed
  modify fun m => { m with lastHandshakeOffset := m.connection.handshakeConsumed }
  lift (TlsConnection.takeHandshakeMessage parsed updateTranscript)

/-- A message of `ConsumeOptionalPlainHandshakeRecord`. -/
def takePlainHandshakeMessage (parsed : TlsHandshakeMessageView) : MemoryProgram Unit := do
  let m ← get
  look .take m.connection.handshakeConsumed parsed.bytesConsumed
  lift (TlsConnection.takePlainHandshakeMessage parsed)

/-- The loop of `ConsumeOptionalPlainHandshakeRecord`, with the messages that it may still
take. -/
def consumePlainHandshakeMessages : ℕ → MemoryProgram Unit
  | 0 => do
    match ← parseBuffered with
    | .error status => keepIncomplete status
    | .ok _ => throw statusInvalidNetworkResponse
  | messages + 1 => do
    match ← parseBuffered with
    | .error status => keepIncomplete status
    | .ok parsed => do
      takePlainHandshakeMessage parsed
      let m ← get
      when (m.connection.handshakeBuffer ≠ []) (consumePlainHandshakeMessages messages)

def consumeOptionalPlainHandshakeRecord (fragment : Bytes) : MemoryProgram Unit := do
  let m ← get
  lift (require (fragment ≠ [] ∧
    fragment.length ≤ tlsHandshakeBufferLength - m.connection.handshakeBuffer.length)
    statusInvalidNetworkResponse)
  copyFragment fragment
  lift (require m.connection.handshakeBufferPresent statusAccessViolation)
  lift (modify (TlsConnection.buffer fragment))
  consumePlainHandshakeMessages tlsMaxPostHandshakeMessagesPerRecord

variable (E : Environment)

/-- The record that `ReadHandshakeMessage` waits for. -/
def bufferHandshakeRecord : MemoryProgram Unit := do
  let record ← lift (TlsConnection.readRecord E)
  lift (require (record.contentType ≠ .alert) statusInvalidNetworkResponse)
  let m ← get
  lift (require (record.contentType = .handshake ∧
    record.fragment.length ≤ tlsHandshakeBufferLength - m.connection.handshakeBuffer.length)
    statusInvalidNetworkResponse)
  copyFragment record.fragment
  lift (modify (TlsConnection.buffer record.fragment))

/-- The loop of `ReadHandshakeMessage`, with the records that it may still read. -/
def readHandshakeMessageFrom (updateTranscript : Bool) :
    ℕ → MemoryProgram TlsHandshakeMessageView
  | 0 => do
    match ← parseBuffered with
    | .ok parsed => takeHandshakeMessage parsed updateTranscript
    | .error status => do
      keepIncomplete status
      throw statusInvalidNetworkResponse
  | records + 1 => do
    match ← parseBuffered with
    | .ok parsed => takeHandshakeMessage parsed updateTranscript
    | .error status => do
      keepIncomplete status
      bufferHandshakeRecord E
      readHandshakeMessageFrom updateTranscript records

/-- `ReadHandshakeMessage`, `ReadHandshakeMessage13`. -/
def readHandshakeMessage (updateTranscript : Bool) : MemoryProgram TlsHandshakeMessageView := do
  modify fun m => { m with lastHandshakeOffset := m.connection.handshakeConsumed }
  lift (modify fun s => { s with lastHandshake := [] })
  readHandshakeMessageFrom E updateTranscript tlsHandshakeMaxRecords

/-! ## Refinement -/

/-- Without the memory, `p` is `q`. -/
def Refines (p : MemoryProgram α) (q : TlsProgram α) : Prop :=
  ∀ m, match p m with
    | .ok a m' => q m.connection = .ok a m'.connection
    | .error status m' => q m.connection = .error status m'.connection

namespace Refines

variable {β : Type} {p : MemoryProgram α} {q : TlsProgram α}

theorem lift (q : TlsProgram α) : Refines (lift q) q := by
  intro m
  rw [ConnectionMemory.lift]
  cases q m.connection with
  | ok a s => rfl
  | error status s => rfl

theorem pure (a : α) : Refines (pure a) (pure a) := fun _ => rfl

theorem throw (status : NTSTATUS) :
    Refines (throw status : MemoryProgram α) (throw status) := fun _ => rfl

theorem bind {f : α → MemoryProgram β} {g : α → TlsProgram β} (hp : Refines p q)
    (hf : ∀ a, Refines (f a) (g a)) : Refines (p >>= f) (q >>= g) := by
  intro m
  have hm := hp m
  rw [Program.bind_apply]
  cases h : p m with
  | ok a m' =>
    rw [h] at hm
    have hm' := hf a m'
    rw [Program.bind_apply, hm]
    exact hm'
  | error status m' =>
    rw [h] at hm
    rw [Program.bind_apply, hm]

/-- What reads the state. -/
theorem get_bind {f : ConnectionMemory → MemoryProgram β} {g : TlsConnection → TlsProgram β}
    (h : ∀ m, Refines (f m) (g m.connection)) : Refines (get >>= f) (get >>= g) := fun m => h m m

/-- What reads the state once more than `q`. -/
theorem read {f : ConnectionMemory → MemoryProgram α} (h : ∀ m, Refines (f m) q) :
    Refines (get >>= f) q := fun m => h m m

/-- What only changes the memory. -/
theorem modify_bind {f : ConnectionMemory → ConnectionMemory}
    (h : ∀ m, (f m).connection = m.connection) (hp : Refines p q) :
    Refines (modify f >>= fun _ => p) q := by
  intro m
  have hm := hp (f m)
  rw [h m] at hm
  exact hm

theorem ite {c : Prop} [Decidable c] {p' : MemoryProgram α} {q' : TlsProgram α}
    (hp : Refines p q) (hp' : Refines p' q') :
    Refines (if c then p else p') (if c then q else q') := by
  split
  · exact hp
  · exact hp'

theorem when {c : Prop} [Decidable c] {p : MemoryProgram Unit} {q : TlsProgram Unit}
    (h : Refines p q) : Refines (when c p) (when c q) := ite h (pure ())

variable {m m' : ConnectionMemory}

theorem ok {a : α} (h : Refines p q) (hp : p m = .ok a m') :
    q m.connection = .ok a m'.connection := by
  have hm := h m
  rwa [hp] at hm

end Refines

open Refines

theorem look_refines (kind : AccessKind) (first count : ℕ) {p : MemoryProgram α}
    {q : TlsProgram α} (h : Refines p q) : Refines (look kind first count >>= fun _ => p) q :=
  modify_bind (fun _ => rfl) h

theorem put_refines (kind : AccessKind) (first : ℕ) (data : Bytes) {p : MemoryProgram α}
    {q : TlsProgram α} (h : Refines p q) : Refines (put kind first data >>= fun _ => p) q :=
  modify_bind (fun _ => rfl) h

theorem copyFragment_refines (fragment : Bytes) {p : MemoryProgram α} {q : TlsProgram α}
    (h : Refines p q) : Refines (copyFragment fragment >>= fun _ => p) q :=
  fun m => h { m with memory := _, accesses := _ }

theorem parseBuffered_refines {f : Except NTSTATUS TlsHandshakeMessageView → MemoryProgram α}
    {g : TlsConnection → TlsProgram α} (h : ∀ s, Refines (f s.parseBuffered) (g s)) :
    Refines (parseBuffered >>= f) (get >>= g) :=
  fun m => h m.connection { m with accesses := _ }

theorem keepIncomplete_refines (status : NTSTATUS) :
    Refines (keepIncomplete status) (TlsConnection.keepIncomplete status) := by
  refine .bind (Refines.lift _) fun _ => .read fun m => ?_
  rw [Program.when]
  split
  · exact put_refines _ _ _ (Refines.lift _)
  · exact fun m => Refines.lift (modify TlsConnection.compact) m

theorem takeHandshakeMessage_refines (parsed : TlsHandshakeMessageView)
    (updateTranscript : Bool) : Refines (takeHandshakeMessage parsed updateTranscript)
      (TlsConnection.takeHandshakeMessage parsed updateTranscript) :=
  .read fun _ => look_refines _ _ _ (modify_bind (fun _ => rfl) (Refines.lift _))

theorem takePlainHandshakeMessage_refines (parsed : TlsHandshakeMessageView) :
    Refines (takePlainHandshakeMessage parsed)
      (TlsConnection.takePlainHandshakeMessage parsed) :=
  .read fun _ => look_refines _ _ _ (Refines.lift _)

theorem consumePlainHandshakeMessages_refines : ∀ messages : ℕ,
    Refines (consumePlainHandshakeMessages messages)
      (TlsConnection.consumePlainHandshakeMessages messages)
  | 0 => parseBuffered_refines fun s => by
    cases s.parseBuffered with
    | ok parsed => exact .throw _
    | error status => exact keepIncomplete_refines status
  | messages + 1 => parseBuffered_refines fun s => by
    cases s.parseBuffered with
    | error status => exact keepIncomplete_refines status
    | ok parsed =>
      exact .bind (takePlainHandshakeMessage_refines parsed) fun _ => get_bind fun _ =>
        when (consumePlainHandshakeMessages_refines messages)

theorem consumeOptionalPlainHandshakeRecord_refines (fragment : Bytes) :
    Refines (consumeOptionalPlainHandshakeRecord fragment)
      (TlsConnection.consumeOptionalPlainHandshakeRecord fragment) :=
  get_bind fun _ => .bind (Refines.lift _) fun _ => copyFragment_refines _ <|
    .bind (Refines.lift _) fun _ => .bind (Refines.lift _) fun _ =>
      consumePlainHandshakeMessages_refines _

theorem require_set {c : TlsConnection → Prop} [DecidablePred c] (status : NTSTATUS)
    (f : TlsConnection → TlsConnection) :
    (get >>= fun s => require (c s) status >>= fun _ => set (f s) : TlsProgram PUnit) =
      get >>= fun s => require (c s) status >>= fun _ => modify f := by
  funext s
  refine (?_ : (require (c s) status >>= fun _ => set (f s) : TlsProgram PUnit) s =
    (require (c s) status >>= fun _ => modify f : TlsProgram PUnit) s)
  by_cases hc : c s
  · rw [bind_of_ok (require_of hc status s), bind_of_ok (require_of hc status s)]
    rfl
  · rw [bind_of_error (require_of_not hc status s), bind_of_error (require_of_not hc status s)]

theorem bufferHandshakeRecord_refines :
    Refines (bufferHandshakeRecord E) (TlsConnection.bufferHandshakeRecord E) := by
  refine .bind (Refines.lift _) fun record => .bind (Refines.lift _) fun _ => ?_
  refine (congrArg (Refines _) (require_set _ (TlsConnection.buffer record.fragment))).mpr ?_
  exact get_bind fun _ => .bind (Refines.lift _) fun _ => copyFragment_refines _ (Refines.lift _)

theorem readHandshakeMessageFrom_refines (updateTranscript : Bool) : ∀ records : ℕ,
    Refines (readHandshakeMessageFrom E updateTranscript records)
      (TlsConnection.readHandshakeMessageFrom E updateTranscript records)
  | 0 => parseBuffered_refines fun s => by
    cases s.parseBuffered with
    | ok parsed => exact takeHandshakeMessage_refines parsed updateTranscript
    | error status => exact .bind (keepIncomplete_refines status) fun _ => .throw _
  | records + 1 => parseBuffered_refines fun s => by
    cases s.parseBuffered with
    | ok parsed => exact takeHandshakeMessage_refines parsed updateTranscript
    | error status =>
      exact .bind (keepIncomplete_refines status) fun _ =>
        .bind (bufferHandshakeRecord_refines E) fun _ =>
          readHandshakeMessageFrom_refines updateTranscript records

theorem readHandshakeMessage_refines (updateTranscript : Bool) :
    Refines (readHandshakeMessage E updateTranscript)
      (TlsConnection.readHandshakeMessage E updateTranscript) :=
  modify_bind (fun _ => rfl) <| .bind (Refines.lift _) fun _ =>
    readHandshakeMessageFrom_refines E updateTranscript _

end ConnectionMemory

end KernelHttp.Tls
