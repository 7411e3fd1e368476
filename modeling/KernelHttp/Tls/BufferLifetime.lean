/-
  The life of the handshake buffer.

  `Connect` releases the buffer at its end; a handshake record of TLS 1.2 that `Receive` reads
  later is copied to it all the same.
-/
import KernelHttp.Tls.BufferUse
import KernelHttp.Tls.KeyChanges

namespace KernelHttp.Tls

open Program Relation

namespace TlsConnection

/-- A record that `Receive` handles: application data, or a handshake record of TLS 1.3. -/
def Handles (s : TlsConnection) (record : TlsMutablePlaintextRecord) : Prop :=
  record.contentType = .applicationData ∨
    s.tls13RecordProtection = true ∧ record.contentType = .handshake

/-- A record that `Receive` copies to the handshake buffer: a handshake record of TLS 1.2 that
would fit there. -/
structure Copies (s : TlsConnection) (record : TlsMutablePlaintextRecord) : Prop where
  protection : s.tls13RecordProtection = false
  protocol : s.context.protocol = .tls12
  contentType : record.contentType = .handshake
  nonempty : record.fragment ≠ []
  fits : record.fragment.length ≤ tlsHandshakeBufferLength - s.handshakeBuffer.length

/-- What decides how a record is handled is the same. -/
structure SameDuties (s t : TlsConnection) : Prop where
  scratch : t.scratch = s.scratch
  protection : t.tls13RecordProtection = s.tls13RecordProtection
  protocol : s.tls13RecordProtection = false → t.context.protocol = s.context.protocol

variable {s t u : TlsConnection} {record : TlsMutablePlaintextRecord}

theorem SameDuties.trans (h : SameDuties s t) (h' : SameDuties t u) : SameDuties s u where
  scratch := h'.scratch.trans h.scratch
  protection := h'.protection.trans h.protection
  protocol hs := (h'.protocol (h.protection.trans hs)).trans (h.protocol hs)

theorem SameDuties.handles_iff (h : SameDuties s t) : t.Handles record ↔ s.Handles record := by
  rw [Handles, Handles, h.protection]

theorem SameDuties.copies_iff (h : SameDuties s t) : t.Copies record ↔ s.Copies record := by
  have hoctets : t.handshakeBuffer = s.handshakeBuffer := congrArg HandshakeScratch.octets h.scratch
  constructor
  · rintro ⟨hprotection, hprotocol, hcontent, hnonempty, hfits⟩
    rw [h.protection] at hprotection
    exact ⟨hprotection, h.protocol hprotection ▸ hprotocol, hcontent, hnonempty, hoctets ▸ hfits⟩
  · rintro ⟨hprotection, hprotocol, hcontent, hnonempty, hfits⟩
    exact ⟨h.protection ▸ hprotection, (h.protocol hprotection).trans hprotocol, hcontent,
      hnonempty, hoctets ▸ hfits⟩

theorem Copies.not_handles (h : s.Copies record) : ¬ s.Handles record := by
  rintro (hdata | ⟨hprotection, -⟩)
  · rw [h.contentType] at hdata
    cases hdata
  · rw [h.protection] at hprotection
    cases hprotection

/-! ## Reading a record -/

theorem duties_ignoresReading : IgnoresReading fun s : TlsConnection =>
    (s.scratch, s.tls13RecordProtection, s.context) := fun _ _ _ _ _ _ _ _ _ => rfl

section

variable (E : Environment)

theorem readRecord_duties (s : TlsConnection) :
    EndsAt (fun s t => SameDuties s t) (fun _ s t => SameDuties s t) s (readRecord E) := by
  have hsame {t : TlsConnection} (h : ReflTransGen (fun _ _ => False)
      (s.scratch, s.tls13RecordProtection, s.context)
      (t.scratch, t.tls13RecordProtection, t.context)) : SameDuties s t := by
    obtain ⟨hscratch, h⟩ := Prod.mk.inj (eq_of_noStep h)
    obtain ⟨hprotection, hcontext⟩ := Prod.mk.inj h
    exact ⟨hscratch, hprotection, fun _ => congrArg _ hcontext⟩
  exact (readRecord_makes duties_ignoresReading E s).mono (fun _ => hsame) fun _ _ => hsame

theorem readExact_receivesNothing (length : ℕ) : ReceivesNothing (readExact length) := by
  refine Makes.get_bind fun s => Makes.set_bind .refl ?_
  split
  · exact Makes.pure _
  · exact transportFailed_aside reception_ignoresSending _

theorem readRecordHeader_receivesNothing : ReceivesNothing readRecordHeader :=
  Makes.read fun _ => Makes.when (Makes.bind (readExact_receivesNothing _) fun _ =>
    Makes.modify_aside fun _ => rfl)

theorem readRecordFragment_receivesNothing : ReceivesNothing readRecordFragment := by
  refine Makes.read fun s => ?_
  split
  · exact Makes.pure _
  · have hcount : ReceivesNothing recordReceivedTlsRecord := Makes.get_bind fun s =>
      Makes.composes.bind (Makes.require _ s) fun _ t ht => by
        obtain ⟨-, rfl⟩ := require_eq_ok ht
        exact EndsAt.set .refl
    exact Makes.bind (Makes.require _) fun _ => Makes.bind (Makes.require _) fun _ =>
      Makes.bind (Makes.require _) fun _ => Makes.bind hcount fun _ => Makes.read fun _ =>
        Makes.bind (readExact_receivesNothing _) fun _ => Makes.modify_aside fun _ => rfl

theorem openRecord_receivesNothing (view : TlsRecordView) : ReceivesNothing (openRecord E view) :=
  Makes.read fun _ => Makes.ite
    (Makes.get_bind fun _ => Makes.set_bind .refl (Makes.bind (Makes.require _) fun _ =>
      Makes.bind (Makes.modify_aside fun _ => rfl) fun _ => Makes.pure _))
    (Makes.bind (Makes.require _) fun _ => Makes.bind (Makes.require _) fun _ =>
      Makes.bind (Makes.modify_aside fun _ => rfl) fun _ => Makes.pure _)

variable {E}

theorem ReceivesNothing.received {α : Type} {p : TlsProgram α} (hp : ReceivesNothing p)
    {a : α} (h : p s = .ok a t) : t.history.received = s.history.received :=
  congrArg Reception.received (eq_of_noStep ((hp s).ok h))

variable {status : NTSTATUS}

theorem ReceivesNothing.received_error {α : Type} {p : TlsProgram α} (hp : ReceivesNothing p)
    (h : p s = .error status t) :
    t.history.received = s.history.received :=
  congrArg Reception.received (eq_of_noStep ((hp s).error h))

theorem readRecord_received_ok (h : readRecord E s = .ok record t) :
    t.history.received = s.history.received ++ [record] := by
  obtain ⟨_, u, hu, h⟩ := bind_eq_ok h
  obtain ⟨_, v, hv, h⟩ := bind_eq_ok h
  obtain ⟨_, _, hget, h⟩ := bind_eq_ok h
  cases hget
  obtain ⟨view, _, hview, h⟩ := bind_eq_ok h
  obtain ⟨-, rfl⟩ := ofExcept_eq_ok hview
  obtain ⟨record', w, hw, h⟩ := bind_eq_ok h
  have hreceived := (ReceivesNothing.received (openRecord_receivesNothing E view) hw).trans <|
    (ReceivesNothing.received readRecordFragment_receivesNothing hv).trans
      (ReceivesNothing.received readRecordHeader_receivesNothing hu)
  cases h
  exact congrArg (· ++ [record]) hreceived

theorem readRecord_received_error (h : readRecord E s = .error status t) :
    t.history.received = s.history.received := by
  obtain h | ⟨_, u, hu, h⟩ := bind_eq_error h
  · exact ReceivesNothing.received_error readRecordHeader_receivesNothing h
  have hheader := ReceivesNothing.received readRecordHeader_receivesNothing hu
  obtain h | ⟨_, v, hv, h⟩ := bind_eq_error h
  · exact (ReceivesNothing.received_error readRecordFragment_receivesNothing h).trans hheader
  have hfragment := (ReceivesNothing.received readRecordFragment_receivesNothing hv).trans hheader
  obtain h | ⟨_, _, hget, h⟩ := bind_eq_error h
  · cases h
  cases hget
  obtain h | ⟨view, _, hview, h⟩ := bind_eq_error h
  · rw [← (ofExcept_eq_error h).2]
    exact hfragment
  obtain ⟨-, rfl⟩ := ofExcept_eq_ok hview
  obtain h | ⟨_, _, -, h⟩ := bind_eq_error h
  · exact (ReceivesNothing.received_error (openRecord_receivesNothing E view) h).trans hfragment
  · cases h

end

end TlsConnection

/-! ## `Receive` -/

namespace ConnectionMemory

/-- What `Receive` does with the records that it reads: it handles them, up to one that it
refuses, or one that it copies. -/
inductive Reads (m : ConnectionMemory) : List TlsMutablePlaintextRecord → List BufferAccess →
    EStateM.Result NTSTATUS ConnectionMemory Bytes → Prop
  | handled {records : List TlsMutablePlaintextRecord}
      {result : EStateM.Result NTSTATUS ConnectionMemory Bytes}
      (hrecords : ∀ record ∈ records, m.connection.Handles record) : Reads m records [] result
  | refused {records : List TlsMutablePlaintextRecord} {record : TlsMutablePlaintextRecord}
      {status : NTSTATUS} {m' : ConnectionMemory}
      (hrecords : ∀ record ∈ records, m.connection.Handles record)
      (hcopies : ¬ m.connection.Copies record) (hstatus : status ≠ statusAccessViolation) :
      Reads m (records ++ [record]) [] (.error status m')
  | copied {records : List TlsMutablePlaintextRecord} {record : TlsMutablePlaintextRecord}
      {access : BufferAccess} {m' : ConnectionMemory}
      (hrecords : ∀ record ∈ records, m.connection.Handles record)
      (hcopies : m.connection.Copies record) (haccess : access.present = false) :
      Reads m (records ++ [record]) [access] (.error statusAccessViolation m')

variable {m m' : ConnectionMemory}

/-- A record that is handled in front of others. -/
theorem Reads.cons {record : TlsMutablePlaintextRecord} {records : List TlsMutablePlaintextRecord}
    {accesses : List BufferAccess} {result : EStateM.Result NTSTATUS ConnectionMemory Bytes}
    (h : Reads m' records accesses result)
    (hsame : TlsConnection.SameDuties m.connection m'.connection)
    (hrecord : m.connection.Handles record) : Reads m (record :: records) accesses result := by
  have hcons {records : List TlsMutablePlaintextRecord}
      (hrecords : ∀ record ∈ records, m'.connection.Handles record) :
      ∀ r ∈ record :: records, m.connection.Handles r := by
    intro r hr
    rcases List.mem_cons.1 hr with rfl | hr
    · exact hrecord
    · exact hsame.handles_iff.1 (hrecords r hr)
  cases h with
  | handled hrecords => exact .handled (hcons hrecords)
  | refused hrecords hcopies hstatus =>
    rw [← List.cons_append]
    exact .refused (hcons hrecords) (fun h => hcopies (hsame.copies_iff.2 h)) hstatus
  | copied hrecords hcopies haccess =>
    rw [← List.cons_append]
    exact .copied (hcons hrecords) (hsame.copies_iff.1 hcopies) haccess

/-- The state in which a program ends. -/
def stateOf {α : Type} : EStateM.Result NTSTATUS ConnectionMemory α → ConnectionMemory
  | .ok _ m => m
  | .error _ m => m

theorem after_eq_stateOf {α : Type} (p : MemoryProgram α) (m : ConnectionMemory) :
    after p m = stateOf (p m) := by
  rw [after]
  cases p m with
  | ok a m' => rfl
  | error status m' => rfl

/-- From `m`, a program reads records, and makes accesses. -/
structure Receives (m : ConnectionMemory) (result : EStateM.Result NTSTATUS ConnectionMemory Bytes)
    (records : List TlsMutablePlaintextRecord) (more : List BufferAccess) : Prop where
  present : (stateOf result).connection.handshakeBufferPresent =
    m.connection.handshakeBufferPresent
  received : (stateOf result).connection.history.received =
    m.connection.history.received ++ records
  accesses : (stateOf result).accesses = m.accesses ++ more
  reads : Reads m records more result

variable {records : List TlsMutablePlaintextRecord} {more : List BufferAccess}
  {result : EStateM.Result NTSTATUS ConnectionMemory Bytes}

/-- What follows a record that is handled. -/
theorem Receives.cons {record : TlsMutablePlaintextRecord} (h : Receives m' result records more)
    (hsame : TlsConnection.SameDuties m.connection m'.connection)
    (hreceived : m'.connection.history.received = m.connection.history.received ++ [record])
    (haccesses : m'.accesses = m.accesses) (hrecord : m.connection.Handles record) :
    Receives m result (record :: records) more where
  present := h.present.trans (congrArg HandshakeScratch.present hsame.scratch)
  received := by rw [h.received, hreceived, List.append_assoc, List.singleton_append]
  accesses := by rw [h.accesses, haccesses]
  reads := h.reads.cons hsame hrecord

theorem consumeOptionalPlainHandshakeRecord_absent (fragment : Bytes)
    (hpresent : m.connection.handshakeBufferPresent = false)
    (hfits : fragment ≠ [] ∧
      fragment.length ≤ tlsHandshakeBufferLength - m.connection.handshakeBuffer.length) :
    consumeOptionalPlainHandshakeRecord fragment m = .error statusAccessViolation
      { m with
        memory := Overwriting.write m.memory m.connection.handshakeBuffer.length fragment
        accesses := m.accesses ++
          [m.accessOf .copy m.connection.handshakeBuffer.length fragment.length] } := by
  have hrequire (m' : ConnectionMemory) : lift (require (fragment ≠ [] ∧ fragment.length ≤
      tlsHandshakeBufferLength - m.connection.handshakeBuffer.length)
      statusInvalidNetworkResponse) m' = .ok () m' := by
    rw [lift, require_of hfits]
  have habsent (m' : ConnectionMemory) : lift (require
      (m.connection.handshakeBufferPresent = true) statusAccessViolation) m' =
      .error statusAccessViolation m' := by
    rw [lift, require_of_not (by rw [hpresent]; exact Bool.false_ne_true)]
  refine (bind_of_ok (hrequire m) _).trans ?_
  exact bind_of_error (habsent _) _

theorem alertStatus_ne (fragment : Bytes) :
    TlsConnection.alertStatus fragment ≠ statusAccessViolation := by
  rw [TlsConnection.alertStatus.eq_def]
  split
  · split_ifs <;> decide
  · decide

/-- A record is read, and nothing else happens to the buffer. -/
structure HasRead (m : ConnectionMemory) (record : TlsMutablePlaintextRecord)
    (m' : ConnectionMemory) : Prop where
  duties : TlsConnection.SameDuties m.connection m'.connection
  received : m'.connection.history.received = m.connection.history.received ++ [record]
  accesses : m'.accesses = m.accesses

variable {record : TlsMutablePlaintextRecord} {status : NTSTATUS}

theorem HasRead.present (h : HasRead m record m') :
    m'.connection.handshakeBufferPresent = m.connection.handshakeBufferPresent :=
  congrArg HandshakeScratch.present h.duties.scratch

/-- The record is the last one, and is handled. -/
theorem HasRead.last (h : HasRead m record (stateOf result))
    (hrecord : m.connection.Handles record) : ∃ records more, Receives m result records more :=
  ⟨[record], [], h.present, h.received, h.accesses.trans (List.append_nil _).symm,
    .handled fun r hr => by rwa [List.mem_singleton.1 hr]⟩

/-- The record is refused. -/
theorem HasRead.refused (h : HasRead m record m') (hcopies : ¬ m.connection.Copies record)
    (hstatus : status ≠ statusAccessViolation) :
    ∃ records more, Receives m (.error status m') records more :=
  ⟨[record], [], h.present, h.received, h.accesses.trans (List.append_nil _).symm,
    @Reads.refused m [] _ _ _ nofun hcopies hstatus⟩

theorem HasRead.andThen (h : HasRead m record m') (hrecord : m.connection.Handles record)
    (hmore : ∃ records more, Receives m' result records more) :
    ∃ records more, Receives m result records more := by
  obtain ⟨records, more, hmore⟩ := hmore
  exact ⟨_, _, hmore.cons h.duties h.received h.accesses hrecord⟩

variable {t : TlsConnection}

theorem readRecord_hasRead (E : Environment)
    (h : TlsConnection.readRecord E m.connection = .ok record t) :
    HasRead m record { m with connection := t } :=
  ⟨(TlsConnection.readRecord_duties E _).ok h, TlsConnection.readRecord_received_ok h, rfl⟩

theorem HasRead.trans_receivesNothing (h : HasRead m record m')
    (hprotection : m'.connection.tls13RecordProtection = true)
    (ht : t.reception = m'.connection.reception) :
    HasRead m record { m' with connection := t } := by
  obtain ⟨hscratch, hkept, hreceived⟩ := Reception.mk.inj ht
  have hsame : TlsConnection.SameDuties m'.connection t := by
    refine ⟨hscratch, hkept, fun hfalse => ?_⟩
    rw [hprotection] at hfalse
    cases hfalse
  exact ⟨h.duties.trans hsame, hreceived.trans h.received, h.accesses⟩

theorem lift_of_ok {α : Type} {q : TlsProgram α} {a : α}
    (h : q m.connection = .ok a t) : lift q m = .ok a { m with connection := t } := by
  rw [lift, h]

theorem lift_of_error {α : Type} {q : TlsProgram α} (h : q m.connection = .error status t) :
    lift q m = .error status { m with connection := t } := by
  rw [lift, h]

theorem get_bind_apply {α : Type} (f : ConnectionMemory → MemoryProgram α)
    (m : ConnectionMemory) : (get >>= f) m = f m m := rfl

theorem receiveFrom_receives (E : Environment) (length : ℕ) :
    ∀ (turns emptyRecords postHandshakeRecords : ℕ) (m : ConnectionMemory),
      m.connection.handshakeBufferPresent = false →
      (m.connection.tls13RecordProtection = false → postHandshakeRecords = 0) →
      ∃ records more,
        Receives m (receiveFrom E length turns emptyRecords postHandshakeRecords m) records more := by
  intro turns
  induction turns with
  | zero =>
    intro _ _ m _ _
    exact ⟨[], [], rfl, (List.append_nil _).symm, (List.append_nil _).symm, .handled nofun⟩
  | succ turns ih =>
    intro emptyRecords postHandshakeRecords m hpresent hpost
    cases hread : TlsConnection.readRecord E m.connection with
    | error status t =>
      rw [show receiveFrom E length (turns + 1) emptyRecords postHandshakeRecords m = _ from
        bind_of_error (lift_of_error hread) _]
      have hsame := (TlsConnection.readRecord_duties E _).error hread
      exact ⟨[], [], congrArg HandshakeScratch.present hsame.scratch,
        (TlsConnection.readRecord_received_error hread).trans (List.append_nil _).symm,
        (List.append_nil _).symm, .handled nofun⟩
    | ok record t =>
      have hhas := readRecord_hasRead E hread
      rw [show receiveFrom E length (turns + 1) emptyRecords postHandshakeRecords m = _ from
        bind_of_ok (lift_of_ok hread) _]
      rw [get_bind_apply]
      have hkept (hsame : t.tls13RecordProtection = m.connection.tls13RecordProtection) :
          t.tls13RecordProtection = false → postHandshakeRecords = 0 := fun h => hpost (hsame ▸ h)
      split
      case isTrue h13 =>
        have hrecord : m.connection.Handles record := .inr ⟨hhas.duties.protection ▸ h13.1, h13.2⟩
        have hquiet := ReceivesNothing.consumeTls13PostHandshakeRecord E record.fragment t
        by_cases hmany : postHandshakeRecords < tlsApplicationMaxPostHandshakeRecords
        · rw [bind_of_ok (lift_of_ok (require_of hmany _ _))]
          cases hconsume : TlsConnection.consumeTls13PostHandshakeRecord E record.fragment t with
          | error status u =>
            rw [bind_of_error (lift_of_error hconsume)]
            have hhas' := hhas.trans_receivesNothing h13.1 (eq_of_noStep (hquiet.error hconsume))
            exact hhas'.last hrecord
          | ok _ u =>
            rw [bind_of_ok (lift_of_ok hconsume)]
            have hhas' := hhas.trans_receivesNothing h13.1 (eq_of_noStep (hquiet.ok hconsume))
            refine hhas'.andThen hrecord (ih _ _ _ (hhas'.present.trans hpresent) fun hfalse => ?_)
            rw [hhas'.duties.protection, ← hhas.duties.protection] at hfalse
            cases hfalse.symm.trans h13.1
        · rw [bind_of_error (lift_of_error (require_of_not hmany _ _))]
          exact hhas.last hrecord
      split
      case isTrue h13 h12 =>
        have hfalse := Bool.eq_false_of_not_eq_true h12.1
        rw [hkept hhas.duties.protection hfalse, bind_of_ok (lift_of_ok (require_of (by decide) _ _))]
        have habsent : t.handshakeBufferPresent = false := hhas.present.trans hpresent
        by_cases hfits : record.fragment ≠ [] ∧ record.fragment.length ≤
            tlsHandshakeBufferLength - t.handshakeBuffer.length
        · rw [bind_of_error (consumeOptionalPlainHandshakeRecord_absent _ habsent hfits)]
          have hcopies : m.connection.Copies record := hhas.duties.copies_iff.1
            ⟨hfalse, h12.2.1, h12.2.2, hfits.1, hfits.2⟩
          exact ⟨[record], _, hhas.present, hhas.received, rfl,
            @Reads.copied m [] _ _ _ nofun hcopies habsent⟩
        · have hrefused : consumeOptionalPlainHandshakeRecord record.fragment
              { m with connection := t } =
                .error statusInvalidNetworkResponse { m with connection := t } :=
            bind_of_error (lift_of_error (require_of_not hfits _ _)) _
          rw [bind_of_error hrefused]
          refine hhas.refused (fun h => hfits ?_) (by decide)
          exact ⟨h.nonempty, (hhas.duties.copies_iff.2 h).fits⟩
      have hcopies (h13 : ¬ (¬ t.tls13RecordProtection = true ∧ t.context.protocol = .tls12 ∧
          record.contentType = .handshake)) : ¬ m.connection.Copies record := fun h =>
        have h := hhas.duties.copies_iff.2 h
        h13 ⟨by rw [h.protection]; exact Bool.false_ne_true, h.protocol, h.contentType⟩
      split
      case isTrue h13 h12 halert =>
        exact hhas.refused (hcopies h12) (alertStatus_ne _)
      split
      case isTrue h13 h12 halert hleft =>
        exact hhas.refused (hcopies h12) (by decide)
      split
      case isTrue h13 h12 halert hleft hdata =>
        exact hhas.refused (hcopies h12) (by decide)
      case isFalse h13 h12 halert hleft hdata =>
        have hrecord : m.connection.Handles record := .inl (not_not.1 hdata)
        split
        · by_cases hempty : emptyRecords < tlsApplicationMaxEmptyRecords
          · rw [bind_of_ok (lift_of_ok (require_of hempty _ _))]
            exact hhas.andThen hrecord (ih _ _ _ (hhas.present.trans hpresent)
              (hkept hhas.duties.protection))
          · rw [bind_of_error (lift_of_error (require_of_not hempty _ _))]
            exact hhas.last hrecord
        · refine HasRead.last ?_ hrecord
          exact ⟨⟨hhas.duties.scratch, hhas.duties.protection, hhas.duties.protocol⟩, hhas.received,
            rfl⟩

theorem receive_receives (E : Environment) (length : ℕ) (m : ConnectionMemory)
    (hpresent : m.connection.handshakeBufferPresent = false) :
    ∃ records more, Receives m (receive E length m) records more := by
  rw [receive, get_bind_apply]
  by_cases hready : m.connection.context.established ∧ length ≠ 0
  · rw [bind_of_ok (lift_of_ok (require_of hready _ _))]
    split
    · exact ⟨[], [], rfl, (List.append_nil _).symm, (List.append_nil _).symm, .handled nofun⟩
    · exact receiveFrom_receives E length _ 0 0 m hpresent fun _ => rfl
  · rw [bind_of_error (lift_of_error (require_of_not hready _ _))]
    exact ⟨[], [], rfl, (List.append_nil _).symm, (List.append_nil _).symm, .handled nofun⟩

/-! ## Connections -/

/-- The records that a `Receive` reads. -/
def recordsRead (E : Environment) (length : ℕ) (m : ConnectionMemory) :
    List TlsMutablePlaintextRecord :=
  (after (receive E length) m).connection.history.received.drop
    m.connection.history.received.length

theorem Receives.recordsRead {E : Environment} {length : ℕ}
    (h : Receives m (receive E length m) records more) : recordsRead E length m = records := by
  rw [ConnectionMemory.recordsRead, after_eq_stateOf, h.received, List.drop_left]

/-- The accesses are sound unless a record is copied. -/
theorem Reads.sound_iff (h : Reads m records more result) :
    (∀ access ∈ more, access.Sound) ↔ ∀ record ∈ records, ¬ m.connection.Copies record := by
  cases h with
  | handled hrecords =>
    exact ⟨fun _ record hr hcopies => hcopies.not_handles (hrecords record hr), fun _ => nofun⟩
  | refused hrecords hcopies hstatus =>
    refine ⟨fun _ r hr => ?_, fun _ => nofun⟩
    rcases List.mem_append.1 hr with hr | hr
    · exact fun hc => hc.not_handles (hrecords r hr)
    · rwa [List.mem_singleton.1 hr]
  | copied hrecords hcopies haccess =>
    constructor
    · intro hsound
      cases haccess.symm.trans (hsound _ (List.mem_singleton_self _)).present
    · intro hnone
      exact absurd hcopies (hnone _ (List.mem_append_right _ (List.mem_singleton_self _)))

theorem Reads.handles_or_error (h : Reads m records more result)
    (hnone : ∀ record ∈ records, ¬ m.connection.Copies record) :
    ∀ record ∈ records, m.connection.Handles record ∨
      ∃ status m', result = .error status m' ∧ status ≠ statusAccessViolation := by
  intro record hr
  cases h with
  | handled hrecords => exact .inl (hrecords record hr)
  | refused hrecords hcopies hstatus => exact .inr ⟨_, _, rfl, hstatus⟩
  | copied hrecords hcopies haccess =>
    exact absurd hcopies (hnone _ (List.mem_append_right _ (List.mem_singleton_self _)))

section

variable (E : Tls12Environment) (options : TlsConnectOptions)

def runCalls (calls : List TlsConnection.Call) (m : ConnectionMemory) : ConnectionMemory :=
  calls.foldl (fun m call => runCall E call m) m

/-- No call reads a record that is copied. -/
def Spared (calls : List TlsConnection.Call) (m : ConnectionMemory) : Prop :=
  ∀ earlier length later, calls = earlier ++ .receive length :: later →
    ∀ record ∈ recordsRead E.toEnvironment length (runCalls E earlier m),
      ¬ (runCalls E earlier m).connection.Copies record

/-- What a call does, while the buffer is not there. -/
structure CallDone (call : TlsConnection.Call) (m : ConnectionMemory)
    (more : List BufferAccess) : Prop where
  present : (runCall E call m).connection.handshakeBufferPresent = false
  accesses : (runCall E call m).accesses = m.accesses ++ more
  sound_iff : (∀ access ∈ more, access.Sound) ↔ ∀ length, call = .receive length →
    ∀ record ∈ ConnectionMemory.recordsRead E.toEnvironment length m,
      ¬ m.connection.Copies record

theorem runCall_done (call : TlsConnection.Call)
    (hpresent : m.connection.handshakeBufferPresent = false) :
    ∃ more, CallDone E call m more := by
  cases call with
  | send data =>
    have hsame : (runCall E (.send data) m).connection.scratch = m.connection.scratch ∧
        (runCall E (.send data) m).accesses = m.accesses := by
      have hsend := lift_endsAt (m := m) (q := TlsConnection.send E.toEnvironment data)
        (Q := fun m' => m'.connection.scratch = m.connection.scratch ∧ m'.accesses = m.accesses)
        (((ReceivesNothing.send E.toEnvironment data).leavesScratch m.connection).mono
          (fun _ h => ⟨eq_of_noStep h, rfl⟩) fun _ _ h => ⟨eq_of_noStep h, rfl⟩)
      rw [EndsAt] at hsend
      rw [runCall, after]
      split at hsend
      · exact hsend
      · exact hsend
    refine ⟨[], (congrArg HandshakeScratch.present hsame.1).trans hpresent, ?_, ?_⟩
    · rw [hsame.2, List.append_nil]
    · exact ⟨fun _ _ h => (by cases h), fun _ _ h => by cases h⟩
  | receive length =>
    obtain ⟨records, more, h⟩ := receive_receives E.toEnvironment length m hpresent
    have hstate : runCall E (.receive length) m = _ := after_eq_stateOf _ m
    refine ⟨more, ?_, hstate ▸ h.accesses, ?_⟩
    · rw [hstate, h.present, hpresent]
    rw [h.reads.sound_iff, ← h.recordsRead]
    constructor
    · rintro hnone _ ⟨⟩
      exact hnone
    · intro hnone
      exact hnone length rfl

theorem spared_cons (call : TlsConnection.Call) (calls : List TlsConnection.Call)
    (m : ConnectionMemory) : Spared E (call :: calls) m ↔
      (∀ length, call = .receive length → ∀ record ∈ recordsRead E.toEnvironment length m,
        ¬ m.connection.Copies record) ∧ Spared E calls (runCall E call m) := by
  constructor
  · intro h
    refine ⟨fun length hcall => ?_, fun earlier length later hcalls => ?_⟩
    · exact h [] length calls (congrArg (· :: calls) hcall)
    · exact h (call :: earlier) length later (congrArg (call :: ·) hcalls)
  · rintro ⟨hcall, hcalls⟩ earlier length later heq
    cases earlier with
    | nil => exact hcall length (List.cons.inj heq).1
    | cons first earlier =>
      obtain ⟨rfl, htail⟩ := List.cons.inj heq
      exact hcalls earlier length later htail

theorem runCalls_sound_iff (calls : List TlsConnection.Call) : ∀ m : ConnectionMemory,
    m.connection.handshakeBufferPresent = false →
      ((∀ access ∈ (runCalls E calls m).accesses, access.Sound) ↔
        (∀ access ∈ m.accesses, access.Sound) ∧ Spared E calls m) := by
  induction calls with
  | nil =>
    intro m _
    refine ⟨fun h => ⟨h, fun earlier length later heq => ?_⟩, And.left⟩
    exact absurd heq.symm (List.append_ne_nil_of_right_ne_nil _ (List.cons_ne_nil _ _))
  | cons call calls ih =>
    intro m hpresent
    obtain ⟨more, hdone⟩ := runCall_done E call hpresent
    have hrun : runCalls E (call :: calls) m = runCalls E calls (runCall E call m) := rfl
    rw [hrun, ih _ hdone.present, hdone.accesses, spared_cons, ← hdone.sound_iff, ← and_assoc]
    refine and_congr_left fun _ => ?_
    simp only [List.mem_append, or_imp, forall_and]

theorem runCalls_present (calls : List TlsConnection.Call) : ∀ m : ConnectionMemory,
    m.connection.handshakeBufferPresent = false →
      (runCalls E calls m).connection.handshakeBufferPresent = false := by
  induction calls with
  | nil => exact fun _ => id
  | cons call calls ih =>
    intro m hpresent
    obtain ⟨more, hdone⟩ := runCall_done E call hpresent
    exact ih _ hdone.present

theorem attempt_ends {α : Type} (p : MemoryProgram α) (m : ConnectionMemory) :
    ∃ result, attempt p m = .ok result (after p m) := by
  rw [attempt, after]
  cases p m with
  | ok a m' => exact ⟨.ok a, rfl⟩
  | error status m' => exact ⟨.error status, rfl⟩

theorem connect_released (incoming : List TransportRead) :
    (after (connect E options) (constructed incoming)).connection.handshakeBufferPresent = false ∧
      ∀ access ∈ (after (connect E options) (constructed incoming)).accesses, access.Sound := by
  have hends : EndsAt (fun _ m => m.connection.handshakeBufferPresent = false ∧
      ∀ access ∈ m.accesses, access.Sound) (fun _ _ m =>
        m.connection.handshakeBufferPresent = false ∧ ∀ access ∈ m.accesses, access.Sound)
      (constructed incoming) (connect E options) := by
    refine require_bind ⟨rfl, nofun⟩ fun _ => require_bind ⟨rfl, nofun⟩ fun _ => ?_
    have huse := (handshake_keeps E options).after (prepared_inUse options (constructed incoming))
    obtain ⟨result, hresult⟩ :=
      attempt_ends (handshake E options) (prepared options (constructed incoming))
    refine EndsAt.of_eq (bind_of_ok rfl _) (EndsAt.of_eq (bind_of_ok hresult _) ?_)
    refine EndsAt.of_eq (bind_of_ok rfl _) ?_
    exact endsAt_iff.2 ⟨fun _ s' h => (ofExcept_eq_ok h).2 ▸ ⟨rfl, huse.accesses⟩,
      fun _ s' h => (ofExcept_eq_error h).2 ▸ ⟨rfl, huse.accesses⟩⟩
  rw [EndsAt] at hends
  rw [after]
  split at hends
  · exact hends
  · exact hends

/-- What a connection does with its handshake buffer: every access is made while the buffer is
there, within its bounds, and a record that `Receive` does not handle makes it return an error.
A write through a null pointer is no error that it returns. -/
structure BufferUse (calls : List TlsConnection.Call) (incoming : List TransportRead) : Prop where
  accesses : ∀ access ∈ (session E options calls (constructed incoming)).accesses, access.Sound
  receives : ∀ earlier length later, calls = earlier ++ .receive length :: later →
    ∀ m, m = session E options earlier (constructed incoming) →
      ∀ record ∈ recordsRead E.toEnvironment length m, m.connection.Handles record ∨
        ∃ status m', receive E.toEnvironment length m = .error status m' ∧
          status ≠ statusAccessViolation

/-- **The handshake buffer is used as it must be exactly when no handshake record of TLS 1.2 that
would fit into it is received behind the handshake.** -/
theorem session_bufferUse (calls : List TlsConnection.Call) (incoming : List TransportRead) :
    BufferUse E options calls incoming ↔
      ∀ earlier length later, calls = earlier ++ .receive length :: later →
        ∀ m, m = session E options earlier (constructed incoming) →
          ∀ record ∈ recordsRead E.toEnvironment length m, ¬ m.connection.Copies record := by
  obtain ⟨hpresent, hsound⟩ := connect_released E options incoming
  have hiff := runCalls_sound_iff E calls _ hpresent
  constructor
  · rintro ⟨haccesses, -⟩ earlier length later hcalls _ rfl
    exact (hiff.1 haccesses).2 earlier length later hcalls
  · intro hspared
    have hcalls : Spared E calls (after (connect E options) (constructed incoming)) :=
      fun earlier length later hcalls => hspared earlier length later hcalls _ rfl
    refine ⟨hiff.2 ⟨hsound, hcalls⟩, ?_⟩
    rintro earlier length later heq _ rfl
    have hbehind := runCalls_present E earlier _ hpresent
    obtain ⟨records, more, h⟩ := receive_receives E.toEnvironment length _ hbehind
    have hnone := hcalls earlier length later heq
    rw [h.recordsRead] at hnone
    intro record hr
    exact h.reads.handles_or_error hnone record (h.recordsRead ▸ hr)

end

end ConnectionMemory

/-! ## A server of TLS 1.2 -/

open BigEndian

/-- `plainEnvironment` for TLS 1.2. -/
def plainEnvironment12 : Tls12Environment where
  toEnvironment := plainEnvironment
  certificateKey := Unit
  provider :=
    { hash := fun _ _ => .ok []
      importRsaPublicKey := fun _ _ => .ok ()
      importEcdsaPublicKey := fun _ _ => .ok ()
      verifyEd25519 := fun _ _ _ => true
      verifyEd448 := fun _ _ _ => true
      verifySignature := fun _ _ _ _ => true }
  currentTime := .ok 0
  groups := { find := fun _ _ => .ok .x25519, validate := fun _ _ => .ok () }
  importSubjectPublicKey _ := .ok ()
  importEcdhPublicKey _ _ := .ok ()
  generatePremaster := .ok ⟨List.replicate tlsMaxPremasterRandomLength 4, rfl⟩
  encryptRsaPkcs1 _ premasterSecret := .ok premasterSecret

/-- A session of `plainServer12`. -/
def plainSession : Tls12Session where
  sessionId := [1, 2, 3, 4]
  ticket := []
  ticketLifetimeHintSeconds := 0
  issueTimeMilliseconds := 0
  serverName := text "a.b"
  alpn := []
  cipherSuite := .tlsEcdheRsaWithAes128GcmSha256
  masterSecret := List.replicate tlsMasterSecretLength 5
  policyIdentity := TlsConnection.policyIdentityOf {}

def plainOptions12 : TlsConnectOptions where
  serverName := text "a.b"
  maximumProtocol := .tls12
  verifyCertificate := false
  tls12SessionCache := some [plainSession]

/-- A ServerHello that resumes the session: extended_master_secret, renegotiation_info, and
further extensions. -/
def plainServerHello12 (extensions : Bytes) : Bytes :=
  let extensions := extensionOctets extensionExtendedMasterSecret [] ++
    extensionOctets extensionRenegotiationInfo [0] ++ extensions
  handshakeMessage .serverHello ([3, 3] ++ List.replicate tlsRandomLength 1 ++
    [4] ++ plainSession.sessionId ++ [0xc0, 0x2f, 0] ++ bigEndian 2 extensions.length ++
    extensions)

/-- A record of TLS 1.2 as `plainPrimitives` protect it. -/
def plainTls12Record (contentType : UInt8) (fragment : Bytes) : Bytes :=
  [contentType, 3, 3] ++ bigEndian 2 (fragment.length + 24) ++ List.replicate 8 0 ++ fragment ++
    List.replicate 16 0

namespace ConnectionMemory

/-- The ClientHello that `plainEnvironment12` makes. -/
def plainClientHello12 : Bytes :=
  match (do initializeClient plainEnvironment12; offerHello12 plainEnvironment12 plainOptions12)
      (TlsConnection.prepared plainOptions12.toTlsClientConnectionOptions {}) with
  | .ok (_, message) _ => message
  | .error _ _ => []

def plainFinished12 (transcript : Bytes) : Bytes :=
  handshakeMessage .finished (TlsHandshake12.computeVerifyData summingKeys
    plainSession.cipherSuite plainSession.masterSecret false (summingKeys.hash .sha256 transcript))

/-- A server that resumes the session, and sends a HelloRequest later. -/
def plainServer12 : List TransportRead :=
  [.octets (plaintextRecord 22 (plainServerHello12 []) ++ plaintextRecord 20 [1] ++
    plainTls12Record 22 (plainFinished12 (plainClientHello12 ++ plainServerHello12 [])) ++
    plainTls12Record 22 [0, 0, 0, 0])]

/-- The HelloRequest is written through a null pointer. -/
theorem plainServer12_absent :
    (after (connect plainEnvironment12 plainOptions12) (constructed plainServer12)
      ).connection.context.established = true ∧
    ¬ BufferUse plainEnvironment12 plainOptions12 [.receive 10] plainServer12 := by
  refine ⟨by decide +kernel, fun h => ?_⟩
  have hlast : (⟨.copy, false, 0, 0, 0, 4⟩ : BufferAccess) ∈
      (session plainEnvironment12 plainOptions12 [.receive 10]
        (constructed plainServer12)).accesses := by decide +kernel
  cases (h.accesses _ hlast).present

end ConnectionMemory

end KernelHttp.Tls
