/-
  The steps of a TLS connection.

  Every program makes steps on what the handshake leaves behind (`Core`), wherever it fails.
-/
import KernelHttp.Tls.Reading
import KernelHttp.Tls.RecordRoundTrip

namespace KernelHttp.Tls

open Program Relation

/-- The context and the keys, the transcript, the handshake buffer, and what has passed. -/
structure Core where
  context : TlsContext
  clientWriteState : TlsAeadCipherState
  transcript : HashAlgorithm × Bytes
  externalSessionCache : Option (List Tls13SessionTicket)
  handshakeBuffer : Bytes
  handshakeConsumed : ℕ
  messages : List HandshakeEntry
  sent : List SentRecord
  readEpoch : ℕ
  bufferEpochs : List ℕ
  recordEpochs : List ℕ
  leftovers : List ℕ

def TlsConnection.core (s : TlsConnection) : Core where
  context := s.context
  clientWriteState := s.clientWriteState
  transcript := (s.transcriptAlgorithm, s.transcript)
  externalSessionCache := s.externalSessionCache
  handshakeBuffer := s.handshakeBuffer
  handshakeConsumed := s.handshakeConsumed
  messages := s.history.messages
  sent := s.history.sent
  readEpoch := s.history.readEpoch
  bufferEpochs := s.history.bufferEpochs
  recordEpochs := s.history.recordEpochs
  leftovers := s.history.leftovers

theorem TlsConnection.core_ignoresReading : IgnoresReading TlsConnection.core :=
  fun _ _ _ _ _ _ _ _ _ => rfl

namespace Core

variable (c : Core)

def clientMessage (octets : Bytes) : Core :=
  { c with messages := c.messages ++ [{ sender := .client, octets }] }

/-- `n` octets of the handshake buffer are processed as a message. -/
def bufferedMessage (n : ℕ) : Core :=
  { c with messages := c.messages ++
    [{ sender := .server
       octets := (c.handshakeBuffer.drop c.handshakeConsumed).take n
       octetEpochs := (c.bufferEpochs.drop c.handshakeConsumed).take n
       readEpoch := c.readEpoch }] }

/-- A message of a post-handshake record is processed. -/
def recordMessage (octets : Bytes) : Core :=
  { c with
    messages := c.messages ++
      [{ sender := .server
         octets := octets
         octetEpochs := c.recordEpochs.take octets.length
         readEpoch := c.readEpoch }]
    recordEpochs := c.recordEpochs.drop octets.length }

/-- Octets arrive in the handshake buffer. -/
def buffered (fragment : Bytes) : Core :=
  { c with
    handshakeBuffer := c.handshakeBuffer ++ fragment
    bufferEpochs := c.bufferEpochs ++ List.replicate fragment.length c.readEpoch }

/-- The unread octets move to the front of the handshake buffer. -/
def compacted : Core :=
  { c with
    handshakeBuffer := c.handshakeBuffer.drop c.handshakeConsumed
    handshakeConsumed := 0
    bufferEpochs := c.bufferEpochs.drop c.handshakeConsumed }

/-- `n` octets of the handshake buffer are taken. -/
def consumed (n : ℕ) : Core :=
  if c.handshakeConsumed + n = c.handshakeBuffer.length then
    { c with handshakeBuffer := [], handshakeConsumed := 0, bufferEpochs := [] }
  else { c with handshakeConsumed := c.handshakeConsumed + n }

def keyChanged : Core :=
  { c with
    readEpoch := c.readEpoch + 1
    leftovers := c.leftovers ++
      [(c.bufferEpochs.drop c.handshakeConsumed ++ c.recordEpochs).length] }

end Core

/-- The steps of a connection. -/
inductive Step (E : Environment) (c : Core) : Core → Prop
  | sent (plaintext : TlsPlaintextRecord)
      (h : c.clientWriteState.sequenceNumber ≠ tlsMaxRecordSequenceNumber) :
      Step E c
        { c with
          clientWriteState := c.clientWriteState.next
          sent := c.sent ++
            [⟨plaintext.contentType, plaintext.fragment, some c.clientWriteState⟩] }
  | transcript (data : Bytes) :
      Step E c { c with transcript := (c.transcript.1, c.transcript.2 ++ data) }
  | clientMessage (octets : Bytes) : Step E c (c.clientMessage octets)
  | bufferedMessage (n : ℕ) : Step E c (c.bufferedMessage n)
  | recordMessage (octets : Bytes) : Step E c (c.recordMessage octets)
  | buffered (fragment : Bytes) : Step E c (c.buffered fragment)
  | compacted : Step E c c.compacted
  | consumed (n : ℕ) : Step E c (c.consumed n)
  | recordArrived (n : ℕ) : Step E c { c with recordEpochs := List.replicate n c.readEpoch }
  | ticketStored (ticket : Tls13SessionTicket) (context : TlsContext)
      (hsecret : c.context.deriveTls13ResumptionSecret E.keys ticket.nonce =
        .ok ticket.resumptionSecret)
      (hcontext : c.context.storeTls13Ticket ticket = .ok context) :
      Step E c
        { c with
          context := context
          externalSessionCache := c.externalSessionCache.map (TlsContext.storedIn · ticket) }
  | clientUpdated (context : TlsContext) (state : TlsAeadCipherState)
      (h : c.context.updateTls13ApplicationTrafficSecret E.keys true = .ok (context, state)) :
      Step E c { c with context := context, clientWriteState := state }
  | serverUpdated (context : TlsContext) (state : TlsAeadCipherState)
      (h : c.context.updateTls13ApplicationTrafficSecret E.keys false = .ok (context, state)) :
      Step E c { c with context := context }.keyChanged

inductive HandshakeStep (E : Environment) (c : Core) : Core → Prop
  | step {d : Core} (h : Step E c d) : HandshakeStep E c d
  | derived (context : TlsContext) (state : TlsAeadCipherState)
      (transcript : HashAlgorithm × Bytes) :
      HandshakeStep E c
        { c with context := context, clientWriteState := state, transcript := transcript }
  | sentPlain (contentType : TlsContentType) (fragment : Bytes) :
      HandshakeStep E c { c with sent := c.sent ++ [⟨contentType, fragment, none⟩] }
  | keyChanged (context : TlsContext) (state : TlsAeadCipherState) :
      HandshakeStep E c { c with context := context, clientWriteState := state }.keyChanged

variable {c d : Core} {E : Environment}

/-- Messages are only added. -/
theorem Step.messages_prefix (h : Step E c d) :
    c.messages <+: d.messages := by
  cases h with
  | clientMessage => exact List.prefix_append _ _
  | bufferedMessage => exact List.prefix_append _ _
  | recordMessage => exact List.prefix_append _ _
  | consumed n =>
    rw [Core.consumed]
    split
    · exact List.prefix_rfl
    · exact List.prefix_rfl
  | sent => exact List.prefix_rfl
  | transcript => exact List.prefix_rfl
  | buffered => exact List.prefix_rfl
  | compacted => exact List.prefix_rfl
  | recordArrived => exact List.prefix_rfl
  | ticketStored => exact List.prefix_rfl
  | clientUpdated => exact List.prefix_rfl
  | serverUpdated => exact List.prefix_rfl

theorem HandshakeStep.messages_prefix (h : HandshakeStep E c d) :
    c.messages <+: d.messages := by
  cases h with
  | step h => exact h.messages_prefix
  | derived => exact List.prefix_rfl
  | sentPlain => exact List.prefix_rfl
  | keyChanged => exact List.prefix_rfl

abbrev MakesSteps (E : Environment) {α : Type} (p : TlsProgram α) : Prop :=
  Makes TlsConnection.core (Step E) p

namespace TlsConnection

open Makes

variable (E : Environment) {α : Type}

/-! ## Records -/

/-- A protected record: the protection fails, and nothing is changed but the number of calls,
or the record goes out and takes a sequence number. -/
theorem sendRecord_cases (protection : Protection) (plaintext : TlsPlaintextRecord)
    (s : TlsConnection) :
    (∃ status, sendRecord E protection plaintext s =
      .error status { s with calls := s.calls + 1 }) ∨
    s.clientWriteState.sequenceNumber ≠ tlsMaxRecordSequenceNumber ∧
      sendRecord E protection plaintext s =
        sendAll E
          { s with
            clientWriteState := s.clientWriteState.next
            calls := s.calls + 1
            history := { s.history with
              sent := s.history.sent ++
                [⟨plaintext.contentType, plaintext.fragment, some s.clientWriteState⟩] } } := by
  rcases protection.protect_outcome E.cng
    ⟨plaintext, tlsIoBufferLength, tlsMaxPlaintextLength + 1, E.answers s.calls⟩
    s.clientWriteState with hf | ⟨record, hw⟩
  · refine .inl ⟨_, (bind_of_error (require_of_not ?_ _ _) _).trans (congrArg _ ?_)⟩
    · simp [hf.status]
    · rw [hf.state]
  · refine .inr ⟨hw.below, (bind_of_ok (require_of hw.status _ _) _).trans ?_⟩
    rw [hw.state]
    rfl

theorem sendRecord_makes (protection : Protection) (plaintext : TlsPlaintextRecord) :
    MakesSteps E (sendRecord E protection plaintext) := by
  intro s
  rcases sendRecord_cases E protection plaintext s with ⟨status, h⟩ | ⟨hbelow, h⟩
  · exact of_eq (h : _ = (MonadExcept.throw status : TlsProgram Unit) _) .refl (.throw _)
  · exact of_eq h (.single (.sent plaintext hbelow)) (sendAll_makes core_ignoresReading E)

theorem sendProtectedRecord_makes (contentType : TlsContentType) (fragment : Bytes) :
    MakesSteps E (sendProtectedRecord E contentType fragment) :=
  .read fun _ => sendRecord_makes E _ _

theorem sendProtectedRecord13_makes (contentType : TlsContentType) (fragment : Bytes) :
    MakesSteps E (sendProtectedRecord13 E contentType fragment) :=
  .read fun _ => sendRecord_makes E _ _

theorem updateClientTrafficSecret_makes : MakesSteps E (updateClientTrafficSecret E) :=
  get_bind fun _ => ofExcept_bind fun (_, _) h => EndsAt.set (.single (.clientUpdated _ _ h))

theorem sendPendingTls13KeyUpdate_makes : MakesSteps E (sendPendingTls13KeyUpdate E) :=
  get_bind fun _ => set_bind .refl (when (.bind (sendProtectedRecord13_makes E _ _) fun _ =>
    updateClientTrafficSecret_makes E))

/-! ## Handshake messages -/

theorem appendTranscript_makes (data : Bytes) : MakesSteps E (appendTranscript data) :=
  .modify fun _ => .transcript data

theorem clientMessage_makes (octets : Bytes) :
    MakesSteps E (recordMessage { sender := .client, octets }) :=
  .modify fun _ => .clientMessage octets

theorem sendHandshake13_makes (message : Bytes) : MakesSteps E (sendHandshake13 E message) :=
  .bind (appendTranscript_makes E _) fun _ => .bind (clientMessage_makes E _) fun _ =>
    sendProtectedRecord13_makes E _ _

theorem consume_core (s : TlsConnection) (n : ℕ) : (s.consume n).core = s.core.consumed n := by
  rw [consume, Core.consumed]
  split
  · exact (if_pos ‹_›).symm
  · exact (if_neg ‹_›).symm

theorem keepIncomplete_makes (status : NTSTATUS) : MakesSteps E (keepIncomplete status) :=
  .bind (require _) fun _ => .modify fun _ => .compacted

theorem bufferHandshakeRecord_makes : MakesSteps E (bufferHandshakeRecord E) :=
  .bind (readRecord_makes core_ignoresReading E) fun record => .bind (require _) fun _ =>
    get_bind fun s => composes.bind (require _ s) fun _ t ht => by
      obtain ⟨-, rfl⟩ := require_eq_ok ht
      exact EndsAt.set (.single (.buffered record.fragment))

variable {s t : TlsConnection}

/-- The entry of a buffered message is that of the state in which it is recorded. -/
theorem receivedEntry_makes {n : ℕ} (h : s.receivedEntry n = t.receivedEntry n) :
    EndsAt (fun s t => ReflTransGen (Step E) s.core t.core)
      (fun _ s t => ReflTransGen (Step E) s.core t.core) t
      (recordMessage (s.receivedEntry n)) := by
  rw [h]
  exact EndsAt.modify (.single (.bufferedMessage n))

theorem takeHandshakeMessage_makes (parsed : TlsHandshakeMessageView) (updateTranscript : Bool) :
    MakesSteps E (takeHandshakeMessage parsed updateTranscript) := by
  refine get_bind fun s => composes.bind (when (appendTranscript_makes E _) s) fun _ t ht => ?_
  have hentry : s.receivedEntry parsed.bytesConsumed = t.receivedEntry parsed.bytesConsumed := by
    rcases when_eq_ok ht with ⟨-, ht⟩ | ⟨-, rfl⟩
    · cases ht
      rfl
    · rfl
  refine composes.bind (receivedEntry_makes E hentry) fun _ u _ =>
    Makes.bind (.modify fun u => ?_) (fun _ => .pure _) u
  have hstep := Step.consumed (E := E) (c := u.core) parsed.bytesConsumed
  rwa [← consume_core] at hstep

theorem readHandshakeMessageFrom_makes (updateTranscript : Bool) (records : ℕ) :
    MakesSteps E (readHandshakeMessageFrom E updateTranscript records) := by
  induction records with
  | zero =>
    refine .read fun s => ?_
    split
    · exact takeHandshakeMessage_makes E _ _
    · exact .bind (keepIncomplete_makes E _) fun _ => .throw _
  | succ records ih =>
    refine .read fun s => ?_
    split
    · exact takeHandshakeMessage_makes E _ _
    · exact .bind (keepIncomplete_makes E _) fun _ => .bind (bufferHandshakeRecord_makes E) fun _ => ih

theorem readHandshakeMessage_makes (updateTranscript : Bool) :
    MakesSteps E (readHandshakeMessage E updateTranscript) :=
  .bind (modify_aside fun _ => rfl) fun _ => readHandshakeMessageFrom_makes E _ _

/-! ## Post-handshake messages -/

theorem storeTls13Ticket_makes (ticket : Tls13NewSessionTicketView) :
    MakesSteps E (storeTls13Ticket E ticket) := by
  refine .bind (require _) fun _ => get_bind fun s => composes.when fun _ => ?_
  refine ofExcept_bind fun secret hsecret => ofExcept_bind fun context hcontext =>
    EndsAt.set (.single ?_)
  exact .ticketStored { s.ticketOf (E.currentMilliseconds s.calls)
    (s.ticketServerName.getD []) ticket with resumptionSecret := secret } context hsecret hcontext

theorem updateServerTrafficSecret_makes : MakesSteps E (updateServerTrafficSecret E) :=
  get_bind fun s => ofExcept_bind fun (context, state) h => by
    refine of_eq (?_ : _ = (Pure.pure () : TlsProgram Unit)
      { s with context, serverWriteState := state }.keyChanged)
      (.single (.serverUpdated context state h)) (.pure ())
    rfl

theorem sendClientCertificate_makes (context : Bytes)
    (answer : Option (TlsClientCredential × TlsSignatureScheme)) (capacity : ℕ) :
    MakesSteps E (sendClientCertificate E context answer capacity) := by
  cases answer with
  | none => exact .bind (ofExcept _) fun _ => sendHandshake13_makes E _
  | some pair =>
    exact .bind (ofExcept _) fun _ => .bind (sendHandshake13_makes E _) fun _ =>
      .bind (finishTranscript_makes E) fun _ => .bind ofFailure_makes fun _ =>
        .bind (ofExcept _) fun _ => sendHandshake13_makes E _

theorem sendClientFinished_makes (capacity : ℕ) : MakesSteps E (sendClientFinished E capacity) :=
  .bind (finishTranscript_makes E) fun _ => .read fun _ => .bind (ofExcept _) fun _ =>
    sendHandshake13_makes E _

theorem processCertificateRequest_makes (message : TlsHandshakeMessageView) (octets : Bytes) :
    MakesSteps E (processCertificateRequest E message octets) :=
  .read fun _ => .bind (require _) fun _ => .bind (ofExcept _) fun _ => .bind (require _) fun _ =>
    .bind (ofExcept _) fun _ => .bind (ofExcept _) fun _ => .bind (appendTranscript_makes E _) fun _ =>
      .bind (sendClientCertificate_makes E _ _ _) fun _ => sendClientFinished_makes E _

theorem processPostHandshakeMessage_makes (message : TlsHandshakeMessageView) (octets : Bytes)
    (flags : PostHandshakeFlags) :
    MakesSteps E (processPostHandshakeMessage E message octets flags) :=
  .ite (.bind (.bind (ofExcept _) fun _ => storeTls13Ticket_makes E _) fun _ => .pure _)
    (.ite (.bind (.bind (ofExcept _) fun _ => .bind (when (updateServerTrafficSecret_makes E))
        fun _ => .pure _) fun _ => .pure _)
      (.ite (.bind (processCertificateRequest_makes E _ _) fun _ => .pure _) (.throw _)))

theorem consumePostHandshakeMessages_makes (messages : ℕ) : ∀ (fragment : Bytes)
    (flags : PostHandshakeFlags),
    MakesSteps E (consumePostHandshakeMessages E messages fragment flags) := by
  induction messages with
  | zero =>
    rintro (_ | ⟨c, fragment⟩) flags
    · exact .pure flags
    · exact .throw _
  | succ messages ih =>
    rintro (_ | ⟨c, fragment⟩) flags
    · exact .pure flags
    rw [consumePostHandshakeMessages.eq_3 _ _ _ _ (List.cons_ne_nil _ _)]
    split
    · exact .throw _
    · exact .bind (.modify fun _ => .recordMessage _) fun _ =>
        .bind (processPostHandshakeMessage_makes E _ _ _) fun _ => ih _ _

theorem consumeTls13PostHandshakeRecord_makes (fragment : Bytes) :
    MakesSteps E (consumeTls13PostHandshakeRecord E fragment) :=
  .bind (require _) fun _ => .bind (.modify fun _ => .recordArrived fragment.length) fun _ =>
    .bind (consumePostHandshakeMessages_makes E _ _ _) fun _ => when (modify_aside fun _ => rfl)

/-! ## Handshake records of TLS 1.2 -/

theorem takePlainHandshakeMessage_makes (parsed : TlsHandshakeMessageView) :
    MakesSteps E (takePlainHandshakeMessage parsed) := by
  refine .bind (ofExcept _) fun _ => .bind (when (modify_aside fun _ => rfl)) fun _ =>
    get_bind fun s => composes.bind (appendTranscript_makes E _ s) fun _ t ht => ?_
  have hentry : s.receivedEntry parsed.bytesConsumed = t.receivedEntry parsed.bytesConsumed := by
    cases ht
    rfl
  refine composes.bind (receivedEntry_makes E hentry) fun _ u _ => Makes.modify (fun u => ?_) u
  rw [consume_core]
  exact .consumed _

theorem consumePlainHandshakeMessages_makes (messages : ℕ) :
    MakesSteps E (consumePlainHandshakeMessages messages) := by
  induction messages with
  | zero =>
    refine .read fun s => ?_
    split
    · exact keepIncomplete_makes E _
    · exact .throw _
  | succ messages ih =>
    refine .read fun s => ?_
    split
    · exact keepIncomplete_makes E _
    · exact .bind (takePlainHandshakeMessage_makes E _) fun _ => .read fun _ => when ih

theorem consumeOptionalPlainHandshakeRecord_makes (fragment : Bytes) :
    MakesSteps E (consumeOptionalPlainHandshakeRecord fragment) :=
  .read fun _ => .bind (require _) fun _ => .bind (require _) fun _ =>
    .bind (.modify fun _ => .buffered fragment) fun _ => consumePlainHandshakeMessages_makes E _

/-! ## `Send` and `Receive` -/

theorem sendFrom_makes (fuel : ℕ) : ∀ data : Bytes, MakesSteps E (sendFrom E fuel data) := by
  induction fuel with
  | zero =>
    rintro (_ | ⟨c, data⟩)
    · exact .pure ()
    · exact .throw _
  | succ fuel ih =>
    rintro (_ | ⟨c, data⟩)
    · exact .pure ()
    rw [sendFrom.eq_3 _ _ _ (List.cons_ne_nil _ _)]
    refine .read fun s => .bind (.read fun _ => .ite ?_ ?_) fun _ => ih _
    · exact .bind (sendPendingTls13KeyUpdate_makes E) fun _ => sendProtectedRecord13_makes E _ _
    · exact sendProtectedRecord_makes E _ _

theorem send_makes (data : Bytes) : MakesSteps E (send E data) :=
  .read fun _ => .bind (require _) fun _ => sendFrom_makes E _ _

theorem receiveFrom_makes (length turns : ℕ) : ∀ emptyRecords postHandshakeRecords : ℕ,
    MakesSteps E (receiveFrom E length turns emptyRecords postHandshakeRecords) := by
  induction turns with
  | zero => exact fun _ _ => .throw _
  | succ turns ih =>
    intro emptyRecords postHandshakeRecords
    exact .bind (readRecord_makes core_ignoresReading E) fun _ => .read fun _ =>
      .ite (.bind (require _) fun _ => .bind (consumeTls13PostHandshakeRecord_makes E _) fun _ =>
        ih _ _) <|
      .ite (.bind (require _) fun _ => .bind (consumeOptionalPlainHandshakeRecord_makes E _) fun _ =>
        ih _ _) <|
      .ite (.throw _) <| .ite (.throw _) <| .ite (.throw _) <|
      .ite (.bind (require _) fun _ => ih _ _) <|
      .bind (modify_aside fun _ => rfl) fun _ => .pure _

theorem receive_makes (length : ℕ) : MakesSteps E (receive E length) :=
  get_bind fun _ => composes.bind (require _ _) fun _ t ht => by
    obtain ⟨-, rfl⟩ := require_eq_ok ht
    exact EndsAt.ite (fun _ => set_bind .refl (.pure _)) fun _ => receiveFrom_makes E _ _ _ _ _

/-! ## `Connect` -/

abbrev MakesHandshakeSteps {α : Type} (p : TlsProgram α) : Prop :=
  Makes core (HandshakeStep E) p

variable {E} in
theorem handshake {p : TlsProgram α} (h : MakesSteps E p) : MakesHandshakeSteps E p :=
  h.mono fun _ _ => .step

/-- A change of the context, of the write state and of the transcript. -/
theorem derived (h : t.core = { s.core with
      context := t.core.context
      clientWriteState := t.core.clientWriteState
      transcript := t.core.transcript }) :
    ReflTransGen (HandshakeStep E) s.core t.core := by
  rw [h]
  exact .single (.derived _ _ _)

theorem withContext_makes (f : TlsContext → Except NTSTATUS TlsContext) :
    MakesHandshakeSteps E (withContext f) :=
  get_bind fun _ => ofExcept_bind fun _ _ => EndsAt.set (derived E rfl)

theorem sendPlainRecord_makes (contentType : TlsContentType) (fragment : Bytes) :
    MakesHandshakeSteps E (sendPlainRecord E contentType fragment) :=
  .bind (require _) fun _ => .bind (require _) fun _ =>
    .bind (.modify fun _ => .sentPlain contentType fragment) fun _ => handshake (sendAll_makes core_ignoresReading E)

theorem sendClientHello_makes (message : Bytes) :
    MakesHandshakeSteps E (sendClientHello E message) :=
  .bind (handshake (appendTranscript_makes E _)) fun _ =>
    .bind (handshake (clientMessage_makes E _)) fun _ => sendPlainRecord_makes E _ _

variable (options : TlsClientConnectionOptions)

theorem initializeTls13_makes : MakesHandshakeSteps E (initializeTls13 E options) :=
  .bind (modify_aside fun _ => rfl) fun _ => .bind (handshake ofFailure_makes) fun _ =>
    fun _ => EndsAt.modify (derived E rfl)

theorem offerHello_makes : MakesHandshakeSteps E (offerHello E options) :=
  .bind (handshake ofFailure_makes) fun _ =>
    .bind (.read fun _ => .bind (ofExcept _) fun _ =>
      .bind (fun _ => EndsAt.modify (derived E rfl)) fun _ => .pure _) fun _ =>
    .read fun _ => .bind (ofExcept _) fun _ => .bind (sendClientHello_makes E _) fun _ => .pure _

theorem sendEarlyFrom_makes (fuel : ℕ) :
    ∀ data : Bytes, MakesSteps E (sendEarlyFrom E fuel data) := by
  induction fuel with
  | zero =>
    rintro (_ | ⟨c, data⟩)
    · exact .pure ()
    · exact .throw _
  | succ fuel ih =>
    rintro (_ | ⟨c, data⟩)
    · exact .pure ()
    rw [sendEarlyFrom.eq_3 _ _ _ (List.cons_ne_nil _ _)]
    exact .read fun s => .bind (sendProtectedRecord13_makes E _ _) fun _ => ih _

theorem sendEarlyData_makes (offer : Tls13Offer) :
    MakesHandshakeSteps E (sendEarlyData E options offer) :=
  when (.bind (.bind (handshake (finishTranscript_makes E)) fun _ =>
      .bind (withContext_makes E _) fun _ => .bind (withContext_makes E _) fun _ =>
      get_bind fun _ => ofExcept_bind fun _ _ => EndsAt.set (derived E rfl)) fun _ =>
    handshake (sendEarlyFrom_makes E _ _))

theorem readServerHello_makes (offer : Tls13Offer) (retried : Bool) :
    MakesHandshakeSteps E (readServerHello E offer retried) :=
  .bind (handshake (readHandshakeMessage_makes E _)) fun _ => .bind (ofExcept _) fun _ =>
    .bind (fun _ => EndsAt.modify (derived E rfl)) fun _ => .bind (ofExcept _) fun _ =>
    .bind (require _) fun _ => .read fun _ => .bind (ofExcept _) fun _ => .pure _

theorem retryHello_makes (offer : Tls13Offer) (retryGroup : TlsNamedGroup) :
    MakesHandshakeSteps E (retryHello E offer retryGroup) :=
  .read fun _ => .bind (require _) fun _ => .bind (require _) fun _ =>
    .bind (handshake ofFailure_makes) fun _ => .bind (require _) fun _ =>
    .bind (ofExcept _) fun _ => .bind (sendClientHello_makes E _) fun _ => .pure _

theorem exchangeHellos_makes (offer : Tls13Offer) :
    MakesHandshakeSteps E (exchangeHellos E offer) :=
  .bind (readServerHello_makes E _ _) fun _ => .ite
    (.read fun _ => .bind (retryHello_makes E _ _) fun _ =>
      .bind (readServerHello_makes E _ _) fun _ => .pure _)
    (.pure _)

theorem negotiate_makes : MakesHandshakeSteps E (negotiate E options) :=
  .bind (initializeTls13_makes E options) fun _ => .bind (offerHello_makes E options) fun _ =>
    .bind (sendEarlyData_makes E options _) fun _ => exchangeHellos_makes E _

theorem configureHandshakeStates_makes : MakesHandshakeSteps E (configureHandshakeStates E) :=
  get_bind fun s => ofExcept_bind fun (clientWriteState, serverWriteState) _ => by
    refine of_eq (?_ : _ = (Pure.pure () : TlsProgram Unit)
      { s with clientWriteState, serverWriteState, encrypted := true,
               tls13RecordProtection := true }.keyChanged)
      (.single (.keyChanged s.context clientWriteState)) (.pure ())
    rfl

theorem configureApplicationStates_makes : MakesHandshakeSteps E (configureApplicationStates E) :=
  get_bind fun s => ofExcept_bind fun (clientWriteState, serverWriteState) _ => by
    refine of_eq (?_ : _ = (Pure.pure () : TlsProgram Unit)
      { s with clientWriteState, serverWriteState,
               context := { s.context with established := true } }.keyChanged)
      (.single (.keyChanged _ clientWriteState)) (.pure ())
    rfl

theorem deriveHandshakeKeys_makes (agreement : Tls13Agreement) :
    MakesHandshakeSteps E (deriveHandshakeKeys E agreement) :=
  .bind (handshake ofFailure_makes) fun _ =>
    .bind (fun _ => EndsAt.modify (derived E rfl)) fun _ =>
    .bind (handshake (finishTranscript_makes E)) fun _ => .bind (withContext_makes E _) fun _ =>
    .bind (withContext_makes E _) fun _ => configureHandshakeStates_makes E

theorem readEncryptedExtensions_makes (agreement : Tls13Agreement) :
    MakesSteps E (readEncryptedExtensions E options agreement) :=
  .bind (readHandshakeMessage_makes E _) fun _ => .bind (ofExcept _) fun _ =>
    .bind (when (.bind (require _) fun _ => .bind (modify_aside fun _ => rfl) fun _ => require _))
      fun _ => .bind (require _) fun _ => .bind (require _) fun _ => .pure _

theorem readCertificateMessage_makes : MakesSteps E (readCertificateMessage E options) :=
  .bind (readHandshakeMessage_makes E _) fun _ => .ite
    (.bind (ofExcept _) fun _ => .bind (require _) fun _ => .bind (ofExcept _) fun _ =>
      .bind (ofExcept _) fun _ => .bind (readHandshakeMessage_makes E _) fun _ => .pure _)
    (.pure _)

theorem appendLastHandshake_makes : MakesSteps E appendLastHandshake :=
  .read fun _ => appendTranscript_makes E _

theorem authenticateServer_makes (certificateMessage : TlsHandshakeMessageView) :
    MakesSteps E (authenticateServer E options certificateMessage) :=
  .bind (ofExcept _) fun _ => .bind ofFailure_makes fun _ =>
    .bind (finishTranscript_makes E) fun _ => .bind (readHandshakeMessage_makes E _) fun _ =>
    .bind (ofExcept _) fun _ => .bind ofFailure_makes fun _ => appendLastHandshake_makes E

theorem readServerFinished_makes : MakesSteps E (readServerFinished E) :=
  .bind (finishTranscript_makes E) fun _ => .bind (readHandshakeMessage_makes E _) fun _ =>
    .read fun _ => .bind (ofExcept _) fun _ => appendLastHandshake_makes E

theorem sendClientFlight_makes (earlyDataAccepted : Bool) (requested : Option CertificateAnswer) :
    MakesSteps E (sendClientFlight E earlyDataAccepted requested) := by
  refine .bind (when (sendHandshake13_makes E _)) fun _ => ?_
  cases requested with
  | none => exact sendClientFinished_makes E _
  | some answer =>
    exact .bind (sendClientCertificate_makes E _ _ _) fun _ => sendClientFinished_makes E _

theorem finishHandshake_makes (agreement : Tls13Agreement) :
    MakesHandshakeSteps E (finishHandshake E options agreement) :=
  .bind (handshake (readOptionalCompatibilityChangeCipherSpec_makes core_ignoresReading)) fun _ =>
    .bind (handshake (readEncryptedExtensions_makes E options agreement)) fun _ =>
    .bind (handshake (readCertificateMessage_makes E options)) fun _ =>
    .bind (handshake (authenticateServer_makes E options _)) fun _ =>
    .bind (handshake (readServerFinished_makes E)) fun _ =>
    .bind (.bind (handshake (finishTranscript_makes E)) fun _ => withContext_makes E _) fun _ =>
    handshake (sendClientFlight_makes E _ _)

theorem connectTls13_makes : MakesHandshakeSteps E (connectTls13 E options) :=
  .bind (negotiate_makes E options) fun _ => .bind (deriveHandshakeKeys_makes E _) fun _ =>
    .bind (finishHandshake_makes E options _) fun _ => configureApplicationStates_makes E

/-! ## Sessions -/

variable {E} in
theorem after_makes {step : Core → Core → Prop} {p : TlsProgram α}
    (h : Makes core step p) (s : TlsConnection) : ReflTransGen step s.core (after p s).core := by
  have hs := h s
  rw [EndsAt] at hs
  rw [after]
  cases hp : p s with
  | ok a s' => simpa only [hp] using hs
  | error e s' => simpa only [hp] using hs

/-- A call of a connection. -/
inductive Call where
  | send (data : Bytes)
  | receive (length : ℕ)

def Call.run : Call → TlsConnection → TlsConnection
  | .send data => after (TlsConnection.send E data)
  | .receive length => after (TlsConnection.receive E length)

/-- The state behind a `Connect` that accepts its options. -/
def connected (s : TlsConnection) : TlsConnection :=
  releaseHandshakeScratch (after (connectTls13 E options) (prepared options s))

/-- The state behind a `Connect` and the calls that follow it. -/
def session (calls : List Call) (s : TlsConnection) : TlsConnection :=
  calls.foldl (fun s call => call.run E s) (connected E options s)

theorem calls_steps (calls : List Call) : ∀ s : TlsConnection,
    ReflTransGen (Step E) s.core (calls.foldl (fun s call => call.run E s) s).core := by
  induction calls with
  | nil => exact fun _ => .refl
  | cons call calls ih =>
    intro s
    refine ReflTransGen.trans ?_ (ih (call.run E s))
    cases call with
    | send data => exact after_makes (send_makes E data) s
    | receive length => exact after_makes (receive_makes E length) s

theorem connected_steps (s : TlsConnection) :
    ReflTransGen (HandshakeStep E) (prepared options s).core (connected E options s).core :=
  after_makes (connectTls13_makes E options) _

theorem session_steps (calls : List Call) (s : TlsConnection) :
    ReflTransGen (HandshakeStep E) (prepared options s).core (session E options calls s).core :=
  (connected_steps E options s).trans
    (ReflTransGen.mono (fun _ _ => .step) _ _ (calls_steps E calls _))

end TlsConnection

end KernelHttp.Tls
