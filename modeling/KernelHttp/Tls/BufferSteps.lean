/-
  What the handshakes do with the handshake buffer.

  `BufferStep` is what a program can do with the buffer and its memory.
-/
import KernelHttp.Tls.Connect
import KernelHttp.Tls.Dialogue

namespace KernelHttp.Tls

open Program Relation

/-! ## Programs that leave the handshake buffer alone -/

theorem makes_comp {α κ κ' : Type} {view : TlsConnection → κ} (f : κ → κ') {p : TlsProgram α}
    (h : Makes view (fun _ _ => False) p) : Makes (f ∘ view) (fun _ _ => False) p := by
  intro s
  refine (h s).mono (fun t ht => ?_) fun _ t ht => ?_
  · rw [Function.comp_apply, Function.comp_apply, eq_of_noStep ht]
  · rw [Function.comp_apply, Function.comp_apply, eq_of_noStep ht]

/-- The view does not show what sending a record changes. -/
def IgnoresSending {κ : Type} (view : TlsConnection → κ) : Prop :=
  ∀ (s : TlsConnection) (clientWriteState : TlsAeadCipherState) (calls : ℕ)
    (sent : List SentRecord) (disconnects : ℕ),
    view { s with clientWriteState, calls, history := { s.history with sent, disconnects } } =
      view s

namespace TlsConnection

open Makes

variable {κ : Type} {view : TlsConnection → κ} {step : κ → κ → Prop} (E : Environment)

theorem IgnoresSending.aside (hv : IgnoresSending view) {s t : TlsConnection} (h : t =
    { s with
      clientWriteState := t.clientWriteState
      calls := t.calls
      history := { s.history with
        sent := t.history.sent
        disconnects := t.history.disconnects } }) :
    ReflTransGen step (view s) (view t) := by
  have hview : view t = view s := (congrArg view h).trans (hv _ _ _ _ _)
  rw [hview]

variable (hv : IgnoresSending view)
include hv

theorem transportFailed_aside {α : Type} (status : NTSTATUS) :
    Makes view step (transportFailed status : TlsProgram α) :=
  .bind (fun s => EndsAt.modify (IgnoresSending.aside hv (s := s) rfl)) fun _ => .throw _

theorem sendAll_aside : Makes view step (sendAll E) :=
  get_bind fun _ => set_bind (IgnoresSending.aside hv rfl)
    (.ite (.pure ()) (transportFailed_aside hv _))

theorem sendPlainRecord_aside (contentType : TlsContentType) (fragment : Bytes) :
    Makes view step (sendPlainRecord E contentType fragment) :=
  .bind (require _) fun _ => .bind (require _) fun _ =>
    .bind (fun s => EndsAt.modify (IgnoresSending.aside hv (s := s) rfl)) fun _ =>
      sendAll_aside E hv

theorem sendRecord_aside (protection : Protection) (plaintext : TlsPlaintextRecord) :
    Makes view step (sendRecord E protection plaintext) := by
  intro s
  rcases sendRecord_cases E protection plaintext s with ⟨status, h⟩ | ⟨-, h⟩
  · exact of_eq (h : _ = (MonadExcept.throw status : TlsProgram Unit) _)
      (IgnoresSending.aside hv rfl) (.throw _)
  · exact of_eq h (IgnoresSending.aside hv rfl) (sendAll_aside E hv)

theorem sendProtectedRecord_aside (contentType : TlsContentType) (fragment : Bytes) :
    Makes view step (sendProtectedRecord E contentType fragment) :=
  .read fun _ => sendRecord_aside E hv _ _

theorem sendProtectedRecord13_aside (contentType : TlsContentType) (fragment : Bytes) :
    Makes view step (sendProtectedRecord13 E contentType fragment) :=
  .read fun _ => sendRecord_aside E hv _ _

end TlsConnection

/-- The handshake buffer, with its members. -/
structure HandshakeScratch where
  present : Bool
  octets : Bytes
  consumed : ℕ

def TlsConnection.scratch (s : TlsConnection) : HandshakeScratch where
  present := s.handshakeBufferPresent
  octets := s.handshakeBuffer
  consumed := s.handshakeConsumed

theorem TlsConnection.scratch_ignoresReading : IgnoresReading TlsConnection.scratch :=
  fun _ _ _ _ _ _ _ _ _ => rfl

theorem TlsConnection.scratch_ignoresSending : IgnoresSending TlsConnection.scratch :=
  fun _ _ _ _ _ => rfl

/-- The handshake buffer, the protection of the records, and the records that were received. -/
structure Reception where
  scratch : HandshakeScratch
  tls13RecordProtection : Bool
  received : List TlsMutablePlaintextRecord

def TlsConnection.reception (s : TlsConnection) : Reception where
  scratch := s.scratch
  tls13RecordProtection := s.tls13RecordProtection
  received := s.history.received

theorem TlsConnection.reception_ignoresSending : IgnoresSending TlsConnection.reception :=
  fun _ _ _ _ _ => rfl

/-- The program receives nothing, and leaves the handshake buffer alone. -/
abbrev ReceivesNothing {α : Type} (p : TlsProgram α) : Prop :=
  Makes TlsConnection.reception (fun _ _ => False) p

/-- The program leaves the handshake buffer alone. -/
abbrev LeavesScratch {α : Type} (p : TlsProgram α) : Prop :=
  Makes TlsConnection.scratch (fun _ _ => False) p

theorem ReceivesNothing.leavesScratch {α : Type} {p : TlsProgram α} (h : ReceivesNothing p) :
    LeavesScratch p := makes_comp Reception.scratch h

namespace ReceivesNothing

open TlsConnection Makes

variable (E : Environment) {α : Type}

theorem updateClientTrafficSecret : ReceivesNothing (updateClientTrafficSecret E) :=
  get_bind fun _ => ofExcept_bind fun (_, _) _ => EndsAt.set .refl

theorem updateServerTrafficSecret : ReceivesNothing (updateServerTrafficSecret E) :=
  get_bind fun _ => ofExcept_bind fun (_, _) _ => set_bind .refl (modify_aside fun _ => rfl)

theorem sendPendingTls13KeyUpdate : ReceivesNothing (sendPendingTls13KeyUpdate E) :=
  get_bind fun _ => set_bind .refl
    (when (.bind (sendProtectedRecord13_aside E reception_ignoresSending _ _) fun _ =>
      updateClientTrafficSecret E))

theorem sendHandshake13 (message : Bytes) : ReceivesNothing (sendHandshake13 E message) :=
  .bind (modify_aside fun _ => rfl) fun _ => .bind (modify_aside fun _ => rfl) fun _ =>
    sendProtectedRecord13_aside E reception_ignoresSending _ _

theorem finishTranscript : ReceivesNothing (finishTranscript E) := finishTranscript_makes E

theorem withContext (f : TlsContext → Except NTSTATUS TlsContext) :
    ReceivesNothing (withContext f) := get_bind fun _ => ofExcept_bind fun _ _ => EndsAt.set .refl

/-! ### Post-handshake messages -/

theorem storeTls13Ticket (ticket : Tls13NewSessionTicketView) :
    ReceivesNothing (storeTls13Ticket E ticket) :=
  .bind (require _) fun _ => get_bind fun _ => composes.when fun _ =>
    ofExcept_bind fun _ _ => ofExcept_bind fun _ _ => EndsAt.set .refl

theorem sendClientCertificate (context : Bytes)
    (answer : Option (TlsClientCredential × TlsSignatureScheme)) (capacity : ℕ) :
    ReceivesNothing (sendClientCertificate E context answer capacity) := by
  cases answer with
  | none => exact .bind (ofExcept _) fun _ => sendHandshake13 E _
  | some pair =>
    exact .bind (ofExcept _) fun _ => .bind (sendHandshake13 E _) fun _ =>
      .bind (finishTranscript E) fun _ => .bind ofFailure_makes fun _ =>
        .bind (ofExcept _) fun _ => sendHandshake13 E _

theorem sendClientFinished (capacity : ℕ) : ReceivesNothing (sendClientFinished E capacity) :=
  .bind (finishTranscript E) fun _ => .read fun _ => .bind (ofExcept _) fun _ => sendHandshake13 E _

theorem processCertificateRequest (message : TlsHandshakeMessageView) (octets : Bytes) :
    ReceivesNothing (processCertificateRequest E message octets) :=
  .read fun _ => .bind (require _) fun _ => .bind (ofExcept _) fun _ => .bind (require _) fun _ =>
    .bind (ofExcept _) fun _ => .bind (ofExcept _) fun _ => .bind (modify_aside fun _ => rfl)
      fun _ => .bind (sendClientCertificate E _ _ _) fun _ => sendClientFinished E _

theorem processPostHandshakeMessage (message : TlsHandshakeMessageView) (octets : Bytes)
    (flags : PostHandshakeFlags) :
    ReceivesNothing (processPostHandshakeMessage E message octets flags) :=
  .ite (.bind (.bind (ofExcept _) fun _ => storeTls13Ticket E _) fun _ => .pure _)
    (.ite (.bind (.bind (ofExcept _) fun _ => .bind (when (updateServerTrafficSecret E))
        fun _ => .pure _) fun _ => .pure _)
      (.ite (.bind (processCertificateRequest E _ _) fun _ => .pure _) (.throw _)))

theorem consumePostHandshakeMessages : ∀ (messages : ℕ) (fragment : Bytes)
    (flags : PostHandshakeFlags),
    ReceivesNothing (consumePostHandshakeMessages E messages fragment flags)
  | 0, [], flags => .pure flags
  | _ + 1, [], flags => .pure flags
  | 0, _ :: _, _ => .throw _
  | messages + 1, c :: fragment, flags => by
    rw [consumePostHandshakeMessages.eq_3 _ _ _ _ (List.cons_ne_nil _ _)]
    split
    · exact .throw _
    · exact .bind (modify_aside fun _ => rfl) fun _ =>
        .bind (processPostHandshakeMessage E _ _ _) fun _ =>
          consumePostHandshakeMessages messages _ _

theorem consumeTls13PostHandshakeRecord (fragment : Bytes) :
    ReceivesNothing (consumeTls13PostHandshakeRecord E fragment) :=
  .bind (require _) fun _ => .bind (modify_aside fun _ => rfl) fun _ =>
    .bind (consumePostHandshakeMessages E _ _ _) fun _ => when (modify_aside fun _ => rfl)

/-! ### `Send` -/

theorem sendFrom : ∀ (fuel : ℕ) (data : Bytes), ReceivesNothing (sendFrom E fuel data)
  | 0, [] => .pure ()
  | _ + 1, [] => .pure ()
  | 0, _ :: _ => .throw _
  | fuel + 1, c :: data => by
    rw [sendFrom.eq_3 _ _ _ (List.cons_ne_nil _ _)]
    refine .read fun s => .bind (.read fun _ => .ite ?_ ?_) fun _ => sendFrom fuel _
    · exact .bind (sendPendingTls13KeyUpdate E) fun _ =>
        sendProtectedRecord13_aside E reception_ignoresSending _ _
    · exact sendProtectedRecord_aside E reception_ignoresSending _ _

theorem send (data : Bytes) : ReceivesNothing (send E data) :=
  .read fun _ => .bind (require _) fun _ => sendFrom E _ _

end ReceivesNothing

namespace LeavesScratch

open TlsConnection Makes

variable {α : Type}

/-! ### The handshake of TLS 1.3 -/

section

variable (E : Environment) (options : TlsClientConnectionOptions)

theorem sendClientHello (message : Bytes) : LeavesScratch (sendClientHello E message) :=
  .bind (modify_aside fun _ => rfl) fun _ => .bind (modify_aside fun _ => rfl) fun _ =>
    sendPlainRecord_aside E scratch_ignoresSending _ _

theorem initializeTls13 : LeavesScratch (initializeTls13 E options) :=
  .bind (modify_aside fun _ => rfl) fun _ => .bind ofFailure_makes fun _ => modify_aside fun _ => rfl

theorem offerHello : LeavesScratch (offerHello E options) := by
  have hticket : LeavesScratch (selectTicket E options) :=
    .read fun _ => .bind (ofExcept _) fun _ => .bind (modify_aside fun _ => rfl) fun _ => .pure _
  exact .bind ofFailure_makes fun _ => .bind hticket fun _ => .read fun _ => .bind (ofExcept _)
    fun _ => .bind (sendClientHello E _) fun _ => .pure _

theorem sendEarlyFrom : ∀ (fuel : ℕ) (data : Bytes), LeavesScratch (sendEarlyFrom E fuel data)
  | 0, [] => .pure ()
  | _ + 1, [] => .pure ()
  | 0, _ :: _ => .throw _
  | fuel + 1, c :: data => by
    rw [sendEarlyFrom.eq_3 _ _ _ (List.cons_ne_nil _ _)]
    exact .read fun _ => .bind (sendProtectedRecord13_aside E scratch_ignoresSending _ _)
      fun _ => sendEarlyFrom fuel _

theorem withContext (f : TlsContext → Except NTSTATUS TlsContext) :
    LeavesScratch (withContext f) := (ReceivesNothing.withContext f).leavesScratch

theorem finishTranscript : LeavesScratch (finishTranscript E) := finishTranscript_makes E

theorem sendEarlyData (offer : Tls13Offer) : LeavesScratch (sendEarlyData E options offer) := by
  have hkeys (secret : Bytes) : LeavesScratch (configureEarlyData E secret) :=
    .bind (finishTranscript E) fun _ => .bind (withContext _) fun _ => .bind (withContext _)
      fun _ => get_bind fun _ => ofExcept_bind fun _ _ => EndsAt.set .refl
  exact when (.bind (hkeys _) fun _ => sendEarlyFrom E _ _)

theorem retryHello (offer : Tls13Offer) (retryGroup : TlsNamedGroup) :
    LeavesScratch (retryHello E offer retryGroup) :=
  .read fun _ => .bind (require _) fun _ => .bind (require _) fun _ => .bind ofFailure_makes fun _ =>
    .bind (require _) fun _ => .bind (ofExcept _) fun (_, _) => .bind (sendClientHello E _) fun _ =>
      .pure _

theorem deriveHandshakeKeys (agreement : Tls13Agreement) :
    LeavesScratch (deriveHandshakeKeys E agreement) := by
  have hstates : LeavesScratch (configureHandshakeStates E) :=
    get_bind fun _ => ofExcept_bind fun (_, _) _ => set_bind .refl (modify_aside fun _ => rfl)
  exact .bind ofFailure_makes fun _ => .bind (modify_aside fun _ => rfl) fun _ =>
    .bind (finishTranscript E) fun _ => .bind (withContext _) fun _ => .bind (withContext _)
      fun _ => hstates

theorem appendLastHandshake : LeavesScratch appendLastHandshake :=
  .read fun _ => modify_aside fun _ => rfl

theorem deriveApplicationSecrets : LeavesScratch (deriveApplicationSecrets E) :=
  .bind (finishTranscript E) fun _ => withContext _

theorem sendClientFlight (earlyDataAccepted : Bool) (requested : Option CertificateAnswer) :
    LeavesScratch (sendClientFlight E earlyDataAccepted requested) := by
  have hfinished := (ReceivesNothing.sendClientFinished E
    tlsScratchClientHelloLength).leavesScratch
  refine .bind (when (ReceivesNothing.sendHandshake13 E _).leavesScratch) fun _ => ?_
  cases requested with
  | none => exact hfinished
  | some answer =>
    exact .bind (ReceivesNothing.sendClientCertificate E _ _ _).leavesScratch fun _ => hfinished

theorem configureApplicationStates : LeavesScratch (configureApplicationStates E) :=
  get_bind fun _ => ofExcept_bind fun (_, _) _ => set_bind .refl (modify_aside fun _ => rfl)

end

/-! ### The handshake of TLS 1.2 -/

section

variable (E : Tls12Environment) (options : TlsConnectOptions)

theorem initializeClient : LeavesScratch (ConnectionMemory.initializeClient E) :=
  .bind (modify_aside fun _ => rfl) fun _ => .bind ofFailure_makes fun _ => modify_aside fun _ => rfl

theorem offerHello12 : LeavesScratch (ConnectionMemory.offerHello12 E options) :=
  .bind (require _) fun _ => .bind (ofExcept _) fun _ => .read fun _ => .bind (ofExcept _) fun _ =>
    .bind (sendClientHello E.toEnvironment _) fun _ => .pure _

theorem acceptServerHello (offer : ConnectionMemory.Tls12Offer) (clientHello : Bytes)
    (handshake : TlsHandshakeMessageView) :
    LeavesScratch (ConnectionMemory.acceptServerHello options offer clientHello handshake) :=
  .bind (ofExcept _) fun _ => .bind (modify_aside fun _ => rfl) fun _ => .bind (ofExcept _)
    fun _ => .bind (require _) fun _ => .bind (require _) fun _ => .bind (ofExcept _) fun _ =>
      .bind (require _) fun _ => .bind (ofExcept _) fun _ => .bind (ofExcept _) fun _ =>
        .bind (modify_aside fun _ => rfl) fun _ => .bind (require _) fun _ =>
          .bind (modify_aside fun _ => rfl) fun _ => .pure _

end

end LeavesScratch

/-! ## What is negotiated -/

/-- A ticket of TLS 1.2 is that of a message of the server, if there is one. -/
def TlsConnection.TicketHeard (s : TlsConnection) : Prop :=
  s.tls12PendingTicket = [] ∨ ∃ entry ∈ s.history.messages, entry.sender = .server ∧
    ∃ message lifetimeHintSeconds, parseMessage entry.octets = .ok message ∧
      TlsConnection.parseTls12NewSessionTicket message =
        .ok (lifetimeHintSeconds, s.tls12PendingTicket)

/-- What the hellos have negotiated stays, and so does what has been said. -/
structure Hears (s t : TlsConnection) : Prop where
  cipherSuite : t.context.cipherSuite = s.context.cipherSuite
  alpn : t.negotiatedAlpn = s.negotiatedAlpn
  transcriptAlgorithm : t.transcriptAlgorithm = s.transcriptAlgorithm
  transcript : s.transcript <+: t.transcript
  messages : s.history.messages <+: t.history.messages
  ticket : s.TicketHeard → t.TicketHeard

/-- Besides, the handshake buffer stays. -/
structure Proceeds (s t : TlsConnection) : Prop extends Hears s t where
  scratch : t.scratch = s.scratch

variable {s t u : TlsConnection}

theorem Hears.of_ticket (cipherSuite : t.context.cipherSuite = s.context.cipherSuite)
    (alpn : t.negotiatedAlpn = s.negotiatedAlpn)
    (transcriptAlgorithm : t.transcriptAlgorithm = s.transcriptAlgorithm)
    (transcript : s.transcript <+: t.transcript)
    (messages : s.history.messages <+: t.history.messages)
    (ticket : t.tls12PendingTicket = s.tls12PendingTicket) : Hears s t where
  cipherSuite := cipherSuite
  alpn := alpn
  transcriptAlgorithm := transcriptAlgorithm
  transcript := transcript
  messages := messages
  ticket := by
    rintro (hnone | ⟨entry, hentry, hsender, message, hint, hparse, hticket⟩)
    · exact .inl (ticket.trans hnone)
    · exact .inr ⟨entry, messages.subset hentry, hsender, message, hint, hparse, ticket ▸ hticket⟩

theorem Hears.trans (h : Hears s t) (h' : Hears t u) : Hears s u where
  cipherSuite := h'.cipherSuite.trans h.cipherSuite
  alpn := h'.alpn.trans h.alpn
  transcriptAlgorithm := h'.transcriptAlgorithm.trans h.transcriptAlgorithm
  transcript := h.transcript.trans h'.transcript
  messages := h.messages.trans h'.messages
  ticket := h'.ticket ∘ h.ticket

/-- What is negotiated, as programs change it. -/
structure Negotiated where
  scratch : HandshakeScratch
  cipherSuite : TlsCipherSuite
  alpn : Bytes
  ticket : Bytes
  transcriptAlgorithm : HashAlgorithm
  transcript : Bytes
  messages : List HandshakeEntry

def TlsConnection.negotiation (s : TlsConnection) : Negotiated where
  scratch := s.scratch
  cipherSuite := s.context.cipherSuite
  alpn := s.negotiatedAlpn
  ticket := s.tls12PendingTicket
  transcriptAlgorithm := s.transcriptAlgorithm
  transcript := s.transcript
  messages := s.history.messages

/-- The transcript or the messages go on. -/
inductive Spoken (n : Negotiated) : Negotiated → Prop
  | transcript (data : Bytes) : Spoken n { n with transcript := n.transcript ++ data }
  | message (entry : HandshakeEntry) : Spoken n { n with messages := n.messages ++ [entry] }

/-- The program only says messages. -/
abbrev Speaks {α : Type} (p : TlsProgram α) : Prop := Makes TlsConnection.negotiation Spoken p

theorem Spoken.proceeds (h : ReflTransGen Spoken s.negotiation t.negotiation) : Proceeds s t := by
  have hkept {a b : Negotiated} (h : ReflTransGen Spoken a b) : b.scratch = a.scratch ∧
      b.cipherSuite = a.cipherSuite ∧ b.alpn = a.alpn ∧ b.ticket = a.ticket ∧
      b.transcriptAlgorithm = a.transcriptAlgorithm ∧ a.transcript <+: b.transcript ∧
      a.messages <+: b.messages := by
    induction h with
    | refl => exact ⟨rfl, rfl, rfl, rfl, rfl, List.prefix_rfl, List.prefix_rfl⟩
    | tail _ hlast ih =>
      obtain ⟨hscratch, hsuite, halpn, hticket, halgorithm, htranscript, hmessages⟩ := ih
      cases hlast with
      | transcript data =>
        exact ⟨hscratch, hsuite, halpn, hticket, halgorithm,
          htranscript.trans (List.prefix_append _ _), hmessages⟩
      | message entry =>
        exact ⟨hscratch, hsuite, halpn, hticket, halgorithm, htranscript,
          hmessages.trans (List.prefix_append _ _)⟩
  obtain ⟨hscratch, hsuite, halpn, hticket, halgorithm, htranscript, hmessages⟩ := hkept h
  exact ⟨.of_ticket hsuite halpn halgorithm htranscript hmessages hticket, hscratch⟩

namespace Speaks

open TlsConnection Makes

variable {α : Type}

theorem ignoresReading : IgnoresReading negotiation := fun _ _ _ _ _ _ _ _ _ => rfl

theorem ignoresSending : IgnoresSending negotiation := fun _ _ _ _ _ => rfl

variable (E : Tls12Environment)

theorem finishTranscript : Speaks (finishTranscript E.toEnvironment) :=
  finishTranscript_makes E.toEnvironment

theorem sendHandshake12 (message : Bytes) :
    Speaks (ConnectionMemory.sendHandshake12 E message) :=
  .bind (.modify fun _ => .transcript _) fun _ => .bind (.modify fun _ => .message _) fun _ =>
    sendPlainRecord_aside E.toEnvironment ignoresSending _ _

theorem sendChangeCipherSpec : Speaks (ConnectionMemory.sendChangeCipherSpec E) :=
  sendPlainRecord_aside E.toEnvironment ignoresSending _ _

theorem appendLastHandshake : Speaks appendLastHandshake :=
  .read fun _ => .modify fun _ => .transcript _

theorem verifyServerKeyExchange (leaf : ParsedCertificate) (key : E.serverPublicKey)
    (serverRandom : Bytes) (view : TlsHandshake12.TlsServerKeyExchangeView) :
    Speaks (ConnectionMemory.verifyServerKeyExchange E leaf key serverRandom view) :=
  .bind (require _) fun _ => .bind (require _) fun _ => .read fun _ => ofFailure_makes

theorem encryptedPremaster (leaf : ParsedCertificate) (key : E.serverPublicKey) :
    Speaks (ConnectionMemory.encryptedPremaster E leaf key) :=
  .bind (require _) fun _ => .bind ofFailure_makes fun _ => .bind ofFailure_makes fun _ =>
    .bind (ofExcept _) fun _ => .pure _

theorem agreedPremaster (keyExchange : Tls12KeyExchangeKind)
    (share : ConnectionMemory.ServerKeyShare) (memory : ℕ → UInt8) :
    Speaks (ConnectionMemory.agreedPremaster E keyExchange share memory) :=
  .bind ofFailure_makes fun _ => .bind ofFailure_makes fun _ => .bind (ofExcept _) fun _ => .pure _

theorem sendCertificateVerify12 (answer : TlsConnection.CertificateAnswer)
    (transcriptHash : Bytes) :
    Speaks (ConnectionMemory.sendCertificateVerify12 E answer transcriptHash) := by
  cases answer with
  | none => exact .pure ()
  | some pair =>
    exact .bind ofFailure_makes fun _ => .bind (ofExcept _) fun _ => sendHandshake12 E _

end Speaks

/-! ## Steps on the buffer -/

theorem parseMessage_bytesConsumed_le {data : Bytes} {message : TlsHandshakeMessageView}
    (h : parseMessage data = .ok message) : message.bytesConsumed ≤ data.length := by
  rw [parseMessage.eq_def] at h
  split at h
  · dsimp only at h
    split_ifs at h with hlength
    obtain rfl := Except.ok.inj h
    simp only [TlsHandshakeMessageView.bytesConsumed, tlsHandshakeHeaderLength, List.length_cons,
      List.length_take]
    omega
  · cases h

theorem consume_scratch (h : s.scratch = t.scratch) (n : ℕ) :
    (s.consume n).scratch = (t.consume n).scratch := by
  obtain ⟨hpresent, hoctets, hconsumed⟩ := HandshakeScratch.mk.inj h
  rw [TlsConnection.consume, TlsConnection.consume, hoctets, hconsumed]
  split
  · rw [TlsConnection.scratch, TlsConnection.scratch, hpresent]
  · rw [TlsConnection.scratch, TlsConnection.scratch, hpresent]

namespace ConnectionMemory

variable {α : Type} {m m' : ConnectionMemory} {R R' : TlsConnection → TlsConnection → Prop}

/-- What a program does with the buffer, where `R` is what it does with the rest of the
connection. -/
inductive BufferStep (R : TlsConnection → TlsConnection → Prop) (m : ConnectionMemory) :
    ConnectionMemory → Prop
  | lifted {t : TlsConnection} (h : R m.connection t) : BufferStep R m { m with connection := t }
  | aside {lastHandshakeOffset : ℕ} {serverRandom masterSecret : Bytes} :
      BufferStep R m { m with lastHandshakeOffset, serverRandom, masterSecret }
  | looked (kind : AccessKind) {n : ℕ} (hkind : kind = .parse ∨ kind = .take)
      (hn : n ≤ m.connection.unread.length) :
      BufferStep R m
        { m with accesses := m.accesses ++ [m.accessOf kind m.connection.handshakeConsumed n] }
  | moved :
      BufferStep R m
        { m with
          connection := m.connection.compact
          memory := Overwriting.write m.memory 0 m.connection.unread
          accesses := m.accesses ++ [m.accessOf .move 0 m.connection.unread.length] }
  | compacted (h : ¬ (m.connection.handshakeConsumed ≠ 0 ∧ m.connection.unread ≠ [])) :
      BufferStep R m { m with connection := m.connection.compact }
  | copied (fragment : Bytes) (h : fragment.length ≤
      tlsHandshakeBufferLength - m.connection.handshakeBuffer.length) :
      BufferStep R m
        { m with
          connection := m.connection.buffer fragment
          memory := Overwriting.write m.memory m.connection.handshakeBuffer.length fragment
          accesses := m.accesses ++
            [m.accessOf .copy m.connection.handshakeBuffer.length fragment.length] }
  | lost (fragment : Bytes) (h : m.connection.handshakeBufferPresent = false) :
      BufferStep R m
        { m with
          memory := Overwriting.write m.memory m.connection.handshakeBuffer.length fragment
          accesses := m.accesses ++
            [m.accessOf .copy m.connection.handshakeBuffer.length fragment.length] }
  | consumed {n : ℕ} {t : TlsConnection} (hn : n ≤ m.connection.unread.length)
      (hscratch : t.scratch = (m.connection.consume n).scratch) (hears : Hears m.connection t) :
      BufferStep R m { m with connection := t }

theorem BufferStep.mono (hR : ∀ s t, R s t → R' s t) (h : BufferStep R m m') :
    BufferStep R' m m' := by
  cases h with
  | lifted h => exact .lifted (hR _ _ h)
  | aside => exact .aside
  | looked kind hkind hn => exact .looked kind hkind hn
  | moved => exact .moved
  | compacted h => exact .compacted h
  | copied fragment h => exact .copied fragment h
  | lost fragment h => exact .lost fragment h
  | consumed hn hscratch hears => exact .consumed hn hscratch hears

/-- The program makes steps on the buffer. -/
abbrev Uses (R : TlsConnection → TlsConnection → Prop) (p : MemoryProgram α) : Prop :=
  Makes id (BufferStep R) p

/-- From `m`, the program makes steps on the buffer. -/
abbrev UsesAt (R : TlsConnection → TlsConnection → Prop) (m : ConnectionMemory)
    (p : MemoryProgram α) : Prop :=
  EndsAt (fun m m' => ReflTransGen (BufferStep R) m m')
    (fun _ m m' => ReflTransGen (BufferStep R) m m') m p

/-- The handshake buffer stays. -/
def SameScratch (s t : TlsConnection) : Prop := t.scratch = s.scratch

/-- What a lifted program does, by what the program does. -/
theorem lift_endsAt {Q : ConnectionMemory → Prop} {q : TlsProgram α}
    (h : EndsAt (fun _ s => Q { m with connection := s })
      (fun _ _ s => Q { m with connection := s }) m.connection q) :
    EndsAt (fun _ => Q) (fun _ _ => Q) m (lift q) := by
  rw [EndsAt, lift]
  rw [EndsAt] at h
  cases hq : q m.connection with
  | ok a s =>
    rw [hq] at h
    exact h
  | error status s =>
    rw [hq] at h
    exact h

theorem LeavesScratch.uses {q : TlsProgram α} (hq : LeavesScratch q) :
    Uses SameScratch (lift q) := fun m =>
  lift_endsAt (Q := fun m' => ReflTransGen (BufferStep SameScratch) m m') <|
    (hq m.connection).mono (fun _ hs => .single (.lifted (eq_of_noStep hs)))
      fun _ _ hs => .single (.lifted (eq_of_noStep hs))

theorem Speaks.uses {q : TlsProgram α} (hq : Speaks q) : Uses Proceeds (lift q) := fun m =>
  lift_endsAt (Q := fun m' => ReflTransGen (BufferStep Proceeds) m m') <|
    (hq m.connection).mono (fun _ hs => .single (.lifted (Spoken.proceeds hs)))
      fun _ _ hs => .single (.lifted (Spoken.proceeds hs))

theorem Uses.scratch {p : MemoryProgram α} (hp : Uses Proceeds p) : Uses SameScratch p :=
  hp.mono fun _ _ => BufferStep.mono fun _ _ => Proceeds.scratch

theorem uses_aside {f : ConnectionMemory → ConnectionMemory} (h : ∀ m, f m =
    { m with
      lastHandshakeOffset := (f m).lastHandshakeOffset
      serverRandom := (f m).serverRandom
      masterSecret := (f m).masterSecret }) : Uses R (modify f : MemoryProgram PUnit) := by
  refine Makes.modify fun m => ?_
  have hf : BufferStep R m
      { m with
        lastHandshakeOffset := (f m).lastHandshakeOffset
        serverRandom := (f m).serverRandom
        masterSecret := (f m).masterSecret } := .aside
  rwa [← h m] at hf

/-! ### Handshake messages -/

/-- A step, and what follows from where it leads. -/
theorem UsesAt.step {p : MemoryProgram α} (h : BufferStep R m m')
    (hp : EndsAt (fun _ t => ReflTransGen (BufferStep R) m' t)
      (fun _ _ t => ReflTransGen (BufferStep R) m' t) m' p) :
    EndsAt (fun _ t => ReflTransGen (BufferStep R) m t)
      (fun _ _ t => ReflTransGen (BufferStep R) m t) m' p :=
  hp.mono (fun _ => .head h) fun _ _ => .head h

theorem require_uses {c : Prop} [Decidable c] (status : NTSTATUS) :
    Uses Proceeds (lift (require c status)) :=
  Speaks.uses (Makes.require _)

theorem ofExcept_uses (x : Except NTSTATUS α) : Uses Proceeds (lift (ofExcept x)) :=
  Speaks.uses (Makes.ofExcept x)

theorem ofFailure_uses {x : Except FailureStatus α} : Uses Proceeds (lift (ofFailure x)) :=
  Speaks.uses TlsConnection.ofFailure_makes

/-- What is behind a check. -/
theorem require_bind {c : Prop} [Decidable c] {status : NTSTATUS} {p : MemoryProgram α}
    {Q : ConnectionMemory → Prop} (hm : Q m) (h : c → EndsAt (fun _ => Q) (fun _ _ => Q) m p) :
    EndsAt (fun _ => Q) (fun _ _ => Q) m (lift (require c status) >>= fun _ => p) := by
  by_cases hc : c
  · rw [require, if_pos hc]
    exact h hc
  · rw [require, if_neg hc]
    exact hm

/-- What is behind a look at unread octets. -/
theorem look_uses (kind : AccessKind) {n : ℕ} {p : MemoryProgram α}
    (hkind : kind = .parse ∨ kind = .take) (hn : n ≤ m.connection.unread.length)
    (hp : UsesAt R
      { m with accesses := m.accesses ++ [m.accessOf kind m.connection.handshakeConsumed n] } p) :
    UsesAt R m (look kind m.connection.handshakeConsumed n >>= fun _ => p) :=
  EndsAt.of_eq (bind_of_ok (p := look kind m.connection.handshakeConsumed n) rfl _)
    (UsesAt.step (.looked kind hkind hn) hp)

/-- What is behind `ParseMessage`. -/
theorem parseBuffered_uses {f : Except NTSTATUS TlsHandshakeMessageView → MemoryProgram α}
    (h : ∀ m, UsesAt Proceeds m (f m.connection.parseBuffered)) :
    Uses Proceeds (parseBuffered >>= f) := by
  have hlooked : Uses Proceeds (get >>= fun m => look .parse m.connection.handshakeConsumed
      m.connection.unread.length >>= fun _ => f m.connection.parseBuffered) :=
    Makes.get_bind fun m => look_uses .parse (.inl rfl) le_rfl (h _)
  exact hlooked

theorem keepIncomplete_uses (status : NTSTATUS) : Uses Proceeds (keepIncomplete status) := by
  refine Makes.bind (require_uses _) fun _ => Makes.get_bind fun m => ?_
  rw [Program.when]
  split
  · exact .single .moved
  · exact .single (.compacted ‹_›)

theorem bufferHandshakeRecord_uses (E : Environment) :
    Uses Proceeds (bufferHandshakeRecord E) := by
  refine Makes.bind (Speaks.uses (TlsConnection.readRecord_makes Speaks.ignoresReading E))
    fun record => Makes.bind (require_uses _) fun _ => Makes.get_bind fun m => ?_
  exact require_bind (Q := fun m' => ReflTransGen (BufferStep Proceeds) m m') .refl
    fun hfits => .single (.copied record.fragment hfits.2)

theorem hears_consume (n : ℕ) (h : Hears s t) : Hears s (t.consume n) := by
  rw [TlsConnection.consume]
  split
  · exact h.trans (.of_ticket rfl rfl rfl List.prefix_rfl List.prefix_rfl rfl)
  · exact h.trans (.of_ticket rfl rfl rfl List.prefix_rfl List.prefix_rfl rfl)

theorem takeHandshakeMessage_takes (parsed : TlsHandshakeMessageView) (updateTranscript : Bool)
    (s : TlsConnection) :
    ∃ t, TlsConnection.takeHandshakeMessage parsed updateTranscript s = .ok parsed t ∧
      t.scratch = (s.consume parsed.bytesConsumed).scratch ∧ Hears s t := by
  have hsaid {transcript : Bytes} (htranscript : s.transcript <+: transcript) : Hears s
      { s with
        transcript
        history := { s.history with
          messages := s.history.messages ++ [s.receivedEntry parsed.bytesConsumed] } } :=
    .of_ticket rfl rfl rfl htranscript (List.prefix_append _ _) rfl
  cases updateTranscript with
  | true =>
    exact ⟨_, rfl, consume_scratch (by rfl) _,
      (hears_consume parsed.bytesConsumed (hsaid (List.prefix_append _ _))).trans
        (.of_ticket rfl rfl rfl List.prefix_rfl List.prefix_rfl rfl)⟩
  | false =>
    exact ⟨_, rfl, consume_scratch (by rfl) _,
      (hears_consume parsed.bytesConsumed (hsaid List.prefix_rfl)).trans
        (.of_ticket rfl rfl rfl List.prefix_rfl List.prefix_rfl rfl)⟩

variable {parsed : TlsHandshakeMessageView}

theorem takeHandshakeMessage_uses (updateTranscript : Bool)
    (hparse : m.connection.parseBuffered = .ok parsed) :
    UsesAt Proceeds m (takeHandshakeMessage parsed updateTranscript) := by
  have hn := parseMessage_bytesConsumed_le (TlsConnection.parseBuffered_eq_ok hparse)
  obtain ⟨t, ht, hscratch, hears⟩ :=
    takeHandshakeMessage_takes parsed updateTranscript m.connection
  have hoffset : Uses Proceeds (modify fun m : ConnectionMemory =>
      { m with lastHandshakeOffset := m.connection.handshakeConsumed }) :=
    uses_aside fun _ => rfl
  refine EndsAt.get_bind (look_uses .take (.inr rfl) hn
    (Makes.composes.bind (hoffset _) fun _ m' hm' => ?_))
  cases hm'
  rw [EndsAt, lift, ht]
  exact .single (.consumed hn hscratch hears)

theorem takePlainHandshakeMessage_takes (hparse : s.parseBuffered = .ok parsed) :
    EndsAt (fun s t => t.scratch = (s.consume parsed.bytesConsumed).scratch ∧ Hears s t)
      (fun _ s t => Proceeds s t) s (TlsConnection.takePlainHandshakeMessage parsed) := by
  have hparse := TlsConnection.parseBuffered_eq_ok hparse
  refine EndsAt.bind (fun _ _ h => ?_) fun (hint, ticket) t ht => ?_
  · rw [(ofExcept_eq_error h).2]
    exact ⟨.of_ticket rfl rfl rfl List.prefix_rfl List.prefix_rfl rfl, rfl⟩
  · obtain ⟨hticket, rfl⟩ := ofExcept_eq_ok ht
    have hsaid (pending data : Bytes) (n : ℕ)
        (hpending : pending = ticket ∨ pending = s.tls12PendingTicket) : Hears s
        { s with
          tls12PendingTicket := pending
          tls12PendingTicketLifetimeHintSeconds := n
          transcript := s.transcript ++ data
          history := { s.history with
            messages := s.history.messages ++ [s.receivedEntry parsed.bytesConsumed] } } := by
      rcases hpending with rfl | rfl
      · refine ⟨rfl, rfl, rfl, List.prefix_append _ _, List.prefix_append _ _, fun _ => .inr ⟨_,
          List.mem_append_right _ (List.mem_singleton_self _), rfl, parsed, hint, ?_, hticket⟩⟩
        exact parseMessage_take hparse
      · exact .of_ticket rfl rfl rfl (List.prefix_append _ _) (List.prefix_append _ _) rfl
    dsimp only
    rw [Program.when]
    split
    · exact ⟨consume_scratch (by rfl) _,
        hears_consume _ (hsaid ticket _ hint (.inl rfl))⟩
    · exact ⟨consume_scratch (by rfl) _, hears_consume _ (hsaid s.tls12PendingTicket _
        s.tls12PendingTicketLifetimeHintSeconds (.inr rfl))⟩

theorem takePlainHandshakeMessage_uses (hparse : m.connection.parseBuffered = .ok parsed) :
    UsesAt Proceeds m (takePlainHandshakeMessage parsed) := by
  have hn := parseMessage_bytesConsumed_le (TlsConnection.parseBuffered_eq_ok hparse)
  refine EndsAt.get_bind (look_uses .take (.inr rfl) hn ?_)
  exact lift_endsAt ((takePlainHandshakeMessage_takes hparse).mono
    (fun _ h => .single (.consumed hn h.1 h.2)) fun _ _ h => .single (.lifted h))

theorem readHandshakeMessageFrom_uses (E : Environment) (updateTranscript : Bool) :
    ∀ records : ℕ, Uses Proceeds (readHandshakeMessageFrom E updateTranscript records)
  | 0 => parseBuffered_uses fun m => by
    cases hparse : m.connection.parseBuffered with
    | ok parsed => exact takeHandshakeMessage_uses updateTranscript hparse
    | error status => exact Makes.bind (keepIncomplete_uses status) (fun _ => Makes.throw _) m
  | records + 1 => parseBuffered_uses fun m => by
    cases hparse : m.connection.parseBuffered with
    | ok parsed => exact takeHandshakeMessage_uses updateTranscript hparse
    | error status =>
      exact Makes.bind (keepIncomplete_uses status) (fun _ =>
        Makes.bind (bufferHandshakeRecord_uses E) fun _ =>
          readHandshakeMessageFrom_uses E updateTranscript records) m

theorem readHandshakeMessage_uses (E : Environment) (updateTranscript : Bool) :
    Uses Proceeds (readHandshakeMessage E updateTranscript) :=
  Makes.bind (uses_aside fun _ => rfl) fun _ =>
    Makes.bind (Speaks.uses (Makes.modify_aside fun _ => rfl)) fun _ =>
      readHandshakeMessageFrom_uses E updateTranscript _

theorem consumePlainHandshakeMessages_uses : ∀ messages : ℕ,
    Uses Proceeds (consumePlainHandshakeMessages messages)
  | 0 => parseBuffered_uses fun m => by
    cases m.connection.parseBuffered with
    | ok parsed => exact Makes.throw _ m
    | error status => exact keepIncomplete_uses status m
  | messages + 1 => parseBuffered_uses fun m => by
    cases hparse : m.connection.parseBuffered with
    | error status => exact keepIncomplete_uses status m
    | ok parsed =>
      exact Makes.composes.bind (takePlainHandshakeMessage_uses hparse) fun _ t _ =>
        Makes.read (fun _ => Makes.when (consumePlainHandshakeMessages_uses messages)) t

theorem consumeOptionalPlainHandshakeRecord_uses (fragment : Bytes) :
    Uses Proceeds (consumeOptionalPlainHandshakeRecord fragment) := by
  refine Makes.get_bind fun m => require_bind
    (Q := fun m' => ReflTransGen (BufferStep Proceeds) m m') .refl fun hfits => ?_
  by_cases hpresent : m.connection.handshakeBufferPresent = true
  · rw [require, if_pos hpresent]
    have hcopy : (copyFragment fragment >>= fun _ => lift (pure ()) >>= fun _ =>
        lift (modify (TlsConnection.buffer fragment)) >>= fun _ =>
          consumePlainHandshakeMessages tlsMaxPostHandshakeMessagesPerRecord) m =
        consumePlainHandshakeMessages tlsMaxPostHandshakeMessagesPerRecord
          { m with
            connection := m.connection.buffer fragment
            memory := Overwriting.write m.memory m.connection.handshakeBuffer.length fragment
            accesses := m.accesses ++
              [m.accessOf .copy m.connection.handshakeBuffer.length fragment.length] } := rfl
    exact EndsAt.of_eq hcopy (UsesAt.step (.copied fragment hfits.2)
      (consumePlainHandshakeMessages_uses _ _))
  · rw [require, if_neg hpresent]
    exact .single (.lost fragment (Bool.eq_false_of_not_eq_true hpresent))

/-! ### The handshakes -/

section

variable (E : Environment) (options : TlsClientConnectionOptions)

theorem readServerHello_uses (offer : Tls13Offer) (retried : Bool) :
    Uses SameScratch (readServerHello E offer retried) :=
  Makes.bind (readHandshakeMessage_uses E true).scratch fun _ => LeavesScratch.uses <|
    Makes.bind (Makes.ofExcept _) fun _ => Makes.bind (Makes.modify_aside fun _ => rfl) fun _ =>
      Makes.bind (Makes.ofExcept _) fun _ => Makes.bind (Makes.require _) fun _ =>
        Makes.read fun _ => Makes.bind (Makes.ofExcept _) fun _ => Makes.pure _

theorem negotiate_uses : Uses SameScratch (negotiate E options) := by
  refine Makes.bind (LeavesScratch.uses (LeavesScratch.initializeTls13 E options)) fun _ =>
    Makes.bind (LeavesScratch.uses (LeavesScratch.offerHello E options)) fun offer =>
      Makes.bind (LeavesScratch.uses (LeavesScratch.sendEarlyData E options offer)) fun _ =>
        Makes.bind (readServerHello_uses E offer false) fun _ => Makes.ite ?_ (Makes.pure _)
  exact Makes.read fun _ => Makes.bind (LeavesScratch.uses (LeavesScratch.retryHello E offer _))
    fun _ => Makes.bind (readServerHello_uses E _ true) fun _ => Makes.pure _

theorem readEncryptedExtensions_uses (agreement : TlsConnection.Tls13Agreement) :
    Uses SameScratch (readEncryptedExtensions E options agreement) :=
  Makes.bind (readHandshakeMessage_uses E true).scratch fun _ => LeavesScratch.uses <|
    Makes.bind (Makes.ofExcept _) fun _ => Makes.bind (Makes.when (Makes.bind (Makes.require _)
      fun _ => Makes.bind (Makes.modify_aside fun _ => rfl) fun _ => Makes.require _)) fun _ =>
        Makes.bind (Makes.require _) fun _ => Makes.bind (Makes.require _) fun _ => Makes.pure _

theorem readCertificateMessage_uses : Uses SameScratch (readCertificateMessage E options) := by
  have hread := (readHandshakeMessage_uses E true).scratch
  refine Makes.bind hread fun _ => Makes.ite ?_ (Makes.pure _)
  exact Makes.bind (ofExcept_uses _).scratch fun _ => Makes.bind (require_uses _).scratch
    fun _ => Makes.bind (ofExcept_uses _).scratch fun _ => Makes.bind (ofExcept_uses _).scratch
      fun _ => Makes.bind hread fun _ => Makes.pure _

theorem authenticateServer_uses (certificateMessage : TlsHandshakeMessageView) :
    Uses SameScratch (authenticateServer E options certificateMessage) :=
  Makes.bind (ofExcept_uses _).scratch fun _ => Makes.bind ofFailure_uses.scratch fun _ =>
    Makes.bind (LeavesScratch.uses (LeavesScratch.finishTranscript E)) fun _ =>
      Makes.bind (readHandshakeMessage_uses E false).scratch fun _ => LeavesScratch.uses <|
        Makes.bind (Makes.ofExcept _) fun _ => Makes.bind TlsConnection.ofFailure_makes
          fun _ => LeavesScratch.appendLastHandshake

theorem readServerFinished_uses : Uses SameScratch (readServerFinished E) :=
  Makes.bind (LeavesScratch.uses (LeavesScratch.finishTranscript E)) fun _ =>
    Makes.bind (readHandshakeMessage_uses E false).scratch fun _ => LeavesScratch.uses <|
      Makes.read fun _ => Makes.bind (Makes.ofExcept _) fun _ =>
        LeavesScratch.appendLastHandshake

theorem finishHandshake_uses (agreement : TlsConnection.Tls13Agreement) :
    Uses SameScratch (finishHandshake E options agreement) :=
  Makes.bind (LeavesScratch.uses (TlsConnection.readOptionalCompatibilityChangeCipherSpec_makes
    TlsConnection.scratch_ignoresReading)) fun _ =>
    Makes.bind (readEncryptedExtensions_uses E options agreement) fun _ =>
      Makes.bind (readCertificateMessage_uses E options) fun _ =>
        Makes.bind (authenticateServer_uses E options _) fun _ =>
          Makes.bind (readServerFinished_uses E) fun _ =>
            Makes.bind (LeavesScratch.uses (LeavesScratch.deriveApplicationSecrets E)) fun _ =>
              LeavesScratch.uses (LeavesScratch.sendClientFlight E _ _)

theorem connectTls13_uses : Uses SameScratch (connectTls13 E options) :=
  Makes.bind (negotiate_uses E options) fun agreement =>
    Makes.bind (LeavesScratch.uses (LeavesScratch.deriveHandshakeKeys E agreement)) fun _ =>
      Makes.bind (finishHandshake_uses E options agreement) fun _ =>
        LeavesScratch.uses (LeavesScratch.configureApplicationStates E)

end

section

variable (E : Tls12Environment) (options : TlsConnectOptions)

theorem negotiate12_uses : Uses SameScratch (negotiate12 E options) :=
  Makes.bind (LeavesScratch.uses (LeavesScratch.initializeClient E)) fun _ =>
    Makes.bind (LeavesScratch.uses (LeavesScratch.offerHello12 E options)) fun (_, _) =>
      Makes.bind (readHandshakeMessage_uses E.toEnvironment true).scratch fun _ =>
        Makes.read fun _ =>
          Makes.bind (LeavesScratch.uses (LeavesScratch.acceptServerHello options _ _ _))
            fun (_, _, _) => Makes.bind (uses_aside fun _ => rfl) fun _ => Makes.pure _

theorem configureStates12_uses : Uses Proceeds (configureStates12 E) :=
  Makes.read fun _ => Speaks.uses <| Makes.get_bind fun _ => Makes.ofExcept_bind fun (_, _) _ =>
    EndsAt.set .refl

theorem sendFinished12_uses : Uses Proceeds (sendFinished12 E) :=
  Makes.read fun _ => Speaks.uses <| Makes.bind (Speaks.finishTranscript E) fun _ =>
    Makes.read fun _ => Makes.bind (Makes.ofExcept _) fun _ =>
      Makes.bind (Makes.modify fun _ => .transcript _) fun _ =>
        Makes.bind (Makes.modify fun _ => .message _) fun _ =>
          TlsConnection.sendProtectedRecord_aside E.toEnvironment Speaks.ignoresSending _ _

theorem readServerChangeCipherSpecFrom_uses (allowNewSessionTicket : Bool) : ∀ records : ℕ,
    Uses Proceeds (readServerChangeCipherSpecFrom E allowNewSessionTicket records)
  | 0 => Makes.throw _
  | records + 1 => by
    refine Makes.bind (Speaks.uses (TlsConnection.readRecord_makes Speaks.ignoresReading
      E.toEnvironment)) fun record => Makes.bind (require_uses _) fun _ => Makes.ite ?_ ?_
    · exact Makes.read fun _ => require_uses _
    · exact Makes.bind (require_uses _) fun _ =>
        Makes.bind (consumeOptionalPlainHandshakeRecord_uses record.fragment) fun _ =>
          readServerChangeCipherSpecFrom_uses allowNewSessionTicket records

theorem readServerChangeCipherSpec_uses (allowNewSessionTicket : Bool) :
    Uses Proceeds (readServerChangeCipherSpec E allowNewSessionTicket) :=
  Makes.bind (readServerChangeCipherSpecFrom_uses E allowNewSessionTicket _) fun _ =>
    Speaks.uses (Makes.modify_aside fun _ => rfl)

theorem readFinished12_uses : Uses Proceeds (readFinished12 E) :=
  Makes.bind (readHandshakeMessage_uses E.toEnvironment false) fun _ => Makes.read fun _ =>
    Speaks.uses <| Makes.bind (Makes.require _) fun _ =>
      Makes.bind (Speaks.finishTranscript E) fun _ => Makes.read fun _ =>
        Makes.bind (Makes.ofExcept _) fun _ => Speaks.appendLastHandshake

theorem resume_uses (agreement : Tls12Agreement) (session : Tls12Session) :
    Uses Proceeds (resume E agreement session) :=
  Makes.read fun _ => Makes.bind (require_uses _) fun _ => Makes.bind (require_uses _) fun _ =>
    Makes.bind (uses_aside fun _ => rfl) fun _ => Makes.bind (configureStates12_uses E) fun _ =>
      Makes.bind (readServerChangeCipherSpec_uses E _) fun _ =>
        Makes.bind (readFinished12_uses E) fun _ =>
          Makes.bind (Speaks.uses (Speaks.sendChangeCipherSpec E)) fun _ =>
            sendFinished12_uses E

theorem readCertificate12_uses (agreement : Tls12Agreement) :
    Uses Proceeds (readCertificate12 E options agreement) :=
  Makes.bind (readHandshakeMessage_uses E.toEnvironment true) fun _ => Speaks.uses <|
    Makes.bind (Makes.ofExcept _) fun _ => Makes.bind (Makes.ofExcept _) fun _ =>
      Makes.bind (Makes.require _) fun _ => Makes.bind (Makes.require _) fun _ =>
        Makes.bind TlsConnection.ofFailure_makes fun _ => Makes.pure _

theorem readBehindCertificate_uses : Uses Proceeds (readBehindCertificate E) :=
  Makes.bind (readHandshakeMessage_uses E.toEnvironment true) fun _ => Makes.ite
    (Makes.bind (ofExcept_uses _) fun _ => readHandshakeMessage_uses E.toEnvironment true)
    (Makes.pure _)

theorem readServerKeyExchange_uses (agreement : Tls12Agreement) (leaf : ParsedCertificate)
    (key : E.serverPublicKey) (handshake : TlsHandshakeMessageView) :
    Uses Proceeds (readServerKeyExchange E agreement leaf key handshake) := by
  refine Makes.ite (Makes.pure _) (Makes.bind ?_ fun _ =>
    Makes.bind (readHandshakeMessage_uses E.toEnvironment true) fun _ => Makes.pure _)
  exact Makes.read fun _ => Makes.bind (ofExcept_uses _) fun _ =>
    Makes.bind (ofExcept_uses _) fun _ =>
      Makes.bind (Speaks.uses (Speaks.verifyServerKeyExchange E _ _ _ _)) fun _ =>
        Makes.bind (Speaks.uses (Makes.when TlsConnection.ofFailure_makes)) fun _ => Makes.pure _

theorem answerCertificateRequest_uses (handshake : TlsHandshakeMessageView) :
    Uses Proceeds (answerCertificateRequest E options handshake) := by
  refine Makes.ite (Makes.bind (Speaks.uses ?_) fun _ =>
    Makes.bind (readHandshakeMessage_uses E.toEnvironment true) fun _ => Makes.pure _)
    (Makes.pure _)
  exact Makes.bind (Makes.ofExcept _) fun _ => Makes.bind (Makes.ofExcept _) fun _ =>
    Makes.bind (Makes.ofExcept _) fun _ => Makes.bind (Speaks.sendHandshake12 E _) fun _ =>
      Makes.pure _

theorem sendClientKeyExchange_uses (agreement : Tls12Agreement) (leaf : ParsedCertificate)
    (key : E.serverPublicKey) (share : Option ServerKeyShare) :
    Uses Proceeds (sendClientKeyExchange E agreement leaf key share) := by
  refine Makes.read fun m => Speaks.uses ?_
  cases share with
  | none =>
    exact Makes.bind (Speaks.encryptedPremaster E leaf key) fun (_, _) =>
      Makes.bind (Speaks.sendHandshake12 E _) fun _ => Makes.pure _
  | some share =>
    exact Makes.bind (Speaks.agreedPremaster E _ share m.memory) fun (_, _) =>
      Makes.bind (Speaks.sendHandshake12 E _) fun _ => Makes.pure _

theorem deriveMasterSecret_uses (answer : TlsConnection.CertificateAnswer)
    (premasterSecret : Bytes) : Uses Proceeds (deriveMasterSecret E answer premasterSecret) := by
  refine Makes.bind (Speaks.uses ?_) fun _ => uses_aside fun _ => rfl
  exact Makes.bind (Speaks.finishTranscript E) fun _ =>
    Makes.bind (Speaks.sendCertificateVerify12 E answer _) fun _ => Makes.read fun _ =>
      Makes.ofExcept _

theorem handshakeInFull_uses (agreement : Tls12Agreement) :
    Uses Proceeds (handshakeInFull E options agreement) :=
  Makes.bind (readCertificate12_uses E options agreement) fun (_, _) =>
    Makes.bind (readBehindCertificate_uses E) fun _ =>
      Makes.bind (readServerKeyExchange_uses E agreement _ _ _) fun (_, _) =>
        Makes.bind (answerCertificateRequest_uses E options _) fun (_, _) =>
          Makes.bind (ofExcept_uses _) fun _ =>
            Makes.bind (sendClientKeyExchange_uses E agreement _ _ _) fun _ =>
              Makes.bind (deriveMasterSecret_uses E _ _) fun _ =>
                Makes.bind (configureStates12_uses E) fun _ =>
                  Makes.bind (Speaks.uses (Speaks.sendChangeCipherSpec E)) fun _ =>
                    Makes.bind (sendFinished12_uses E) fun _ =>
                      Makes.bind (readServerChangeCipherSpec_uses E _) fun _ =>
                        readFinished12_uses E

end

end ConnectionMemory

end KernelHttp.Tls
