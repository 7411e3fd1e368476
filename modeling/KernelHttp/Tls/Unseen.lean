/-
  What the processing of a record does not see.

  Between two records an established connection does not look at its transport and its input.
-/
import KernelHttp.Tls.Application
import KernelHttp.Lib.Unseen

namespace KernelHttp.Tls

open Program

/-- A change of what belongs to reading. -/
structure Aside where
  incoming : List TransportRead → List TransportRead := id
  inputBuffer : Bytes → Bytes := id
  plaintext : Bytes → Bytes := id
  recordsRead : ℕ → ℕ := id
  disconnects : ℕ := 0

/-- The state behind the change. -/
def Aside.apply (g : Aside) (s : TlsConnection) : TlsConnection :=
  { s with
    incoming := g.incoming s.incoming
    inputBuffer := g.inputBuffer s.inputBuffer
    plaintext := g.plaintext s.plaintext
    recordsRead := g.recordsRead s.recordsRead
    history := { s.history with disconnects := s.history.disconnects + g.disconnects } }

namespace TlsConnection

open Commutes

variable {α : Type}

/-- The program does not see what belongs to reading. -/
abbrev Blind (p : TlsProgram α) : Prop := ∀ g : Aside, Commutes g.apply p

variable (E : Environment)

theorem transportFailed_blind (status : NTSTATUS) : Blind (transportFailed status : TlsProgram α) := by
  refine fun g => .bind (.modify fun s => ?_) fun _ => .throw _
  simp only [Aside.apply, Nat.add_right_comm]

theorem sendAll_blind : Blind (sendAll E) := fun g =>
  @update _ _ _ g.apply (fun s : TlsConnection => { s with calls := s.calls + 1 })
    (fun s => if ntSuccess (E.sends s.calls) then Pure.pure () else transportFailed (E.sends s.calls))
    (fun _ => rfl) (fun _ => rfl) fun _ => .ite (.pure ()) (transportFailed_blind _ g)

theorem recordSent_blind (record : SentRecord) : Blind (recordSent record) :=
  fun _ => .modify fun _ => rfl

theorem sendRecord_blind (protection : Protection) (plaintext : TlsPlaintextRecord) :
    Blind (sendRecord E protection plaintext) := by
  intro g
  refine @update _ _ _ g.apply (fun s : TlsConnection =>
    let result := protection.protect E.cng
      ⟨plaintext, tlsIoBufferLength, tlsMaxPlaintextLength + 1, E.answers s.calls⟩
      s.clientWriteState
    { s with clientWriteState := result.state, calls := s.calls + 1 }) _
    (fun _ => rfl) (fun _ => rfl) fun s => ?_
  exact .bind (require _) fun _ => .bind (recordSent_blind _ g) fun _ => sendAll_blind E g

theorem sendProtectedRecord13_blind (contentType : TlsContentType) (fragment : Bytes) :
    Blind (sendProtectedRecord13 E contentType fragment) :=
  fun g => .read (fun _ => rfl) fun _ => sendRecord_blind E _ _ g

theorem appendTranscript_blind (data : Bytes) : Blind (appendTranscript data) :=
  fun _ => .modify fun _ => rfl

theorem finishTranscript_blind : Blind (finishTranscript E) :=
  fun _ => .read (fun _ => rfl) fun _ => .pure _

theorem recordMessage_blind (entry : HandshakeEntry) : Blind (recordMessage entry) :=
  fun _ => .modify fun _ => rfl

theorem sendHandshake13_blind (message : Bytes) : Blind (sendHandshake13 E message) :=
  fun g => .bind (appendTranscript_blind _ g) fun _ => .bind (recordMessage_blind _ g) fun _ =>
    sendProtectedRecord13_blind E _ _ g

theorem ofFailure_blind (x : Except FailureStatus α) : Blind (ofFailure x) := by
  cases x with
  | ok a => exact fun _ => .pure a
  | error failure => exact fun _ => .throw _

/-! ## Post-handshake messages -/

theorem storeTls13Ticket_blind (ticket : Tls13NewSessionTicketView) :
    Blind (storeTls13Ticket E ticket) := by
  refine fun g => .bind (require _) fun _ => get_bind fun s => ?_
  have hcontext : (g.apply s).context = s.context := rfl
  have huncacheable : (g.apply s).uncacheable ticket = s.uncacheable ticket := rfl
  rw [hcontext, huncacheable, Program.when, Program.when]
  split
  · cases s.context.deriveTls13ResumptionSecret E.keys ticket.nonce with
    | error status => rfl
    | ok secret =>
      simp only [bind_apply, ofExcept_ok]
      have hticket : (g.apply s).ticketOf (E.currentMilliseconds (g.apply s).calls)
          ((g.apply s).ticketServerName.getD []) ticket =
        s.ticketOf (E.currentMilliseconds s.calls) (s.ticketServerName.getD []) ticket := rfl
      rw [hticket]
      cases s.context.storeTls13Ticket _ with
      | error status => rfl
      | ok context => rfl
  · rfl

theorem updateServerTrafficSecret_blind : Blind (updateServerTrafficSecret E) := by
  refine fun g => get_bind fun s => ?_
  have hcontext : (g.apply s).context = s.context := rfl
  rw [hcontext]
  cases s.context.updateTls13ApplicationTrafficSecret E.keys false with
  | error status => rfl
  | ok r => rfl

theorem processKeyUpdate_blind (message : TlsHandshakeMessageView) (keyUpdated : Bool) :
    Blind (processKeyUpdate E message keyUpdated) :=
  fun g => .bind (ofExcept _) fun _ => .bind (when (updateServerTrafficSecret_blind E g)) fun _ =>
    .pure _

theorem sendClientCertificate_blind (requestContext : Bytes)
    (selected : Option (TlsClientCredential × TlsSignatureScheme)) (capacity : ℕ) :
    Blind (sendClientCertificate E requestContext selected capacity) := by
  intro g
  cases selected with
  | none => exact .bind (ofExcept _) fun _ => sendHandshake13_blind E _ g
  | some pair =>
    exact .bind (ofExcept _) fun _ => .bind (sendHandshake13_blind E _ g) fun _ =>
      .bind (finishTranscript_blind E g) fun _ => .bind (ofFailure_blind _ g) fun _ =>
      .bind (ofExcept _) fun _ => sendHandshake13_blind E _ g

theorem sendClientFinished_blind (capacity : ℕ) : Blind (sendClientFinished E capacity) :=
  fun g => .bind (finishTranscript_blind E g) fun _ => .read (fun _ => rfl) fun _ =>
    .bind (ofExcept _) fun _ => sendHandshake13_blind E _ g

theorem processCertificateRequest_blind (message : TlsHandshakeMessageView) (octets : Bytes) :
    Blind (processCertificateRequest E message octets) :=
  fun g => .read (fun _ => rfl) fun _ => .bind (require _) fun _ => .bind (ofExcept _) fun _ =>
    .bind (require _) fun _ => .bind (ofExcept _) fun _ => .bind (ofExcept _) fun _ =>
    .bind (appendTranscript_blind _ g) fun _ => .bind (sendClientCertificate_blind E _ _ _ g) fun _ =>
    sendClientFinished_blind E _ g

theorem processPostHandshakeMessage_blind (message : TlsHandshakeMessageView) (octets : Bytes)
    (flags : PostHandshakeFlags) : Blind (processPostHandshakeMessage E message octets flags) :=
  fun g => .ite (.bind (.bind (ofExcept _) fun _ => storeTls13Ticket_blind E _ g) fun _ => .pure _) <|
    .ite (.bind (processKeyUpdate_blind E _ _ g) fun _ => .pure _) <|
    .ite (.bind (processCertificateRequest_blind E _ _ g) fun _ => .pure _) (.throw _)

theorem consumePostHandshakeMessages_blind : ∀ (messages : ℕ) (fragment : Bytes)
    (flags : PostHandshakeFlags), Blind (consumePostHandshakeMessages E messages fragment flags)
  | 0, [], flags => fun _ => .pure flags
  | _ + 1, [], flags => fun _ => .pure flags
  | 0, _ :: _, _ => fun _ => .throw _
  | messages + 1, c :: fragment, flags => by
    intro g
    rw [consumePostHandshakeMessages.eq_3 _ _ _ _ (List.cons_ne_nil _ _)]
    split
    · exact .throw _
    · exact .bind (.modify fun _ => rfl) fun _ =>
        .bind (processPostHandshakeMessage_blind E _ _ _ g) fun _ =>
        consumePostHandshakeMessages_blind messages _ _ g

theorem consumeTls13PostHandshakeRecord_blind (fragment : Bytes) :
    Blind (consumeTls13PostHandshakeRecord E fragment) :=
  fun g => .bind (require _) fun _ => .bind (.modify fun _ => rfl) fun _ =>
    .bind (consumePostHandshakeMessages_blind E _ _ _ g) fun _ => when (.modify fun _ => rfl)

/-! ## Handshake records of TLS 1.2 -/

theorem consume_apply (g : Aside) (n : ℕ) (s : TlsConnection) :
    (g.apply s).consume n = g.apply (s.consume n) := by
  rw [consume, consume, apply_ite g.apply]
  rfl

theorem takePlainHandshakeMessage_blind (parsed : TlsHandshakeMessageView) :
    Blind (takePlainHandshakeMessage parsed) :=
  fun g => .bind (ofExcept _) fun _ => .bind (when (.modify fun _ => rfl)) fun _ =>
    .read (fun _ => rfl) fun _ => .bind (appendTranscript_blind _ g) fun _ =>
    .bind (recordMessage_blind _ g) fun _ => .modify (consume_apply g _)

theorem keepIncomplete_blind (status : NTSTATUS) : Blind (keepIncomplete status) :=
  fun _ => .bind (require _) fun _ => .modify fun _ => rfl

theorem consumePlainHandshakeMessages_blind : ∀ messages : ℕ,
    Blind (consumePlainHandshakeMessages messages)
  | 0 => fun g => .read (fun _ => rfl) fun s => by
    split
    · exact keepIncomplete_blind _ g
    · exact .throw _
  | messages + 1 => fun g => .read (fun _ => rfl) fun s => by
    split
    · exact keepIncomplete_blind _ g
    · exact .bind (takePlainHandshakeMessage_blind _ g) fun _ => .read (fun _ => rfl) fun _ =>
        when (consumePlainHandshakeMessages_blind messages g)

theorem consumeOptionalPlainHandshakeRecord_blind (fragment : Bytes) :
    Blind (consumeOptionalPlainHandshakeRecord fragment) :=
  fun g => .read (fun _ => rfl) fun _ => .bind (require _) fun _ => .bind (require _) fun _ =>
    .bind (.modify fun _ => rfl) fun _ => consumePlainHandshakeMessages_blind _ g

end TlsConnection

end KernelHttp.Tls
