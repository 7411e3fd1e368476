/-
  What reading a record changes in a TLS connection.

  A view that does not show the transport, the input buffer, the read key and their counters
  is left as it is by all programs that read, whether they return or fail.
-/
import KernelHttp.Tls.Connect13

namespace KernelHttp.Tls

open Program Relation

/-- The view does not show what reading a record changes. -/
def IgnoresReading {κ : Type} (view : TlsConnection → κ) : Prop :=
  ∀ (s : TlsConnection) (incoming : List TransportRead) (inputBuffer plaintext : Bytes)
    (recordsRead calls : ℕ) (serverWriteState : TlsAeadCipherState)
    (received : List TlsMutablePlaintextRecord) (disconnects : ℕ),
    view
      { s with
        incoming, inputBuffer, plaintext, recordsRead, calls, serverWriteState
        history := { s.history with received, disconnects } } = view s

namespace TlsConnection

open Makes

variable {κ : Type} {view : TlsConnection → κ} {step : κ → κ → Prop} {α : Type}
variable (hv : IgnoresReading view) (E : Environment)
include hv

/-- A change of what is not shown. -/
theorem aside {s t : TlsConnection} (h : t =
    { s with
      incoming := t.incoming
      inputBuffer := t.inputBuffer
      plaintext := t.plaintext
      recordsRead := t.recordsRead
      calls := t.calls
      serverWriteState := t.serverWriteState
      history :=
        { s.history with
          received := t.history.received
          disconnects := t.history.disconnects } }) :
    ReflTransGen step (view s) (view t) := by
  have hview : view t = view s := (congrArg view h).trans (hv _ _ _ _ _ _ _ _ _)
  rw [hview]

theorem modify_makes {f : TlsConnection → TlsConnection}
    (h : ∀ s, f s =
      { s with
        incoming := (f s).incoming
        inputBuffer := (f s).inputBuffer
        plaintext := (f s).plaintext
        recordsRead := (f s).recordsRead
        calls := (f s).calls
        serverWriteState := (f s).serverWriteState
        history :=
          { s.history with
            received := (f s).history.received
            disconnects := (f s).history.disconnects } }) :
    Makes view step (modify f : TlsProgram PUnit) :=
  fun s => EndsAt.modify (aside hv (h s))

theorem transportFailed_makes (status : NTSTATUS) :
    Makes view step (transportFailed status : TlsProgram α) :=
  .bind (modify_makes hv fun _ => rfl) fun _ => .throw _

theorem readExact_makes (length : ℕ) : Makes view step (readExact length) := by
  refine get_bind fun s => set_bind (aside hv rfl) ?_
  split
  · exact .pure _
  · exact transportFailed_makes hv _

theorem sendAll_makes : Makes view step (sendAll E) :=
  get_bind fun _ => set_bind (aside hv rfl) (.ite (.pure ()) (transportFailed_makes hv _))

theorem readRecordHeader_makes : Makes view step readRecordHeader :=
  .read fun _ => when (.bind (readExact_makes hv _) fun _ => modify_makes hv fun _ => rfl)

theorem readFragment_makes : Makes view step readFragment :=
  .read fun _ => .bind (readExact_makes hv _) fun _ => modify_makes hv fun _ => rfl

theorem recordReceivedTlsRecord_makes : Makes view step recordReceivedTlsRecord :=
  get_bind fun s => composes.bind (require _ s) fun _ t ht => by
    obtain ⟨-, rfl⟩ := require_eq_ok ht
    exact EndsAt.set (aside hv rfl)

theorem readRecordFragment_makes : Makes view step readRecordFragment := by
  refine .read fun s => ?_
  split
  · exact .pure _
  · exact .bind (require _) fun _ => .bind (require _) fun _ => .bind (require _) fun _ =>
      .bind (recordReceivedTlsRecord_makes hv) fun _ => readFragment_makes hv

theorem openRecord_makes (record : TlsRecordView) : Makes view step (openRecord E record) :=
  .read fun _ => .ite
    (get_bind fun _ => set_bind (aside hv rfl) (.bind (require _) fun _ =>
      .bind (modify_makes hv fun _ => rfl) fun _ => .pure _))
    (.bind (require _) fun _ => .bind (require _) fun _ =>
      .bind (modify_makes hv fun _ => rfl) fun _ => .pure _)

theorem readRecord_makes : Makes view step (readRecord E) :=
  .bind (readRecordHeader_makes hv) fun _ => .bind (readRecordFragment_makes hv) fun _ =>
    .read fun _ => .bind (ofExcept _) fun record => .bind (openRecord_makes hv E record) fun _ =>
      .bind (modify_makes hv fun _ => rfl) fun _ => .pure _

theorem readCompatibilityRecord_makes : Makes view step readCompatibilityRecord := by
  refine .read fun s => ?_
  split
  · exact .pure _
  · exact .bind (require _) fun _ => .bind (readRecordHeader_makes hv) fun _ => .read fun _ =>
      .bind (require _) fun _ => readFragment_makes hv

theorem readOptionalCompatibilityChangeCipherSpec_makes :
    Makes view step readOptionalCompatibilityChangeCipherSpec :=
  .bind (readCompatibilityRecord_makes hv) fun _ => .read fun _ => .bind (ofExcept _) fun _ =>
    when (.bind (require _) fun _ => modify_makes hv fun _ => rfl)

omit hv

theorem ofFailure_makes {x : Except FailureStatus α} : Makes view step (ofFailure x) := by
  cases x with
  | ok a => exact .pure a
  | error failure => exact .throw _

theorem finishTranscript_makes : Makes view step (finishTranscript E) := .read fun _ => .pure _

end TlsConnection

end KernelHttp.Tls
