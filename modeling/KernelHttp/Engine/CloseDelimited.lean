/-
  Responses over TLS that end with the connection.
-/
import KernelHttp.Engine.ResponseReader
import KernelHttp.Http1.Framing
import KernelHttp.Tls.CloseNotify

namespace KernelHttp.Engine

open Http1 Program Tls

/-- The transport has not reported the end of the connection between the two states: no read
has brought no octets, and no call has failed with `STATUS_CONNECTION_DISCONNECTED`. -/
def TransportStaysUp (s s' : TlsConnection) : Prop :=
  s'.history.disconnects = s.history.disconnects

/-- The last record that was read between the two states is a close_notify alert. -/
def EndsWithCloseNotify (s s' : TlsConnection) : Prop :=
  ∃ new alert, s'.history.received = s.history.received ++ new ++ [alert] ∧ IsCloseNotify alert

theorem endsWithCloseNotify_iff {s s' : TlsConnection} (h : Closes s s') :
    EndsWithCloseNotify s s' ↔ TransportStaysUp s s' := by
  rw [TransportStaysUp]
  cases h with
  | transport new hnew hopen hd =>
    constructor
    · rintro ⟨new', alert, hnew', halert⟩
      rw [hnew', List.append_assoc, List.append_cancel_left_eq] at hnew
      exact absurd halert (hopen alert (hnew ▸ List.mem_append_right _ (List.mem_singleton_self _)))
    · intro hup
      omega
  | peer new alert hnew halert hd => exact ⟨fun _ => hd, fun _ => ⟨new, alert, hnew, halert⟩⟩

namespace ResponseReader

variable {E : Environment} (hE : E.PlatformOpen) {R : ResponseReader TlsConnection}
  (hR : R.receive = TlsConnection.receive E)
include hE hR

theorem readResponse_closes {turns : ℕ} {workspace : ResponseWorkspace} {response : Bytes}
    {s s' : TlsConnection} {parsed : HttpResponse}
    (h : R.readResponse turns workspace response s = .ok (some parsed) s')
    (hends : parsed.bodyEndsOnConnectionClose = true) : Closes s s' := by
  induction turns generalizing workspace response s with
  | zero => cases h
  | succ turns ih =>
    rw [readResponse] at h
    cases hparsed : parseResponse R.codecs (R.parseOptions workspace false) response with
    | ok parsed' =>
      rw [hparsed] at h
      obtain ⟨rest, t, ht, h⟩ := bind_eq_ok h
      obtain ⟨-, rfl⟩ := ofExcept_eq_ok ht
      cases rest with
      | some rest => exact ih h
      | none =>
        cases h
        rw [parseResponse_bodyEnds rfl hparsed] at hends
        cases hends
    | error status =>
      rw [hparsed] at h
      dsimp only at h
      split_ifs at h
      · obtain ⟨workspace', t, ht, h⟩ := bind_eq_ok h
        obtain ⟨-, rfl⟩ := ofExcept_eq_ok ht
        exact ih h
      · cases h
      obtain ⟨workspace', t, ht, h⟩ := bind_eq_ok h
      obtain ⟨-, rfl⟩ := ofExcept_eq_ok ht
      obtain ⟨result, t', ht, h⟩ := bind_eq_ok h
      rw [attempt, hR] at ht
      cases hreceive : TlsConnection.receive E (workspace'.responseLength - response.length) s with
      | ok received t'' =>
        rw [hreceive] at ht
        cases ht
        dsimp only at h
        rw [if_neg (TlsConnection.receive_ne_nil hreceive)] at h
        exact StaysOpen.trans_closes ((TlsConnection.receive_ends hE _ _).ok hreceive) (ih h)
      | error status t'' =>
        rw [hreceive] at ht
        cases ht
        dsimp only at h
        split_ifs at h with hstatus
        · obtain ⟨-, rfl⟩ := ofExcept_eq_ok h
          exact (TlsConnection.receive_ends hE _ _).error hreceive hstatus
        · cases h

/-- A response over TLS whose end is marked by the end of the connection: a close_notify has
been received behind its last octet if and only if the transport has not reported the end. -/
theorem closeDelimited_iff {turns : ℕ} {workspace : ResponseWorkspace} {s s' : TlsConnection}
    {parsed : HttpResponse}
    (h : R.readHttpResponseFromSocket turns workspace s = .ok (some parsed) s')
    (hends : parsed.bodyEndsOnConnectionClose = true) :
    EndsWithCloseNotify s s' ↔ TransportStaysUp s s' :=
  endsWithCloseNotify_iff (readResponse_closes hE hR h hends)

omit hE hR

/-! ### A connection that is cut -/

/-- A reader over `plainEnvironment`. -/
def plainReader : ResponseReader TlsConnection where
  codecs := noCodecs
  receive := TlsConnection.receive plainEnvironment
  canAllocate _ := true
  timeLeft _ := true
  headerCapacity := 10
  trailerCapacity := 0
  responseBodyForbidden := false

def plainWorkspace : ResponseWorkspace := ⟨4096, 1024, 0, 0⟩

/-- An established connection of TLS 1.3. -/
def plainConnection (incoming : List TransportRead) : TlsConnection where
  context := { protocol := .tls13, established := true, cipherSuite := .tlsAes128GcmSha256 }
  serverWriteState := { key := List.replicate 16 1, fixedIv := List.replicate 12 2 }
  clientWriteState := { key := List.replicate 16 3, fixedIv := List.replicate 12 4 }
  encrypted := true
  tls13RecordProtection := true
  incoming := incoming

/-- The start of a response whose body ends with the connection. -/
def responseStart : Bytes := plainTls13Record 23 (text "HTTP/1.1 200 OK\r\n\r\nab")

/-- Behind the start of the response the peer has closed the connection. -/
def closedConnection : TlsConnection :=
  plainConnection [.octets responseStart, .octets (plainTls13Record 21 [1, 0])]

def cutConnection : TlsConnection := plainConnection [.octets responseStart, .octets []]

/-- What a run has come to: the body, whether it ends with the connection, how often the
transport has reported the end, and the types of the records that were read. -/
def outcome : EStateM.Result NTSTATUS TlsConnection (Option HttpResponse) →
    Option (Bytes × Bool × ℕ × List TlsContentType)
  | .ok (some parsed) s =>
    some (parsed.body.octets, parsed.bodyEndsOnConnectionClose, s.history.disconnects,
      s.history.received.map (·.contentType))
  | _ => none

theorem outcome_eq_some {result : EStateM.Result NTSTATUS TlsConnection (Option HttpResponse)}
    {body : Bytes} {ends : Bool} {n : ℕ} {types : List TlsContentType}
    (h : outcome result = some (body, ends, n, types)) : ∃ parsed s', result = .ok (some parsed) s' ∧
      parsed.body.octets = body ∧ parsed.bodyEndsOnConnectionClose = ends ∧
      s'.history.disconnects = n ∧ s'.history.received.map (·.contentType) = types := by
  unfold outcome at h
  split at h
  · cases h
    exact ⟨_, _, rfl, rfl, rfl, rfl, rfl⟩
  · cases h

theorem closeDelimited_iff_closed : ∃ parsed s',
    plainReader.readHttpResponseFromSocket 4 plainWorkspace closedConnection =
      .ok (some parsed) s' ∧ parsed.bodyEndsOnConnectionClose = true ∧
    (EndsWithCloseNotify closedConnection s' ↔ TransportStaysUp closedConnection s') := by
  obtain ⟨parsed, s', h, -, hends, -⟩ := outcome_eq_some
    (show outcome (plainReader.readHttpResponseFromSocket 4 plainWorkspace closedConnection) =
      some (text "ab", true, 0, [.applicationData, .alert]) by decide +kernel)
  exact ⟨parsed, s', h, hends, closeDelimited_iff plainEnvironment_open rfl h hends⟩

example : cutConnection.context.established = true := by decide +kernel

/-- A cut connection: the start of the body is taken for the whole one, and no close_notify
was received. -/
theorem cutConnection_completes : ∃ parsed s',
    plainReader.readHttpResponseFromSocket 4 plainWorkspace cutConnection = .ok (some parsed) s' ∧
    parsed.bodyEndsOnConnectionClose = true ∧ parsed.body.octets = text "ab" ∧
    ¬ EndsWithCloseNotify cutConnection s' := by
  obtain ⟨parsed, s', h, hbody, hends, -, htypes⟩ := outcome_eq_some
    (show outcome (plainReader.readHttpResponseFromSocket 4 plainWorkspace cutConnection) =
      some (text "ab", true, 1, [.applicationData]) by decide +kernel)
  refine ⟨parsed, s', h, hends, hbody, ?_⟩
  rintro ⟨new, alert, hreceived, halert⟩
  rw [hreceived, List.map_append] at htypes
  have hlast := congrArg List.getLast? htypes
  rw [List.map_singleton, List.getLast?_concat] at hlast
  rw [halert.1] at hlast
  cases hlast

end ResponseReader

end KernelHttp.Engine
