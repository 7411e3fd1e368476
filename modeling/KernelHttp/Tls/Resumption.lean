/-
  The handshake with a server that accepts the PSK.

  Such a server sends neither Certificate nor CertificateVerify (RFC 8446, section 4.4.2).
  `ConnectTls13` asks for both in every handshake.
-/
import KernelHttp.Tls.Secrets

namespace KernelHttp.Tls

open Program

def messageTypeOf (octets : Bytes) : Option TlsHandshakeType :=
  (parseMessage octets).toOption.map (·.type)

/-- The messages of a server that accepts the first PSK: a HelloRetryRequest or none, a
ServerHello that selects it, EncryptedExtensions and Finished. -/
structure PskFlight (flight : List Bytes) : Prop where
  stages : ∃ retry hello encryptedExtensions finished serverHello,
    flight = retry ++ [hello, encryptedExtensions, finished] ∧ retry.length ≤ 1 ∧
    (∀ message ∈ retry, isHelloRetryRequest message = true) ∧
    serverHelloOf hello = some serverHello ∧ serverHello.selectedPskIdentity = 0 ∧
    messageTypeOf encryptedExtensions = some .encryptedExtensions ∧
    messageTypeOf finished = some .finished

variable {octets : Bytes}

theorem messageTypeOf_serverHello {serverHello : Tls13ServerHelloView}
    (h : serverHelloOf octets = some serverHello) :
    messageTypeOf octets = some .serverHello := by
  rw [serverHelloOf] at h
  cases hparse : parseMessage octets with
  | error status =>
    rw [hparse] at h
    cases h
  | ok message =>
    rw [hparse] at h
    cases hhello : parseServerHello message with
    | error status =>
      rw [show (Except.ok message >>= parseServerHello) = parseServerHello message from rfl,
        hhello] at h
      cases h
    | ok view =>
      obtain ⟨_, htype, -⟩ := Incremental.bind_eq_ok hhello
      rw [messageTypeOf, hparse]
      exact congrArg some (ensure_eq_ok htype)

theorem PskFlight.no_certificate {flight : List Bytes} (h : PskFlight flight)
    (hmem : octets ∈ flight) : messageTypeOf octets ≠ some .certificate := by
  obtain ⟨retry, hello, encryptedExtensions, finished, serverHello, rfl, -, hretry, hhello, -,
    hextensions, hfinished⟩ := h.stages
  rcases List.mem_append.1 hmem with hmem | hmem
  · cases hview : serverHelloOf octets with
    | none =>
      have hno := hretry octets hmem
      rw [isHelloRetryRequest, hview] at hno
      cases hno
    | some view =>
      rw [messageTypeOf_serverHello hview]
      decide
  · simp only [List.mem_cons, List.not_mem_nil, or_false] at hmem
    rcases hmem with rfl | rfl | rfl
    · rw [messageTypeOf_serverHello hhello]
      decide
    · rw [hextensions]
      decide
    · rw [hfinished]
      decide

namespace TlsConnection

variable {E : Environment} {options : TlsClientConnectionOptions} {s s' : TlsConnection}

def serverMessages (s : TlsConnection) : List Bytes :=
  octetsOf (s.history.messages.filter (·.sender = .server))

theorem connectTls13_certificate {x : Unit} (h : connectTls13 E options s = .ok x s') :
    ∃ octets ∈ s'.serverMessages, messageTypeOf octets = some .certificate := by
  obtain ⟨agreement, t, u, v, -, -, hflights, -, hdialogue⟩ := (connectTls13_ok h).stages
  obtain ⟨entries, messages, t', u', hhears, ⟨entry, hentry, message, hparsed, htype⟩, -, hu',
    hsays⟩ := hflights.stages
  refine ⟨entry.octets, List.mem_map_of_mem (List.mem_filter.2 ⟨?_, ?_⟩), ?_⟩
  · rw [show s'.history.messages = v.history.messages from congrArg Dialogue.messages hdialogue,
      show v.history.messages = _ from
        (congrArg Dialogue.messages hsays).trans (Dialogue.saidAll_messages _), hu']
    refine List.mem_append_left _ ?_
    rw [show t'.dialogue.messages = _ from congrArg Dialogue.messages hhears.dialogue]
    exact List.mem_append_right _ hentry
  · rw [hhears.sender entry hentry]
    decide
  · rw [messageTypeOf, hparsed]
    exact congrArg some htype

/-- Whatever the transport brings and however it is fragmented: with a server that accepts the
PSK the handshake does not succeed. -/
theorem connectTls13_pskFlight (start : TlsConnection) {flight : List Bytes}
    (hflight : PskFlight flight)
    (h : (after (connectTls13 E options) (prepared options start)).serverMessages <+: flight) :
    returns (connectTls13 E options) (prepared options start) = false := by
  by_contra hreturns
  have hok := eq_ok_of_returns (Bool.eq_true_of_not_eq_false hreturns)
  obtain ⟨octets, hmem, htype⟩ := connectTls13_certificate hok
  exact hflight.no_certificate (h.subset hmem) htype

/-! ## A server that accepts the PSK -/

/-- A ticket that can be used for `plainOptions`. -/
def plainTicket : Tls13SessionTicket where
  identity := [7]
  nonce := []
  lifetimeSeconds := 60
  ageAdd := 0
  maxEarlyDataSize := 0
  issueTimeMilliseconds := 500
  serverName := text "a.b"
  alpn := []
  cipherSuite := .tlsAes128GcmSha256
  resumptionSecret := List.replicate 32 4
  policyIdentity := 0

def pskOptions : TlsClientConnectionOptions :=
  { plainOptions with sessionCache := some [plainTicket] }

def pskServerHello : Bytes :=
  plainServerHello (List.replicate 32 1) (extensionOctets extensionPreSharedKey [0, 0])

def pskFinished : Bytes :=
  plainFinished plainTicket.resumptionSecret (plainClientHello pskOptions ++ pskServerHello)
    plainEncryptedExtensions

/-- ServerHello, EncryptedExtensions and Finished. -/
def pskServer : TlsConnection where
  incoming :=
    [.octets (plaintextRecord 22 pskServerHello ++
      plainTls13Record 22 (plainEncryptedExtensions ++ pskFinished))]

theorem pskServer_checked :
    (serverHelloOf pskServerHello).map (·.selectedPskIdentity) = some 0 ∧
      (after (connectTls13 plainEnvironment pskOptions)
        (prepared pskOptions pskServer)).serverMessages =
          [pskServerHello, plainEncryptedExtensions, pskFinished] ∧
      (selectTls13Ticket pskOptions (prepared pskOptions pskServer).policyIdentity
        (plainEnvironment.currentMilliseconds 0)).toOption = some (some plainTicket) ∧
      returns (connectTls13 plainEnvironment pskOptions) (prepared pskOptions pskServer) =
        false := by
  refine ⟨?_, ?_, ?_, ?_⟩
  all_goals decide +kernel

example : messageTypeOf pskFinished = some .finished := by decide +kernel

theorem pskServer_flight :
    PskFlight [pskServerHello, plainEncryptedExtensions, pskFinished] := by
  have hhello := pskServer_checked.1
  cases hview : serverHelloOf pskServerHello with
  | none =>
    rw [hview] at hhello
    cases hhello
  | some view =>
    rw [hview] at hhello
    exact ⟨[], _, _, _, view, rfl, Nat.zero_le _, nofun, hview, Option.some.inj hhello,
      by decide +kernel, by decide +kernel⟩

theorem connectTls13_pskFlight_pskServer :
    returns (connectTls13 plainEnvironment pskOptions) (prepared pskOptions pskServer) = false :=
  connectTls13_pskFlight pskServer pskServer_flight
    ⟨[], by rw [List.append_nil, pskServer_checked.2.1]⟩

/-- The client has offered the ticket and read the whole flight, with the Finished that the
server makes of the PSK; it is taken for the Certificate. -/
theorem pskServer_refused :
    (selectTls13Ticket pskOptions (prepared pskOptions pskServer).policyIdentity
        (plainEnvironment.currentMilliseconds 0)).toOption = some (some plainTicket) ∧
    (after (connectTls13 plainEnvironment pskOptions)
        (prepared pskOptions pskServer)).serverMessages =
      [pskServerHello, plainEncryptedExtensions, pskFinished] ∧
    PskFlight [pskServerHello, plainEncryptedExtensions, pskFinished] ∧
    returns (connectTls13 plainEnvironment pskOptions) (prepared pskOptions pskServer) = false :=
  ⟨pskServer_checked.2.2.1, pskServer_checked.2.1, pskServer_flight, pskServer_checked.2.2.2⟩

end TlsConnection

end KernelHttp.Tls
