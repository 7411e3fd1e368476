/-
  The order of the server's messages in TLS 1.3 (RFC 8446, section 4).

  The last stage of `ConnectTls13` does not ask for the type of the message it reads.
-/
import KernelHttp.Tls.Resumption

namespace KernelHttp.Tls

open Program

/-- The messages in front of Finished: a HelloRetryRequest or none, ServerHello,
EncryptedExtensions, a CertificateRequest or none, Certificate and CertificateVerify. -/
structure Leading (retry request : List Bytes)
    (hello encryptedExtensions certificate certificateVerify : Bytes) : Prop where
  retry : retry.length ≤ 1 ∧ ∀ octets ∈ retry, isHelloRetryRequest octets = true
  hello : messageTypeOf hello = some .serverHello ∧ isHelloRetryRequest hello = false
  encryptedExtensions : messageTypeOf encryptedExtensions = some .encryptedExtensions
  request : request.length ≤ 1 ∧
    ∀ octets ∈ request, messageTypeOf octets = some .certificateRequest
  certificate : messageTypeOf certificate = some .certificate
  certificateVerify : messageTypeOf certificateVerify = some .certificateVerify

/-- The messages of a server, in order and none besides. -/
structure OrderedFlight (messages : List Bytes) : Prop where
  stages : ∃ retry request hello encryptedExtensions certificate certificateVerify finished,
    messages = retry ++ hello :: encryptedExtensions ::
      (request ++ [certificate, certificateVerify, finished]) ∧
    Leading retry request hello encryptedExtensions certificate certificateVerify ∧
    messageTypeOf finished = some .finished

/-- The messages behind the ServerHello. -/
def behindHellos : List Bytes → List Bytes
  | [] => []
  | hello :: messages => if isHelloRetryRequest hello then messages.drop 1 else messages

/-- The message in the place of Finished: the fourth behind the ServerHello, or the fifth if the
second one is a CertificateRequest. -/
def finishedPlace (messages : List Bytes) : Option Bytes :=
  match behindHellos messages with
  | _ :: second :: rest =>
    if messageTypeOf second = some .certificateRequest then rest[2]? else rest[1]?
  | _ => none

namespace Leading

variable {retry request : List Bytes}
  {hello encryptedExtensions certificate certificateVerify : Bytes}

theorem behindHellos_eq
    (h : Leading retry request hello encryptedExtensions certificate certificateVerify)
    (messages : List Bytes) : behindHellos (retry ++ hello :: messages) = messages := by
  obtain ⟨hlength, hretry⟩ := h.retry
  match retry with
  | [] =>
    change (if isHelloRetryRequest hello = true then messages.drop 1 else messages) = messages
    rw [h.hello.2, if_neg Bool.false_ne_true]
  | [first] =>
    change (if isHelloRetryRequest first = true then (hello :: messages).drop 1
      else hello :: messages) = messages
    rw [if_pos (hretry first (List.mem_singleton_self first))]
    rfl
  | _ :: _ :: _ => simp at hlength

theorem finishedPlace_eq
    (h : Leading retry request hello encryptedExtensions certificate certificateVerify)
    (finished : Bytes) (more : List Bytes) :
    finishedPlace (retry ++ hello :: encryptedExtensions ::
      (request ++ [certificate, certificateVerify, finished]) ++ more) = some finished := by
  rw [finishedPlace, List.append_assoc, List.cons_append, h.behindHellos_eq]
  obtain ⟨hlength, hrequest⟩ := h.request
  match request with
  | [] =>
    have hne : ¬ messageTypeOf certificate = some .certificateRequest := by
      rw [h.certificate]
      decide
    exact if_neg hne
  | [second] => exact if_pos (hrequest second (List.mem_singleton_self second))
  | _ :: _ :: _ => simp at hlength

end Leading

theorem messageTypeOf_eq {octets : Bytes} {message : TlsHandshakeMessageView}
    (h : parseMessage octets = .ok message) : messageTypeOf octets = some message.type := by
  rw [messageTypeOf, h]
  rfl

namespace TlsConnection

variable {E : Environment} {options : TlsClientConnectionOptions} {s s' : TlsConnection}

variable {agreement : Tls13Agreement}

theorem finishHandshake_messages {u : Unit} (h : finishHandshake E options agreement s = .ok u s') :
    ∃ request encryptedExtensions certificate certificateVerify finished,
      s'.serverMessages = s.serverMessages ++ encryptedExtensions ::
        (request ++ [certificate, certificateVerify, finished]) ∧
      messageTypeOf encryptedExtensions = some .encryptedExtensions ∧
      (request.length ≤ 1 ∧
        ∀ octets ∈ request, messageTypeOf octets = some .certificateRequest) ∧
      messageTypeOf certificate = some .certificate ∧
      messageTypeOf certificateVerify = some .certificateVerify := by
  obtain ⟨_, t₀, ht₀, h⟩ := bind_eq_ok h
  have hsilent : t₀.dialogue = s.dialogue :=
    Silent.ok (readOptionalCompatibilityChangeCipherSpec_makes dialogue_ignoresReading) ht₀
  obtain ⟨encryptedExtensions, t₁, ht₁, h⟩ := bind_eq_ok h
  obtain ⟨-, message, first, hparsed₁, hview, hfirst⟩ := readEncryptedExtensions_ok ht₁
  obtain ⟨answer, t₂, ht₂, h⟩ := bind_eq_ok h
  obtain ⟨requests, certificate, hparsed₂, hcertificates, -, hlength, hrequests⟩ :=
    readCertificateMessage_ok ht₂
  obtain ⟨_, t₃, ht₃, h⟩ := bind_eq_ok h
  obtain ⟨htype, verifyMessage, verify, hparsed₃, hverifyType, hverify⟩ := authenticateServer_ok ht₃
  obtain ⟨_, t₄, ht₄, h⟩ := bind_eq_ok h
  obtain ⟨-, finished, -, -, hfinished⟩ := readServerFinished_ok ht₄
  obtain ⟨_, t₅, ht₅, h⟩ := bind_eq_ok h
  obtain ⟨-, hderived⟩ := deriveApplicationSecrets_ok ht₅
  obtain ⟨messages, hsays⟩ := sendClientFlight_ok h
  have hhears := ((hfirst.append hcertificates).append hverify).append hfinished
  have hext : message.type = .encryptedExtensions := by
    obtain ⟨_, hensure, -⟩ := Incremental.bind_eq_ok hview
    exact ensure_eq_ok hensure
  refine ⟨octetsOf requests, first.octets, certificate.octets, verify.octets, finished.octets, ?_,
    ?_, ⟨?_, ?_⟩, ?_, ?_⟩
  · -- the client's messages are not among them
    have hmessages : s'.history.messages = s.history.messages ++
        ([first] ++ (requests ++ [certificate]) ++ [verify] ++ [finished]) ++
          messages.map clientEntry := by
      have hlast : s'.history.messages = t₅.history.messages ++ messages.map clientEntry :=
        (congrArg Dialogue.messages hsays).trans (Dialogue.saidAll_messages _)
      have hmiddle : t₅.history.messages = t₄.history.messages := congrArg Dialogue.messages hderived
      have hheard : t₄.history.messages = t₀.history.messages ++ _ :=
        congrArg Dialogue.messages hhears.dialogue
      have hfront : t₀.history.messages = s.history.messages := congrArg Dialogue.messages hsilent
      rw [hlast, hmiddle, hheard, hfront]
    have hserver : ∀ entries : List HandshakeEntry, (∀ e ∈ entries, e.sender = .server) →
        entries.filter (·.sender = .server) = entries := by
      intro entries hentries
      exact List.filter_eq_self.2 fun e he => decide_eq_true (hentries e he)
    have hclient : (messages.map clientEntry).filter (·.sender = .server) = [] := by
      rw [List.filter_eq_nil_iff]
      rintro e he
      obtain ⟨octets, -, rfl⟩ := List.mem_map.1 he
      simp [clientEntry]
    rw [serverMessages, hmessages, List.filter_append, List.filter_append, hclient,
      hserver _ hhears.sender]
    simp [serverMessages, octetsOf]
  · rw [messageTypeOf_eq hparsed₁, hext]
  · rw [octetsOf, List.length_map]
    exact hlength
  · intro octets hoctets
    obtain ⟨e, he, rfl⟩ := List.mem_map.1 hoctets
    obtain ⟨request, hparsed, hrequest⟩ := hrequests e he
    rw [messageTypeOf_eq hparsed, hrequest]
  · rw [messageTypeOf_eq hparsed₂, htype]
  · rw [messageTypeOf_eq hparsed₃, hverifyType]

theorem serverMessages_congr {t : TlsConnection} (h : t.history.messages = s.history.messages) :
    t.serverMessages = s.serverMessages := by
  rw [serverMessages, h, serverMessages]

theorem negotiate_order (hs : s.history.messages = [])
    (h : negotiate E options s = .ok agreement s') :
    ∃ retry hello, s'.serverMessages = retry ++ [hello] ∧
      (retry.length ≤ 1 ∧ ∀ octets ∈ retry, isHelloRetryRequest octets = true) ∧
      messageTypeOf hello = some .serverHello ∧ isHelloRetryRequest hello = false := by
  obtain ⟨hellos, hsaid, hmessages⟩ := (negotiate_ok h).messages
  rw [hs, List.nil_append] at hmessages
  rw [serverMessages, hmessages]
  cases hsaid with
  | @direct offer view entry _ hsender hoctets hview hlast =>
    refine ⟨[], entry.octets, ?_, ⟨Nat.zero_le _, nofun⟩, ?_, ?_⟩
    · simp [octetsOf, clientEntry, hsender]
    · rw [hoctets]
      exact messageTypeOf_serverHello hview
    · rw [hoctets, isHelloRetryRequest, hview]
      exact hlast
  | @retried clientHello offer retryView view retry entry hsender hretryView hretry _ hsender'
      hoctets hview hlast _ =>
    refine ⟨[retry.octets], entry.octets, ?_, ⟨le_rfl, fun octets hoctets' => ?_⟩, ?_, ?_⟩
    · simp [octetsOf, clientEntry, hsender, hsender']
    · rw [List.mem_singleton.1 hoctets', isHelloRetryRequest, hretryView]
      exact hretry
    · rw [hoctets]
      exact messageTypeOf_serverHello hview
    · rw [hoctets, isHelloRetryRequest, hview]
      exact hlast

theorem connectTls13_leading (hs : s.history.messages = []) {x : Unit}
    (h : connectTls13 E options s = .ok x s') :
    ∃ retry request hello encryptedExtensions certificate certificateVerify finished,
      s'.serverMessages = retry ++ hello :: encryptedExtensions ::
        (request ++ [certificate, certificateVerify, finished]) ∧
      Leading retry request hello encryptedExtensions certificate certificateVerify := by
  obtain ⟨agreement, t, ht, h⟩ := bind_eq_ok h
  obtain ⟨_, u, hu, h⟩ := bind_eq_ok h
  obtain ⟨_, v, hv, h⟩ := bind_eq_ok h
  obtain ⟨retry, hello, hhellos, hretry, hhello⟩ := negotiate_order hs ht
  obtain ⟨request, encryptedExtensions, certificate, certificateVerify, finished, hflight, hext,
    hrequest, hcertificate, hverify⟩ := finishHandshake_messages hv
  have hkeys : u.serverMessages = t.serverMessages :=
    serverMessages_congr (congrArg Dialogue.messages (deriveHandshakeKeys_ok hu).dialogue)
  have hlast : s'.serverMessages = v.serverMessages :=
    serverMessages_congr (congrArg Dialogue.messages (configureApplicationStates_ok h).2)
  refine ⟨retry, request, hello, encryptedExtensions, certificate, certificateVerify, finished, ?_,
    hretry, hhello, hext, hrequest, hcertificate, hverify⟩
  rw [hlast, hflight, hkeys, hhellos, List.append_assoc]
  rfl

/-- **The order of the messages is enforced up to Finished.**  A handshake that succeeds has
processed messages that are in order if and only if a Finished is in its place, in any list of
messages with which the server has answered. -/
theorem connectTls13_ordered_iff (E : Environment) (options : TlsClientConnectionOptions)
    (start : TlsConnection) (flight : List Bytes)
    (hreturns : returns (connectTls13 E options) (prepared options start) = true)
    (hflight : (after (connectTls13 E options) (prepared options start)).serverMessages <+:
      flight) :
    OrderedFlight (after (connectTls13 E options) (prepared options start)).serverMessages ↔
      (finishedPlace flight).bind messageTypeOf = some .finished := by
  obtain ⟨more, rfl⟩ := hflight
  obtain ⟨retry, request, hello, encryptedExtensions, certificate, certificateVerify, finished,
    hmessages, hleading⟩ := connectTls13_leading rfl (eq_ok_of_returns hreturns)
  constructor
  · rintro ⟨retry', request', hello', encryptedExtensions', certificate', certificateVerify',
      finished', hmessages', hleading', htype⟩
    rw [hmessages', hleading'.finishedPlace_eq]
    exact htype
  · intro h
    rw [hmessages, hleading.finishedPlace_eq] at h
    exact ⟨retry, request, hello, encryptedExtensions, certificate, certificateVerify, finished,
      hmessages, hleading, h⟩

/-! ## A message in the place of Finished -/

theorem connectTls13_ordered_iff_separated :
    OrderedFlight (after (connectTls13 plainEnvironment plainOptions)
        (prepared plainOptions separatedServer)).serverMessages ↔
      (finishedPlace (after (connectTls13 plainEnvironment plainOptions)
        (prepared plainOptions separatedServer)).serverMessages).bind messageTypeOf =
        some .finished :=
  connectTls13_ordered_iff plainEnvironment plainOptions separatedServer _ (by decide +kernel)
    List.prefix_rfl

/-- A Finished with the type of a KeyUpdate. -/
def mistypedFinished : Bytes :=
  TlsHandshakeType.keyUpdate.octet :: (plainFinished [] plainHellos plainFlight).drop 1

example : messageTypeOf mistypedFinished = some .keyUpdate := by decide +kernel

/-- The server sends it in the place of its Finished. -/
def mistypingServer : TlsConnection where
  incoming :=
    [.octets (plaintextRecord 22 (plainServerHello (List.replicate 32 1) []) ++
      plainTls13Record 22 (plainFlight ++ mistypedFinished))]

/-- The handshake succeeds, with no Finished among the messages. -/
theorem mistypingServer_accepted :
    returns (connectTls13 plainEnvironment plainOptions) (prepared plainOptions mistypingServer) =
      true ∧
    ¬ OrderedFlight (after (connectTls13 plainEnvironment plainOptions)
      (prepared plainOptions mistypingServer)).serverMessages := by
  refine ⟨by decide +kernel, ?_⟩
  rintro ⟨retry, request, hello, encryptedExtensions, certificate, certificateVerify, finished,
    hmessages, -, htype⟩
  have hnone : ∀ octets ∈ (after (connectTls13 plainEnvironment plainOptions)
      (prepared plainOptions mistypingServer)).serverMessages,
      messageTypeOf octets ≠ some .finished := by
    decide +kernel
  refine hnone finished ?_ htype
  rw [hmessages]
  simp

end TlsConnection

end KernelHttp.Tls
