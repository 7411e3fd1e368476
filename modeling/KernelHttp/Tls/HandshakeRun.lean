/-
  The stages of a successful handshake of TLS 1.3.

  For each stage of `ConnectTls13`, what it has checked when it returns, and what it has added
  to the dialogue.
-/
import KernelHttp.Tls.Dialogue
import KernelHttp.Tls.Schedule

namespace KernelHttp.Tls.TlsConnection

open Program

variable {E : Environment} {options : TlsClientConnectionOptions} {s s' : TlsConnection}

theorem ofFailure_eq_ok {α : Type} {x : Except FailureStatus α} {a : α}
    (h : ofFailure x s = .ok a s') : x = .ok a ∧ s = s' := by
  cases x with
  | ok b =>
    cases h
    exact ⟨rfl, rfl⟩
  | error failure => cases h

variable {retried : Bool} {agreement : Tls13Agreement} {hello : Tls13ClientHelloOptions}
    {offer : Tls13Offer} {serverHello : Tls13ServerHelloView} {t : TlsConnection}
    {message : TlsHandshakeMessageView} {u : Unit} {capacity : ℕ}

theorem withContext_eq_ok {f : TlsContext → Except NTSTATUS TlsContext}
    (h : withContext f s = .ok u s') : ∃ context, f s.context = .ok context ∧
      s' = { s with context } := by
  obtain ⟨_, _, hget, h⟩ := bind_eq_ok h
  cases hget
  obtain ⟨context, t, ht, h⟩ := bind_eq_ok h
  obtain ⟨hf, rfl⟩ := ofExcept_eq_ok ht
  cases h
  exact ⟨context, hf, rfl⟩

/-! ## The offer -/

/-- The context behind `InitializeClient13`. -/
def initialContext (random : Bytes) : TlsContext :=
  { protocol := .tls13, cipherSuite := .tlsAes128GcmSha256, clientRandom := random }

theorem initializeTls13_ok (h : initializeTls13 E options s = .ok u s') :
    ∃ random, E.generateRandom = .ok random ∧ s'.calls = s.calls ∧
      s'.dialogue = { s.dialogue with
        context := initialContext random.val
        transcriptAlgorithm := .sha256
        transcript := [] } := by
  obtain ⟨_, t, ht, h⟩ := bind_eq_ok h
  cases ht
  obtain ⟨random, t, ht, h⟩ := bind_eq_ok h
  obtain ⟨hrandom, rfl⟩ := ofFailure_eq_ok ht
  cases h
  exact ⟨random, hrandom, rfl, rfl⟩

def ticketContext (context : TlsContext) (ticket : Option Tls13SessionTicket) : TlsContext :=
  ticket.elim context fun ticket => context.setCipherSuite ticket.cipherSuite

def OffersTicket (E : Environment) (options : TlsClientConnectionOptions) (policyIdentity calls : ℕ)
    (ticket : Option Tls13SessionTicket) : Prop :=
  selectTls13Ticket options policyIdentity (E.currentMilliseconds calls) = .ok ticket

/-- What the first ClientHello offers. -/
structure Offers (E : Environment) (options : TlsClientConnectionOptions) (context : TlsContext)
    (policyIdentity calls : ℕ) (offer : Tls13Offer) : Prop where
  keyPair : E.generateKeyPair .x25519 = .ok offer.keyPair
  ticket : OffersTicket E options policyIdentity calls offer.selectedTicket
  encoded : encodeOffer E.keys (ticketContext context offer.selectedTicket) offer.selectedTicket []
    (helloOptions options offer.keyPair (E.currentMilliseconds calls) offer.selectedTicket) =
      .ok (offer.hello, offer.message)

theorem offerHello_ok (h : offerHello E options s = .ok offer s') :
    Offers E options s.context s.policyIdentity s.calls offer ∧
      s'.dialogue = (Dialogue.said
        { s.dialogue with context := ticketContext s.context offer.selectedTicket }
        offer.message).wrotePlain .handshake offer.message := by
  obtain ⟨keyPair, t, ht, h⟩ := bind_eq_ok h
  obtain ⟨hkeyPair, rfl⟩ := ofFailure_eq_ok ht
  obtain ⟨ticket, t, ht, h⟩ := bind_eq_ok h
  obtain ⟨_, _, hget, ht⟩ := bind_eq_ok ht
  cases hget
  obtain ⟨ticket', u, hu, ht⟩ := bind_eq_ok ht
  obtain ⟨hticket, rfl⟩ := ofExcept_eq_ok hu
  obtain ⟨_, u, hu, ht⟩ := bind_eq_ok ht
  cases hu
  cases ht
  obtain ⟨_, _, hget, h⟩ := bind_eq_ok h
  cases hget
  obtain ⟨⟨hello, message⟩, u, hu, h⟩ := bind_eq_ok h
  obtain ⟨hencoded, rfl⟩ := ofExcept_eq_ok hu
  obtain ⟨_, u, hu, h⟩ := bind_eq_ok h
  have hsaid := (sendClientHello_said E message _).ok hu
  cases h
  exact ⟨⟨hkeyPair, hticket, hencoded⟩, hsaid⟩

/-! ## Early data -/

/-- The keys of the early data; the ClientHello is hashed with SHA-256. -/
structure EarlyKeys (E : Environment) (d : Dialogue) (resumptionSecret : Bytes)
    (context : TlsContext) (state : TlsAeadCipherState) : Prop where
  derived : ∃ early, d.context.deriveTls13EarlySecret E.keys resumptionSecret = .ok early ∧
    early.deriveTls13ClientEarlyTrafficSecret E.keys
      (E.keys.hash d.transcriptAlgorithm d.transcript) = .ok context
  state : context.configureTls13EarlyAesGcmState E.keys = .ok state

theorem configureEarlyData_ok {resumptionSecret : Bytes}
    (h : configureEarlyData E resumptionSecret s = .ok u s') :
    ∃ context state, EarlyKeys E s.dialogue resumptionSecret context state ∧
      s'.dialogue = { s.dialogue with context, clientWriteState := state } := by
  obtain ⟨hash, t, ht, h⟩ := bind_eq_ok h
  cases ht
  obtain ⟨_, t, ht, h⟩ := bind_eq_ok h
  obtain ⟨early, hearly, rfl⟩ := withContext_eq_ok ht
  obtain ⟨_, t, ht, h⟩ := bind_eq_ok h
  obtain ⟨context, hcontext, rfl⟩ := withContext_eq_ok ht
  obtain ⟨_, _, hget, h⟩ := bind_eq_ok h
  cases hget
  obtain ⟨state, t, ht, h⟩ := bind_eq_ok h
  obtain ⟨hstate, rfl⟩ := ofExcept_eq_ok ht
  cases h
  exact ⟨context, state, ⟨⟨early, hearly, hcontext⟩, hstate⟩, rfl⟩

theorem sendEarlyFrom_ok : ∀ {fuel : ℕ} {data : Bytes} {s : TlsConnection},
    sendEarlyFrom E fuel data s = .ok u s' →
    ∃ chunks : List Bytes, chunks.flatten = data ∧
      s'.dialogue = s.dialogue.wroteAll .applicationData chunks := by
  intro fuel
  induction fuel with
  | zero =>
    intro data s h
    cases data with
    | nil =>
      cases h
      exact ⟨[], rfl, rfl⟩
    | cons c data => cases h
  | succ fuel ih =>
    intro data s h
    cases data with
    | nil =>
      cases h
      exact ⟨[], rfl, rfl⟩
    | cons c data =>
      rw [sendEarlyFrom.eq_3 _ _ _ (List.cons_ne_nil _ _)] at h
      obtain ⟨_, _, hget, h⟩ := bind_eq_ok h
      cases hget
      obtain ⟨_, t, ht, h⟩ := bind_eq_ok h
      have hwrote := (sendProtectedRecord13_wrote E .applicationData _ s).ok ht
      obtain ⟨chunks, hflatten, hchunks⟩ := ih h
      refine ⟨_ :: chunks, ?_, hwrote ▸ hchunks⟩
      rw [List.flatten_cons, hflatten, List.take_append_drop]

/-- The early data, where there is some. -/
inductive EarlyData (E : Environment) (options : TlsClientConnectionOptions) (offer : Tls13Offer)
    (d : Dialogue) : Dialogue → Prop
  | nothing (h : earlyDataToSend options offer = []) : EarlyData E options offer d d
  | sent {context : TlsContext} {state : TlsAeadCipherState} {chunks : List Bytes}
      (hne : earlyDataToSend options offer ≠ [])
      (hkeys : EarlyKeys E d (offer.selectedTicket.elim [] (·.resumptionSecret)) context state)
      (hchunks : chunks.flatten = earlyDataToSend options offer) :
      EarlyData E options offer d
        (Dialogue.wroteAll { d with context, clientWriteState := state } .applicationData chunks)

theorem sendEarlyData_ok (h : sendEarlyData E options offer s = .ok u s') :
    EarlyData E options offer s.dialogue s'.dialogue := by
  obtain ⟨hne, h⟩ | ⟨hnil, rfl⟩ := when_eq_ok h
  · obtain ⟨_, t, ht, h⟩ := bind_eq_ok h
    obtain ⟨context, state, hkeys, hdialogue⟩ := configureEarlyData_ok ht
    obtain ⟨chunks, hflatten, hwrote⟩ := sendEarlyFrom_ok h
    rw [hwrote, hdialogue]
    exact .sent hne hkeys hflatten
  · exact .nothing (not_not.1 hnil)

/-! ## The hellos -/

/-- The hello of the server that was read last suits the offer. -/
structure HeardHello (offer : Tls13Offer) (retried : Bool) (serverHello : Tls13ServerHelloView)
    (s s' : TlsConnection) : Prop where
  hello : serverHelloOf s'.lastHandshake = some serverHello
  suits : validateServerHelloOffer serverHello offer.hello = .ok ()
  once : ¬ (retried ∧ serverHello.isHelloRetryRequest)
  psk : validateSelectedPskForConnection (s.context.setCipherSuite serverHello.cipherSuite)
    serverHello offer = .ok ()
  dialogue : ∃ entry : HandshakeEntry, entry.sender = .server ∧ entry.octets = s'.lastHandshake ∧
    s'.dialogue = { s.dialogue.heard entry true with
      context := s.context.setCipherSuite serverHello.cipherSuite }

theorem readServerHello_ok (h : readServerHello E offer retried s = .ok serverHello s') :
    HeardHello offer retried serverHello s s' := by
  obtain ⟨message, t, ht, h⟩ := bind_eq_ok h
  obtain ⟨hparsed, entry, hsender, hoctets, hdialogue⟩ := readHandshakeMessage_heard ht
  obtain ⟨hello, u, hu, h⟩ := bind_eq_ok h
  obtain ⟨hhello, rfl⟩ := ofExcept_eq_ok hu
  obtain ⟨_, u, hu, h⟩ := bind_eq_ok h
  cases hu
  obtain ⟨_, u, hu, h⟩ := bind_eq_ok h
  obtain ⟨hsuits, rfl⟩ := ofExcept_eq_ok hu
  obtain ⟨_, u, hu, h⟩ := bind_eq_ok h
  obtain ⟨honce, rfl⟩ := require_eq_ok hu
  obtain ⟨_, _, hget, h⟩ := bind_eq_ok h
  cases hget
  obtain ⟨_, u, hu, h⟩ := bind_eq_ok h
  obtain ⟨hpsk, rfl⟩ := ofExcept_eq_ok hu
  cases h
  have hcontext : t.context = s.context := congrArg Dialogue.context hdialogue
  refine ⟨?_, hsuits, honce, hcontext ▸ hpsk, entry, hsender, hoctets, ?_⟩
  · dsimp only [serverHelloOf]
    rw [hparsed]
    exact congrArg Except.toOption hhello
  · rw [← hdialogue, ← hcontext]
    rfl

/-- The second ClientHello, behind a HelloRetryRequest. -/
structure RetriedOffer (E : Environment) (context : TlsContext) (helloRetryRequest : Bytes)
    (retryGroup : TlsNamedGroup) (offer retried : Tls13Offer) : Prop where
  keyPair : E.generateKeyPair retryGroup = .ok retried.keyPair
  ticket : retried.selectedTicket = offer.selectedTicket
  suite : offer.selectedTicket.all fun ticket => ticket.cipherSuite = context.cipherSuite
  encoded : encodeOffer E.keys context offer.selectedTicket
    (messageHash E.keys context.algorithm offer.message ++ helloRetryRequest)
    { offer.hello with keyShares := [⟨retryGroup, retried.keyPair.publicKey⟩] } =
      .ok (retried.hello, retried.message)

theorem retryHello_ok {retried : Tls13Offer} {retryGroup : TlsNamedGroup}
    (h : retryHello E offer retryGroup s = .ok retried s') :
    RetriedOffer E s.context s.lastHandshake retryGroup offer retried ∧
      s'.dialogue =
        (s.dialogue.said retried.message).wrotePlain .handshake retried.message := by
  obtain ⟨_, _, hget, h⟩ := bind_eq_ok h
  cases hget
  obtain ⟨_, t, ht, h⟩ := bind_eq_ok h
  obtain ⟨-, rfl⟩ := require_eq_ok ht
  obtain ⟨_, t, ht, h⟩ := bind_eq_ok h
  obtain ⟨-, rfl⟩ := require_eq_ok ht
  obtain ⟨keyPair, t, ht, h⟩ := bind_eq_ok h
  obtain ⟨hkeyPair, rfl⟩ := ofFailure_eq_ok ht
  obtain ⟨_, t, ht, h⟩ := bind_eq_ok h
  obtain ⟨hsuite, rfl⟩ := require_eq_ok ht
  obtain ⟨⟨hello, message⟩, t, ht, h⟩ := bind_eq_ok h
  obtain ⟨hencoded, rfl⟩ := ofExcept_eq_ok ht
  obtain ⟨_, t, ht, h⟩ := bind_eq_ok h
  have hsaid := (sendClientHello_said E message s).ok ht
  cases h
  exact ⟨⟨hkeyPair, rfl, hsuite, hencoded⟩, hsaid⟩

/-- The hellos behind the first ClientHello. -/
inductive Hellos (E : Environment) (offer : Tls13Offer) (s s' : TlsConnection) :
    Tls13Agreement → Prop
  | direct {serverHello : Tls13ServerHelloView} (h : HeardHello offer false serverHello s s')
      (hretry : serverHello.isHelloRetryRequest = false) :
      Hellos E offer s s' ⟨offer, serverHello, none⟩
  | retried {t u : TlsConnection} {helloRetryRequest serverHello : Tls13ServerHelloView}
      {retried : Tls13Offer} (hfirst : HeardHello offer false helloRetryRequest s t)
      (hretry : helloRetryRequest.isHelloRetryRequest = true)
      (hoffer : RetriedOffer E t.context t.lastHandshake helloRetryRequest.retryGroup offer retried)
      (hsaid : u.dialogue =
        (t.dialogue.said retried.message).wrotePlain .handshake retried.message)
      (h : HeardHello retried true serverHello u s') :
      Hellos E offer s s' ⟨retried, serverHello, some (offer.message, t.lastHandshake)⟩

theorem exchangeHellos_ok
    (h : exchangeHellos E offer s = .ok agreement s') : Hellos E offer s s' agreement := by
  obtain ⟨first, t, ht, h⟩ := bind_eq_ok h
  have hfirst := readServerHello_ok ht
  cases hretry : first.isHelloRetryRequest with
  | true =>
    rw [if_pos hretry] at h
    obtain ⟨_, _, hget, h⟩ := bind_eq_ok h
    cases hget
    obtain ⟨retried, u, hu, h⟩ := bind_eq_ok h
    obtain ⟨hoffer, hsaid⟩ := retryHello_ok hu
    obtain ⟨serverHello, v, hv, h⟩ := bind_eq_ok h
    cases h
    exact .retried hfirst hretry hoffer hsaid (readServerHello_ok hv)
  | false =>
    rw [if_neg (by rw [hretry]; exact Bool.false_ne_true)] at h
    cases h
    exact .direct hfirst hretry

/-! ## The handshake keys -/

/-- The handshake keys are derived. -/
structure HandshakeKeys (E : Environment) (agreement : Tls13Agreement) (s s' : TlsConnection) :
    Prop where
  secrets : ∃ sharedSecret early, E.deriveSharedSecret agreement.offer.keyPair
      agreement.serverHello.keyShare.keyExchange = .ok sharedSecret ∧
    s.context.deriveTls13EarlySecret E.keys agreement.psk = .ok early ∧
    early.deriveTls13HandshakeSecrets E.keys sharedSecret (E.keys.hash s.context.algorithm
      (agreement.hellos E.keys s.context.algorithm ++ s.lastHandshake)) = .ok s'.context
  state : s'.context.configureState E.keys s'.context.secrets.clientHandshakeTrafficSecret =
    .ok s'.clientWriteState
  dialogue : s'.dialogue = { s.dialogue with
    context := s'.context
    clientWriteState := s'.clientWriteState
    transcriptAlgorithm := s.context.algorithm
    transcript := agreement.hellos E.keys s.context.algorithm ++ s.lastHandshake }

/-- Two states, configured one after the other. -/
theorem configureStates_eq_ok {context : TlsContext} {client server : Bytes}
    {states : TlsAeadCipherState × TlsAeadCipherState}
    (h : (do
      let clientWriteState ← context.configureState E.keys client
      let serverWriteState ← context.configureState E.keys server
      return (clientWriteState, serverWriteState) : Except NTSTATUS _) = .ok states) :
    context.configureState E.keys client = .ok states.1 ∧
      context.configureState E.keys server = .ok states.2 := by
  obtain ⟨clientState, hclient, h⟩ := Incremental.bind_eq_ok h
  obtain ⟨serverState, hserver, h⟩ := Incremental.bind_eq_ok h
  cases h
  exact ⟨hclient, hserver⟩

theorem deriveHandshakeKeys_ok
    (h : deriveHandshakeKeys E agreement s = .ok u s') : HandshakeKeys E agreement s s' := by
  obtain ⟨sharedSecret, t, ht, h⟩ := bind_eq_ok h
  obtain ⟨hshared, rfl⟩ := ofFailure_eq_ok ht
  obtain ⟨_, t, ht, h⟩ := bind_eq_ok h
  cases ht
  obtain ⟨hash, t, ht, h⟩ := bind_eq_ok h
  cases ht
  obtain ⟨_, t, ht, h⟩ := bind_eq_ok h
  obtain ⟨early, hearly, rfl⟩ := withContext_eq_ok ht
  obtain ⟨_, t, ht, h⟩ := bind_eq_ok h
  obtain ⟨context, hcontext, rfl⟩ := withContext_eq_ok ht
  obtain ⟨_, _, hget, h⟩ := bind_eq_ok h
  cases hget
  obtain ⟨states, t, ht, h⟩ := bind_eq_ok h
  obtain ⟨hstates, rfl⟩ := ofExcept_eq_ok ht
  cases h
  exact ⟨⟨sharedSecret, early, hshared, hearly, hcontext⟩, (configureStates_eq_ok hstates).1, rfl⟩

/-! ## The messages of the server -/

/-- Messages of the server were heard. -/
structure Hears (entries : List HandshakeEntry) (s s' : TlsConnection) : Prop where
  sender : ∀ entry ∈ entries, entry.sender = .server
  dialogue : s'.dialogue = s.dialogue.heardAll entries

theorem Hears.append {entries more : List HandshakeEntry}
    (h : Hears entries s t) (h' : Hears more t s') : Hears (entries ++ more) s s' where
  sender entry he := (List.mem_append.1 he).elim (h.sender entry) (h'.sender entry)
  dialogue := by rw [h'.dialogue, h.dialogue, Dialogue.heardAll_heardAll]

theorem Heard.hears (h : Heard message true s s') :
    ∃ entry, parseMessage entry.octets = .ok message ∧ Hears [entry] s s' := by
  obtain ⟨hparsed, entry, hsender, hoctets, hdialogue⟩ := h
  refine ⟨entry, hoctets ▸ hparsed, fun e he => ?_, ?_⟩
  · rw [List.mem_singleton.1 he]
    exact hsender
  · rw [hdialogue, Dialogue.heard_eq_heardAll]

/-- A message that enters the transcript when it has been checked. -/
theorem Heard.hears_appended (h : Heard message false s t) (ht : appendLastHandshake t = .ok u s') :
    ∃ entry, parseMessage entry.octets = .ok message ∧ Hears [entry] s s' := by
  obtain ⟨hparsed, entry, hsender, hoctets, hdialogue⟩ := h
  obtain ⟨_, _, hget, ht⟩ := bind_eq_ok ht
  cases hget
  cases ht
  refine ⟨entry, hoctets ▸ hparsed, fun e he => ?_, ?_⟩
  · rw [List.mem_singleton.1 he]
    exact hsender
  · rw [← Dialogue.heard_eq_heardAll, ← Dialogue.heard_false, ← hdialogue, hoctets]
    have htranscript : t.transcript = s.transcript := by
      have h := congrArg Dialogue.transcript hdialogue
      simp only [Dialogue.heard, Bool.false_eq_true, if_false, List.append_nil] at h
      exact h
    show _ = { t.dialogue with transcript := s.transcript ++ t.lastHandshake }
    rw [← htranscript]
    rfl

/-- What EncryptedExtensions is checked for. -/
structure SuitsAgreement (options : TlsClientConnectionOptions) (agreement : Tls13Agreement)
    (encryptedExtensions : Tls13EncryptedExtensionsView) : Prop where
  alpn : encryptedExtensions.alpn ≠ [] → isOfferedAlpn options encryptedExtensions.alpn
  ticket : agreement.resumed → agreement.offer.selectedTicket.all fun ticket =>
    ticket.alpn = encryptedExtensions.alpn
  earlyData : encryptedExtensions.earlyDataAccepted →
    agreement.offer.hello.offerEarlyData ∧ agreement.resumed

theorem readEncryptedExtensions_ok {encryptedExtensions : Tls13EncryptedExtensionsView}
    (h : readEncryptedExtensions E options agreement s = .ok encryptedExtensions s') :
    SuitsAgreement options agreement encryptedExtensions ∧ ∃ message entry,
      parseMessage entry.octets = .ok message ∧
      parseEncryptedExtensions message = .ok encryptedExtensions ∧ Hears [entry] s s' := by
  obtain ⟨message, t, ht, h⟩ := bind_eq_ok h
  obtain ⟨entry, hparsed, hhears⟩ := (readHandshakeMessage_heard ht).hears
  obtain ⟨view, u, hu, h⟩ := bind_eq_ok h
  obtain ⟨hview, rfl⟩ := ofExcept_eq_ok hu
  obtain ⟨_, u, hu, h⟩ := bind_eq_ok h
  have halpn : (view.alpn ≠ [] → isOfferedAlpn options view.alpn) ∧ u.dialogue = t.dialogue := by
    obtain ⟨hne, hu⟩ | ⟨hnil, rfl⟩ := when_eq_ok hu
    · obtain ⟨_, w, hw, hu⟩ := bind_eq_ok hu
      obtain ⟨-, rfl⟩ := require_eq_ok hw
      obtain ⟨_, w, hw, hu⟩ := bind_eq_ok hu
      cases hw
      obtain ⟨hoffered, rfl⟩ := require_eq_ok hu
      exact ⟨fun _ => hoffered, rfl⟩
    · exact ⟨fun hne => absurd hne hnil, rfl⟩
  obtain ⟨_, w, hw, h⟩ := bind_eq_ok h
  obtain ⟨hticket, rfl⟩ := require_eq_ok hw
  obtain ⟨_, w, hw, h⟩ := bind_eq_ok h
  obtain ⟨hearly, rfl⟩ := require_eq_ok hw
  cases h
  exact ⟨⟨halpn.1, hticket, hearly⟩, message, entry, hparsed, hview, hhears.sender,
    halpn.2.trans hhears.dialogue⟩

theorem readCertificateMessage_ok
    {answer : Option CertificateAnswer × TlsHandshakeMessageView}
    (h : readCertificateMessage E options s = .ok answer s') :
    ∃ entries entry, parseMessage entry.octets = .ok answer.2 ∧ Hears (entries ++ [entry]) s s' ∧
      (answer.1 = none ↔ entries = []) ∧ entries.length ≤ 1 ∧
      ∀ e ∈ entries, ∃ message, parseMessage e.octets = .ok message ∧
        message.type = .certificateRequest := by
  obtain ⟨message, t, ht, h⟩ := bind_eq_ok h
  obtain ⟨entry, hparsed, hhears⟩ := (readHandshakeMessage_heard ht).hears
  by_cases htype : message.type = .certificateRequest
  · rw [if_pos htype] at h
    obtain ⟨request, u, hu, h⟩ := bind_eq_ok h
    obtain ⟨-, rfl⟩ := ofExcept_eq_ok hu
    obtain ⟨_, u, hu, h⟩ := bind_eq_ok h
    obtain ⟨-, rfl⟩ := require_eq_ok hu
    obtain ⟨schemes, u, hu, h⟩ := bind_eq_ok h
    obtain ⟨-, rfl⟩ := ofExcept_eq_ok hu
    obtain ⟨selected, u, hu, h⟩ := bind_eq_ok h
    obtain ⟨-, rfl⟩ := ofExcept_eq_ok hu
    obtain ⟨handshake, u, hu, h⟩ := bind_eq_ok h
    obtain ⟨entry', hparsed', hhears'⟩ := (readHandshakeMessage_heard hu).hears
    cases h
    refine ⟨[entry], entry', hparsed', hhears.append hhears', by simp, le_rfl, fun e he => ?_⟩
    rw [List.mem_singleton.1 he]
    exact ⟨message, hparsed, htype⟩
  · rw [if_neg htype] at h
    cases h
    exact ⟨[], entry, hparsed, hhears, by simp, Nat.zero_le _, nofun⟩

theorem authenticateServer_ok {certificateMessage : TlsHandshakeMessageView}
    (h : authenticateServer E options certificateMessage s = .ok u s') :
    certificateMessage.type = .certificate ∧ ∃ message entry,
      parseMessage entry.octets = .ok message ∧ message.type = .certificateVerify ∧
      Hears [entry] s s' := by
  obtain ⟨certificate, t, ht, h⟩ := bind_eq_ok h
  obtain ⟨hcertificate, rfl⟩ := ofExcept_eq_ok ht
  obtain ⟨_, t, ht, h⟩ := bind_eq_ok h
  obtain ⟨-, rfl⟩ := ofFailure_eq_ok ht
  obtain ⟨_, t, ht, h⟩ := bind_eq_ok h
  cases ht
  obtain ⟨message, t, ht, h⟩ := bind_eq_ok h
  obtain ⟨verify, w, hw, h⟩ := bind_eq_ok h
  obtain ⟨hverify, rfl⟩ := ofExcept_eq_ok hw
  obtain ⟨_, w, hw, h⟩ := bind_eq_ok h
  obtain ⟨-, rfl⟩ := ofFailure_eq_ok hw
  obtain ⟨_, htype, -⟩ := Incremental.bind_eq_ok hcertificate
  obtain ⟨_, htype', -⟩ := Incremental.bind_eq_ok hverify
  obtain ⟨entry, hparsed, hhears⟩ := (readHandshakeMessage_heard ht).hears_appended h
  exact ⟨ensure_eq_ok htype, message, entry, hparsed, ensure_eq_ok htype', hhears⟩

theorem readServerFinished_ok (h : readServerFinished E s = .ok u s') :
    ∃ message entry, parseMessage entry.octets = .ok message ∧
      s.context.verifyFinished E.keys false (E.keys.hash s.transcriptAlgorithm s.transcript)
        message.body = .ok () ∧ Hears [entry] s s' := by
  obtain ⟨_, t, ht, h⟩ := bind_eq_ok h
  cases ht
  obtain ⟨message, t, ht, h⟩ := bind_eq_ok h
  have hheard := readHandshakeMessage_heard ht
  obtain ⟨_, _, hget, h⟩ := bind_eq_ok h
  cases hget
  obtain ⟨_, w, hw, h⟩ := bind_eq_ok h
  obtain ⟨hverify, rfl⟩ := ofExcept_eq_ok hw
  obtain ⟨entry, hparsed, hhears⟩ := hheard.hears_appended h
  obtain ⟨-, _, -, -, hdialogue⟩ := hheard
  have hcontext : t.context = s.context := congrArg Dialogue.context hdialogue
  exact ⟨message, entry, hparsed, hcontext ▸ hverify, hhears⟩

theorem deriveApplicationSecrets_ok (h : deriveApplicationSecrets E s = .ok u s') :
    s.context.deriveTls13ApplicationSecrets E.keys
      (E.keys.hash s.transcriptAlgorithm s.transcript) = .ok s'.context ∧
    s'.dialogue = { s.dialogue with context := s'.context } := by
  obtain ⟨_, t, ht, h⟩ := bind_eq_ok h
  cases ht
  obtain ⟨context, hcontext, rfl⟩ := withContext_eq_ok h
  exact ⟨hcontext, rfl⟩

/-! ## The messages of the client -/

/-- Messages of the client were said. -/
def Says (messages : List Bytes) (s s' : TlsConnection) : Prop :=
  s'.dialogue = s.dialogue.saidAll messages

theorem Says.append {messages more : List Bytes} (h : Says messages s t)
    (h' : Says more t s') : Says (messages ++ more) s s' := by
  rw [Says, Dialogue.saidAll_append, ← h, h']

theorem sendHandshake13_ok {octets : Bytes}
    (h : sendHandshake13 E octets s = .ok u s') : Says [octets] s s' :=
  (sendHandshake13_said E octets s).ok h

theorem sendClientCertificate_ok {context : Bytes} {answer : CertificateAnswer}
    (h : sendClientCertificate E context answer capacity s = .ok u s') :
    ∃ messages, Says messages s s' := by
  cases answer with
  | none =>
    obtain ⟨message, t, ht, h⟩ := bind_eq_ok h
    obtain ⟨-, rfl⟩ := ofExcept_eq_ok ht
    exact ⟨_, sendHandshake13_ok h⟩
  | some pair =>
    obtain ⟨message, t, ht, h⟩ := bind_eq_ok h
    obtain ⟨-, rfl⟩ := ofExcept_eq_ok ht
    obtain ⟨_, t, ht, h⟩ := bind_eq_ok h
    have hcertificate := sendHandshake13_ok ht
    obtain ⟨_, w, hw, h⟩ := bind_eq_ok h
    cases hw
    obtain ⟨signature, w, hw, h⟩ := bind_eq_ok h
    obtain ⟨-, rfl⟩ := ofFailure_eq_ok hw
    obtain ⟨verify, w, hw, h⟩ := bind_eq_ok h
    obtain ⟨-, rfl⟩ := ofExcept_eq_ok hw
    exact ⟨_, hcertificate.append (sendHandshake13_ok h)⟩

theorem sendClientFinished_ok
    (h : sendClientFinished E capacity s = .ok u s') : ∃ messages, Says messages s s' := by
  obtain ⟨_, t, ht, h⟩ := bind_eq_ok h
  cases ht
  obtain ⟨_, _, hget, h⟩ := bind_eq_ok h
  cases hget
  obtain ⟨message, t, ht, h⟩ := bind_eq_ok h
  obtain ⟨-, rfl⟩ := ofExcept_eq_ok ht
  exact ⟨_, sendHandshake13_ok h⟩

theorem sendClientFlight_ok {earlyDataAccepted : Bool} {requested : Option CertificateAnswer}
    (h : sendClientFlight E earlyDataAccepted requested s = .ok u s') :
    ∃ messages, Says messages s s' := by
  obtain ⟨_, t, ht, h⟩ := bind_eq_ok h
  have hearly : ∃ messages, Says messages s t := by
    obtain ⟨-, ht⟩ | ⟨-, rfl⟩ := when_eq_ok ht
    · exact ⟨_, sendHandshake13_ok ht⟩
    · exact ⟨[], rfl⟩
  obtain ⟨early, hearly⟩ := hearly
  cases requested with
  | none =>
    obtain ⟨finished, hfinished⟩ := sendClientFinished_ok h
    exact ⟨_, hearly.append hfinished⟩
  | some answer =>
    obtain ⟨_, w, hw, h⟩ := bind_eq_ok h
    obtain ⟨certificate, hcertificate⟩ := sendClientCertificate_ok hw
    obtain ⟨finished, hfinished⟩ := sendClientFinished_ok h
    exact ⟨_, (hearly.append hcertificate).append hfinished⟩

theorem configureApplicationStates_ok (h : configureApplicationStates E s = .ok u s') :
    s.context.configureState E.keys s.context.secrets.clientApplicationTrafficSecret =
      .ok s'.clientWriteState ∧
    s'.dialogue = { s.dialogue with
      context := { s.context with established := true }
      clientWriteState := s'.clientWriteState } := by
  obtain ⟨_, _, hget, h⟩ := bind_eq_ok h
  cases hget
  obtain ⟨states, t, ht, h⟩ := bind_eq_ok h
  obtain ⟨hstates, rfl⟩ := ofExcept_eq_ok ht
  cases h
  exact ⟨(configureStates_eq_ok hstates).1, rfl⟩

/-! ## The whole handshake -/

/-- The hellos of a handshake, from its start. -/
structure Negotiation (E : Environment) (options : TlsClientConnectionOptions)
    (s s' : TlsConnection) (agreement : Tls13Agreement) : Prop where
  stages : ∃ (random : { random : Bytes // random.length = tlsRandomLength })
    (offer : Tls13Offer) (d : Dialogue) (t : TlsConnection), E.generateRandom = .ok random ∧
    Offers E options (initialContext random.val) s.policyIdentity s.calls offer ∧
    d = { s.dialogue with
      context := ticketContext (initialContext random.val) offer.selectedTicket
      transcriptAlgorithm := .sha256
      transcript := [] } ∧
    EarlyData E options offer ((d.said offer.message).wrotePlain .handshake offer.message)
      t.dialogue ∧
    Hellos E offer t s' agreement

theorem negotiate_ok (h : negotiate E options s = .ok agreement s') :
    Negotiation E options s s' agreement := by
  obtain ⟨_, t, ht, h⟩ := bind_eq_ok h
  obtain ⟨random, hrandom, hcalls, hinitial⟩ := initializeTls13_ok ht
  obtain ⟨offer, u, hu, h⟩ := bind_eq_ok h
  obtain ⟨hoffers, hsaid⟩ := offerHello_ok hu
  obtain ⟨_, v, hv, h⟩ := bind_eq_ok h
  have hearly := sendEarlyData_ok hv
  have hcontext : t.context = initialContext random.val := congrArg Dialogue.context hinitial
  have hpolicy : t.policyIdentity = s.policyIdentity := congrArg Dialogue.policyIdentity hinitial
  rw [hcontext, hpolicy, hcalls] at hoffers
  rw [hsaid, hinitial, hcontext] at hearly
  exact ⟨random, offer, _, v, hrandom, hoffers, rfl, hearly, exchangeHellos_ok h⟩

/-- The messages behind the hellos: those of the server, and those of the client. -/
structure Flights (E : Environment) (options : TlsClientConnectionOptions)
    (agreement : Tls13Agreement) (s s' : TlsConnection) : Prop where
  stages : ∃ (entries : List HandshakeEntry) (messages : List Bytes) (t u : TlsConnection),
    Hears entries s t ∧
    (∃ entry ∈ entries, ∃ message, parseMessage entry.octets = .ok message ∧
      message.type = .certificate) ∧
    t.context.deriveTls13ApplicationSecrets E.keys
      (E.keys.hash t.transcriptAlgorithm t.transcript) = .ok u.context ∧
    u.dialogue = { t.dialogue with context := u.context } ∧ Says messages u s'

theorem finishHandshake_ok (h : finishHandshake E options agreement s = .ok u s') :
    Flights E options agreement s s' := by
  obtain ⟨_, t₀, ht₀, h⟩ := bind_eq_ok h
  have hsilent : t₀.dialogue = s.dialogue :=
    Silent.ok (readOptionalCompatibilityChangeCipherSpec_makes dialogue_ignoresReading) ht₀
  obtain ⟨encryptedExtensions, t₁, ht₁, h⟩ := bind_eq_ok h
  obtain ⟨-, -, first, -, -, hfirst⟩ := readEncryptedExtensions_ok ht₁
  obtain ⟨answer, t₂, ht₂, h⟩ := bind_eq_ok h
  obtain ⟨requests, certificate, hparsed, hcertificates, -, -⟩ := readCertificateMessage_ok ht₂
  obtain ⟨_, t₃, ht₃, h⟩ := bind_eq_ok h
  obtain ⟨htype, -, verify, -, -, hverify⟩ := authenticateServer_ok ht₃
  obtain ⟨_, t₄, ht₄, h⟩ := bind_eq_ok h
  obtain ⟨-, finished, -, -, hfinished⟩ := readServerFinished_ok ht₄
  obtain ⟨_, t₅, ht₅, h⟩ := bind_eq_ok h
  obtain ⟨hsecrets, hderived⟩ := deriveApplicationSecrets_ok ht₅
  obtain ⟨messages, hsays⟩ := sendClientFlight_ok h
  have hhears := ((hfirst.append hcertificates).append hverify).append hfinished
  refine ⟨_, messages, t₄, t₅, ⟨hhears.sender, hsilent ▸ hhears.dialogue⟩,
    ⟨certificate, ?_, answer.2, hparsed, htype⟩, hsecrets, hderived, hsays⟩
  simp only [List.mem_append, List.mem_singleton, true_or, or_true]

/-- What a handshake has done when it has succeeded. -/
structure Succeeded (E : Environment) (options : TlsClientConnectionOptions)
    (s s' : TlsConnection) : Prop where
  stages : ∃ (agreement : Tls13Agreement) (t u v : TlsConnection),
    Negotiation E options s t agreement ∧ HandshakeKeys E agreement t u ∧
    Flights E options agreement u v ∧
    v.context.configureState E.keys v.context.secrets.clientApplicationTrafficSecret =
      .ok s'.clientWriteState ∧
    s'.dialogue = { v.dialogue with
      context := { v.context with established := true }
      clientWriteState := s'.clientWriteState }

theorem connectTls13_ok {x : Unit} (h : connectTls13 E options s = .ok x s') :
    Succeeded E options s s' := by
  obtain ⟨agreement, t, ht, h⟩ := bind_eq_ok h
  obtain ⟨_, u, hu, h⟩ := bind_eq_ok h
  obtain ⟨_, v, hv, h⟩ := bind_eq_ok h
  obtain ⟨hstate, hdialogue⟩ := configureApplicationStates_ok h
  exact ⟨agreement, t, u, v, negotiate_ok ht, deriveHandshakeKeys_ok hu, finishHandshake_ok hv,
    hstate, hdialogue⟩

/-! ## The messages of a handshake -/

/-- A message of the client in the history. -/
def clientEntry (octets : Bytes) : HandshakeEntry := { sender := .client, octets }

theorem encodeOffer_keyShares {K : KeyFunctions} {context : TlsContext}
    {ticket : Option Tls13SessionTicket} {earlier message : Bytes}
    {hello' : Tls13ClientHelloOptions}
    (h : encodeOffer K context ticket earlier hello = .ok (hello', message)) :
    hello'.keyShares = hello.keyShares := by
  obtain ⟨placeholder, -, h⟩ := Incremental.bind_eq_ok h
  cases ticket with
  | none =>
    cases h
    rfl
  | some ticket =>
    obtain ⟨binder, -, h⟩ := Incremental.bind_eq_ok h
    obtain ⟨encoded, -, h⟩ := Incremental.bind_eq_ok h
    cases h
    rfl

theorem validateServerHelloOffer_group (h : validateServerHelloOffer serverHello hello = .ok ())
    (hlast : serverHello.isHelloRetryRequest = false) :
    serverHello.keyShare.group ∈ hello.keyShares.map (·.group) := by
  obtain ⟨_, _, h⟩ := Incremental.bind_eq_ok h
  obtain ⟨_, _, h⟩ := Incremental.bind_eq_ok h
  rw [if_neg (by rw [hlast]; exact Bool.false_ne_true)] at h
  exact ensure_eq_ok h

/-- The hellos as messages, with the key pair behind the last ClientHello; `serverHello` are the
octets of the last one. -/
inductive SaidHellos (E : Environment) (serverHello : Bytes) :
    Tls13Agreement → List HandshakeEntry → Prop
  | direct {offer : Tls13Offer} {view : Tls13ServerHelloView} {entry : HandshakeEntry}
      (hkeyPair : E.generateKeyPair .x25519 = .ok offer.keyPair)
      (hsender : entry.sender = .server) (hoctets : entry.octets = serverHello)
      (hview : serverHelloOf serverHello = some view) (hlast : view.isHelloRetryRequest = false) :
      SaidHellos E serverHello ⟨offer, view, none⟩ [clientEntry offer.message, entry]
  | retried {clientHello : Bytes} {offer : Tls13Offer} {retryView view : Tls13ServerHelloView}
      {retry entry : HandshakeEntry} (hsender : retry.sender = .server)
      (hretryView : serverHelloOf retry.octets = some retryView)
      (hretry : retryView.isHelloRetryRequest = true)
      (hkeyPair : E.generateKeyPair retryView.retryGroup = .ok offer.keyPair)
      (hsender' : entry.sender = .server) (hoctets : entry.octets = serverHello)
      (hview : serverHelloOf serverHello = some view) (hlast : view.isHelloRetryRequest = false)
      (hgroup : view.keyShare.group = retryView.retryGroup) :
      SaidHellos E serverHello ⟨offer, view, some (clientHello, retry.octets)⟩
        [clientEntry clientHello, retry, clientEntry offer.message, entry]

/-- What early data leaves as it is. -/
structure KeepsHandshake (d d' : Dialogue) : Prop where
  messages : d'.messages = d.messages
  context : Schedule.SameButSecrets d.context d'.context
  externalSessionCache : d'.externalSessionCache = d.externalSessionCache

theorem EarlyData.keepsHandshake {d d' : Dialogue}
    (h : EarlyData E options offer d d') : KeepsHandshake d d' := by
  cases h with
  | nothing => exact ⟨rfl, rfl, rfl⟩
  | @sent context state chunks _ hkeys _ =>
    obtain ⟨⟨early, hearly, hcontext⟩, -⟩ := hkeys
    refine ⟨Dialogue.wroteAll_messages _ chunks, ?_, Dialogue.wroteAll_externalSessionCache _ chunks⟩
    rw [Dialogue.wroteAll_context]
    obtain ⟨_, _, hearly⟩ := Incremental.bind_eq_ok hearly
    obtain ⟨_, _, hcontext⟩ := Incremental.bind_eq_ok hcontext
    obtain ⟨_, _, hcontext⟩ := Incremental.bind_eq_ok hcontext
    cases hearly
    cases hcontext
    rfl

theorem HeardHello.messages (h : HeardHello offer retried serverHello s s') :
    ∃ entry : HandshakeEntry, entry.sender = .server ∧ entry.octets = s'.lastHandshake ∧
      s'.history.messages = s.history.messages ++ [entry] := by
  obtain ⟨entry, hsender, hoctets, hdialogue⟩ := h.dialogue
  exact ⟨entry, hsender, hoctets, congrArg Dialogue.messages hdialogue⟩

theorem HeardHello.context (h : HeardHello offer retried serverHello s s') :
    s'.context = s.context.setCipherSuite serverHello.cipherSuite ∧
      s'.externalSessionCache = s.externalSessionCache := by
  obtain ⟨entry, -, -, hdialogue⟩ := h.dialogue
  exact ⟨congrArg Dialogue.context hdialogue, congrArg Dialogue.externalSessionCache hdialogue⟩

theorem Hellos.messages
    (h : Hellos E offer s s' agreement) (hkeyPair : E.generateKeyPair .x25519 = .ok offer.keyPair)
    {before : List HandshakeEntry} (hs : s.history.messages = before ++ [clientEntry offer.message]) :
    ∃ hellos, SaidHellos E s'.lastHandshake agreement hellos ∧
      s'.history.messages = before ++ hellos := by
  cases h with
  | direct h hretry =>
    obtain ⟨entry, hsender, hoctets, hmessages⟩ := h.messages
    refine ⟨_, .direct hkeyPair hsender hoctets h.hello hretry, ?_⟩
    rw [hmessages, hs, List.append_assoc]
    rfl
  | @retried t u hrr serverHello offer' hfirst hretry hoffer hsaid h =>
    obtain ⟨retry, hsender, hoctets, hmessages⟩ := hfirst.messages
    obtain ⟨entry, hsender', hoctets', hmessages'⟩ := h.messages
    have hlast : serverHello.isHelloRetryRequest = false := by
      simpa using h.once
    have hview := hfirst.hello
    have hu : u.history.messages = t.history.messages ++ [clientEntry offer'.message] :=
      congrArg Dialogue.messages hsaid
    have hgroup : serverHello.keyShare.group = hrr.retryGroup := by
      have hmem := validateServerHelloOffer_group h.suits hlast
      rw [encodeOffer_keyShares hoffer.encoded] at hmem
      exact List.mem_singleton.1 hmem
    rw [← hoctets] at hview ⊢
    refine ⟨_, .retried hsender hview hretry hoffer.keyPair hsender' hoctets' h.hello hlast hgroup,
      ?_⟩
    rw [hmessages', hu, hmessages, hs]
    simp only [List.append_assoc, List.cons_append, List.nil_append]

theorem Negotiation.messages (h : Negotiation E options s s' agreement) :
    ∃ hellos, SaidHellos E s'.lastHandshake agreement hellos ∧
      s'.history.messages = s.history.messages ++ hellos := by
  obtain ⟨random, offer, d, t, -, hoffers, rfl, hearly, hhellos⟩ := h.stages
  exact hhellos.messages hoffers.keyPair hearly.keepsHandshake.messages

/-- The context behind the hellos has the suite of the ServerHello, and no tickets. -/
structure AgreedContext (s s' : TlsConnection) (agreement : Tls13Agreement) : Prop where
  cipherSuite : s'.context.cipherSuite = agreement.serverHello.cipherSuite
  sessionCache : s'.context.sessionCache = []
  externalSessionCache : s'.externalSessionCache = s.externalSessionCache

theorem Negotiation.context
    (h : Negotiation E options s s' agreement) : AgreedContext s s' agreement := by
  obtain ⟨random, offer, d, t, -, -, rfl, hearly, hhellos⟩ := h.stages
  have hcache : t.context.sessionCache = [] := by
    have h := congrArg TlsContext.sessionCache hearly.keepsHandshake.context
    refine h.trans ?_
    cases offer.selectedTicket with
    | none => rfl
    | some ticket => rfl
  have hexternal : t.externalSessionCache = s.externalSessionCache :=
    hearly.keepsHandshake.externalSessionCache
  cases hhellos with
  | direct hheard _ =>
    obtain ⟨hcontext, hcaches⟩ := hheard.context
    refine ⟨?_, ?_, hcaches.trans hexternal⟩
    · rw [hcontext]
      rfl
    · rw [hcontext]
      exact hcache
  | @retried t' u _ serverHello offer' hfirst _ _ hsaid hheard =>
    obtain ⟨hcontext, hcaches⟩ := hfirst.context
    obtain ⟨hcontext', hcaches'⟩ := hheard.context
    have hu : u.context = t'.context := congrArg Dialogue.context hsaid
    have huc : u.externalSessionCache = t'.externalSessionCache :=
      congrArg Dialogue.externalSessionCache hsaid
    refine ⟨?_, ?_, hcaches'.trans (huc.trans (hcaches.trans hexternal))⟩
    · rw [hcontext']
      rfl
    · rw [hcontext', hu, hcontext]
      exact hcache

/-- The ticket of the connection, which has a secret where the server has taken it. -/
structure AgreedTicket (E : Environment) (options : TlsClientConnectionOptions)
    (s : TlsConnection) (agreement : Tls13Agreement) : Prop where
  offered : OffersTicket E options s.policyIdentity s.calls agreement.offer.selectedTicket
  taken : agreement.resumed → ∃ ticket, agreement.offer.selectedTicket = some ticket ∧
    ticket.resumptionSecret ≠ []

theorem validateSelectedPsk_eq_ok {context : TlsContext}
    (h : validateSelectedPskForConnection context serverHello offer = .ok ())
    (hselected : serverHello.selectedPskIdentity ≠ noPskIdentity) :
    ∃ ticket, offer.selectedTicket = some ticket ∧ ticket.resumptionSecret ≠ [] ∧
      ticket.cipherSuite = context.cipherSuite := by
  obtain ⟨_, _, h⟩ := Incremental.bind_eq_ok h
  obtain hnone | hticket := ensure_eq_ok h
  · exact absurd hnone hselected
  · cases hoffer : offer.selectedTicket with
    | none =>
      rw [hoffer] at hticket
      cases hticket
    | some ticket =>
      rw [hoffer, Option.any_some, Bool.and_eq_true, decide_eq_true_eq, decide_eq_true_eq] at hticket
      exact ⟨ticket, rfl, hticket⟩

theorem Negotiation.ticket
    (h : Negotiation E options s s' agreement) : AgreedTicket E options s agreement := by
  obtain ⟨random, offer, d, t, -, hoffers, rfl, hearly, hhellos⟩ := h.stages
  cases hhellos with
  | direct hheard _ =>
    refine ⟨hoffers.ticket, fun hresumed => ?_⟩
    obtain ⟨ticket, hticket, hne, -⟩ :=
      validateSelectedPsk_eq_ok hheard.psk (of_decide_eq_true hresumed)
    exact ⟨ticket, hticket, hne⟩
  | retried _ _ hoffer _ hheard =>
    refine ⟨hoffer.ticket.symm ▸ hoffers.ticket, fun hresumed => ?_⟩
    obtain ⟨ticket, hticket, hne, -⟩ :=
      validateSelectedPsk_eq_ok hheard.psk (of_decide_eq_true hresumed)
    exact ⟨ticket, hticket, hne⟩

end KernelHttp.Tls.TlsConnection
