/-
  The secrets of a connection against RFC 8446, section 7.1.

  The resumption master secret is derived from the messages up to the server's Finished, not from
  all.
-/
import KernelHttp.Tls.HandshakeRun
import KernelHttp.Tls.KeyChanges

namespace KernelHttp.Tls

open Program Relation

/-! ## The schedule of the messages -/

def octetsOf (messages : List HandshakeEntry) : List Bytes := messages.map (·.octets)

def throughServerHello (messages : List HandshakeEntry) : List HandshakeEntry :=
  messages.take (if isHelloRetryRequest ((octetsOf messages).getD 1 []) then 4 else 2)

def throughServerFinished (messages : List HandshakeEntry) : List HandshakeEntry :=
  messages.rdropWhile (·.sender = .client)

def serverHelloIn (messages : List HandshakeEntry) : Option Tls13ServerHelloView :=
  serverHelloOf ((octetsOf (throughServerHello messages)).getLastD [])

/-- The group of the client's last share: that of the HelloRetryRequest, or the first one. -/
def sharedGroup (messages : List HandshakeEntry) : TlsNamedGroup :=
  match serverHelloOf ((octetsOf messages).getD 1 []) with
  | some view => if view.isHelloRetryRequest then view.retryGroup else .x25519
  | none => .x25519

/-- The schedule of a handshake that was started in a state. -/
structure Agreed (E : Environment) (options : TlsClientConnectionOptions) (start : TlsConnection)
    (messages : List HandshakeEntry) (schedule : Schedule) : Prop where
  exchanged : ∃ serverHello keyPair ticket, serverHelloIn messages = some serverHello ∧
    schedule.algorithm = hashForCipherSuite serverHello.cipherSuite ∧
    E.generateKeyPair (sharedGroup messages) = .ok keyPair ∧
    E.deriveSharedSecret keyPair serverHello.keyShare.keyExchange = .ok schedule.sharedSecret ∧
    selectTls13Ticket options start.policyIdentity (E.currentMilliseconds start.calls) =
      .ok ticket ∧
    schedule.psk = if serverHello.selectedPskIdentity = noPskIdentity then none
      else ticket.map (·.resumptionSecret)

/-- There is one schedule at most. -/
theorem Agreed.unique {E : Environment} {options : TlsClientConnectionOptions}
    {start : TlsConnection} {messages : List HandshakeEntry} {schedule schedule' : Schedule}
    (h : Agreed E options start messages schedule)
    (h' : Agreed E options start messages schedule') : schedule' = schedule := by
  obtain ⟨serverHello, keyPair, ticket, hhello, halgorithm, hpair, hshared, hticket, hpsk⟩ :=
    h.exchanged
  obtain ⟨serverHello', keyPair', ticket', hhello', halgorithm', hpair', hshared', hticket', hpsk'⟩ :=
    h'.exchanged
  cases hhello.symm.trans hhello'
  cases hpair.symm.trans hpair'
  cases hticket.symm.trans hticket'
  cases schedule
  cases schedule'
  simp only [Schedule.mk.injEq]
  exact ⟨halgorithm'.trans halgorithm.symm, hpsk'.trans hpsk.symm,
    Except.ok.inj (hshared'.symm.trans hshared)⟩

namespace TlsConnection

variable {E : Environment} {options : TlsClientConnectionOptions} {s s' : TlsConnection}

namespace SaidHellos

variable {serverHello : Bytes} {agreement : Tls13Agreement} {hellos : List HandshakeEntry}

theorem through (h : SaidHellos E serverHello agreement hellos) (more : List HandshakeEntry) :
    throughServerHello (hellos ++ more) = hellos := by
  cases h with
  | @direct offer view entry hkeyPair hsender hoctets hview hlast =>
    have hretry : isHelloRetryRequest entry.octets = false := by
      rw [isHelloRetryRequest, hoctets, hview]
      exact hlast
    have hsecond : (octetsOf ([clientEntry offer.message, entry] ++ more)).getD 1 [] =
      entry.octets := rfl
    rw [throughServerHello, hsecond, hretry]
    rfl
  | @retried clientHello offer retryView view retry entry hsender hretryView hretry =>
    have hhrr : isHelloRetryRequest retry.octets = true := by
      rw [isHelloRetryRequest, hretryView]
      exact hretry
    have hsecond : (octetsOf ([clientEntry clientHello, retry, clientEntry offer.message, entry] ++
      more)).getD 1 [] = retry.octets := rfl
    rw [throughServerHello, hsecond, hhrr]
    rfl

theorem two_le_length (h : SaidHellos E serverHello agreement hellos) : 2 ≤ hellos.length := by
  cases h with
  | direct => exact le_rfl
  | retried => exact le_of_lt (by decide : 2 < 4)

theorem serverHelloIn_append (h : SaidHellos E serverHello agreement hellos)
    (more : List HandshakeEntry) : serverHelloIn (hellos ++ more) = some agreement.serverHello := by
  rw [serverHelloIn, h.through]
  cases h with
  | direct _ _ hoctets hview => exact (congrArg serverHelloOf hoctets).trans hview
  | retried _ _ _ _ _ hoctets hview => exact (congrArg serverHelloOf hoctets).trans hview

theorem sharedGroup_append (h : SaidHellos E serverHello agreement hellos)
    (more : List HandshakeEntry) :
    E.generateKeyPair (sharedGroup (hellos ++ more)) = .ok agreement.offer.keyPair := by
  cases h with
  | @direct offer view entry hkeyPair hsender hoctets hview hlast =>
    have hsecond : (octetsOf ([clientEntry offer.message, entry] ++ more)).getD 1 [] =
      serverHello := hoctets
    rw [sharedGroup, hsecond, hview]
    dsimp only
    rw [hlast]
    exact hkeyPair
  | @retried clientHello offer retryView view retry entry hsender hretryView hretry hkeyPair =>
    have hsecond : (octetsOf ([clientEntry clientHello, retry, clientEntry offer.message, entry] ++
      more)).getD 1 [] = retry.octets := rfl
    rw [sharedGroup, hsecond, hretryView]
    dsimp only
    rw [hretry]
    exact hkeyPair

/-- The transcript that the connection builds for the suite of the ServerHello. -/
theorem transcript (h : SaidHellos E serverHello agreement hellos) (K : KeyFunctions)
    (algorithm : HashAlgorithm) :
    agreement.hellos K algorithm ++ serverHello = transcriptOf K algorithm (octetsOf hellos) := by
  cases h with
  | @direct offer view entry hkeyPair hsender hoctets hview hlast =>
    have hretry : isHelloRetryRequest entry.octets = false := by
      rw [isHelloRetryRequest, hoctets, hview]
      exact hlast
    show _ = transcriptOf K algorithm [offer.message, entry.octets]
    rw [transcriptOf, hretry, ← hoctets, List.flatten_nil, List.append_nil]
    rfl
  | @retried clientHello offer retryView view retry entry hsender hretryView hretry _ _ hoctets =>
    have hhrr : isHelloRetryRequest retry.octets = true := by
      rw [isHelloRetryRequest, hretryView]
      exact hretry
    show _ = transcriptOf K algorithm [clientHello, retry.octets, offer.message, entry.octets]
    rw [transcriptOf, hhrr, ← hoctets]
    simp only [Tls13Agreement.hellos, if_true, List.flatten_cons, List.flatten_nil,
      List.append_nil, List.append_assoc]

end SaidHellos

theorem throughServerFinished_append {entries : List HandshakeEntry} {messages : List Bytes}
    {before : List HandshakeEntry} (hne : entries ≠ [])
    (hsender : ∀ entry ∈ entries, entry.sender = .server) :
    throughServerFinished (before ++ entries ++ messages.map clientEntry) = before ++ entries := by
  have hclient : ∀ entry ∈ (messages.map clientEntry).reverse,
      decide (entry.sender = .client) = true := by
    intro entry he
    obtain ⟨octets, -, rfl⟩ := List.mem_map.1 (List.mem_reverse.1 he)
    rfl
  obtain ⟨init, last, rfl⟩ := (List.eq_nil_or_concat' entries).resolve_left hne
  have hlast : last.sender = .server := hsender last (by simp)
  rw [throughServerFinished, List.rdropWhile, List.reverse_append,
    List.dropWhile_append_of_pos hclient, ← List.append_assoc, List.reverse_concat,
    List.dropWhile_cons_of_neg (by rw [hlast]; decide), ← List.reverse_concat, List.reverse_reverse]

/-! ## What the context holds -/

def scheduleOf (agreement : Tls13Agreement) (algorithm : HashAlgorithm) (sharedSecret : Bytes) :
    Schedule where
  algorithm := algorithm
  psk := if agreement.resumed then agreement.offer.selectedTicket.map (·.resumptionSecret) else none
  sharedSecret := sharedSecret

theorem psk_eq (agreement : Tls13Agreement) (algorithm : HashAlgorithm) (sharedSecret : Bytes) :
    agreement.psk = (scheduleOf agreement algorithm sharedSecret).psk.getD [] := by
  rw [Tls13Agreement.psk, scheduleOf]
  split
  · cases agreement.offer.selectedTicket with
    | none => rfl
    | some ticket => rfl
  · rfl

theorem AgreedTicket.psk_ne_nil {agreement : Tls13Agreement}
    (h : AgreedTicket E options s agreement) (algorithm : HashAlgorithm) (sharedSecret : Bytes) :
    ∀ psk ∈ (scheduleOf agreement algorithm sharedSecret).psk, psk ≠ [] := by
  intro psk hpsk
  rw [scheduleOf] at hpsk
  dsimp only at hpsk
  split at hpsk
  · case isTrue hresumed =>
    obtain ⟨ticket, hticket, hne⟩ := h.taken hresumed
    rw [hticket] at hpsk
    cases hpsk
    exact hne
  · cases hpsk

/-- The secrets of a connection behind its handshake. -/
structure HoldsSecrets (E : Environment) (options : TlsClientConnectionOptions)
    (s s' : TlsConnection) (schedule : Schedule) : Prop where
  agreed : Agreed E options s s'.history.messages schedule
  handshake : schedule.HandshakeSecrets E.keys (transcriptOf E.keys schedule.algorithm
    (octetsOf (throughServerHello s'.history.messages))) s'.context
  application : schedule.ApplicationSecrets E.keys (transcriptOf E.keys schedule.algorithm
    (octetsOf (throughServerFinished s'.history.messages))) s'.context
  sessionCache : s'.context.sessionCache = []
  externalSessionCache : s'.externalSessionCache = s.externalSessionCache

theorem connectTls13_secrets (hs : s.history.messages = []) {x : Unit}
    (h : connectTls13 E options s = .ok x s') : ∃ schedule, HoldsSecrets E options s s' schedule := by
  obtain ⟨agreement, t, u, v, hnegotiation, hkeys, hflights, -, hdialogue⟩ :=
    (connectTls13_ok h).stages
  obtain ⟨hellos, hsaid, ht⟩ := hnegotiation.messages
  obtain ⟨hsuite, hcache, hexternal⟩ := hnegotiation.context
  have hticket := hnegotiation.ticket
  rw [hs, List.nil_append] at ht
  obtain ⟨sharedSecret, early, hshared, hearly, hsecrets⟩ := hkeys.secrets
  let schedule := scheduleOf agreement t.context.algorithm sharedSecret
  have hsuiteAlgorithm : t.context.algorithm = schedule.algorithm := rfl
  obtain ⟨hearly, hsame⟩ := Schedule.derivesEarlySecret hsuiteAlgorithm
    (psk_eq _ _ _) (hticket.psk_ne_nil _ _) hearly
  obtain ⟨hhandshake, hsame'⟩ := Schedule.derivesHandshakeSecrets hearly rfl hsecrets
  rw [hsaid.transcript] at hhandshake
  obtain ⟨entries, messages, t', u', hhears, ⟨certificate, hcertificate, -⟩, hderived, hu', hsays⟩ :=
    hflights.stages
  have htranscript : t'.transcript = transcriptOf E.keys schedule.algorithm
      (octetsOf (hellos ++ entries)) := by
    rw [octetsOf, List.map_append, transcriptOf_append _ _
      (by rw [List.length_map]; exact hsaid.two_le_length)]
    refine (congrArg Dialogue.transcript hhears.dialogue).trans ?_
    rw [hkeys.dialogue, hsaid.transcript]
    rfl
  have halgorithm : t'.transcriptAlgorithm = schedule.algorithm := by
    refine (congrArg Dialogue.transcriptAlgorithm hhears.dialogue).trans ?_
    rw [hkeys.dialogue]
    rfl
  have hcontext : t'.context = u.context := congrArg Dialogue.context hhears.dialogue
  rw [htranscript, halgorithm, hcontext] at hderived
  obtain ⟨hhandshake, happlication, hsame''⟩ :=
    Schedule.derivesApplicationSecrets hhandshake hderived
  have hv : v.context = u'.context :=
    (congrArg Dialogue.context hsays).trans (Dialogue.saidAll_context _)
  have hs' : s'.context = { u'.context with established := true } := by
    rw [← hv]
    exact congrArg Dialogue.context hdialogue
  have hmessages : s'.history.messages = hellos ++ entries ++ messages.map clientEntry := by
    refine (congrArg Dialogue.messages hdialogue).trans ?_
    refine (congrArg Dialogue.messages hsays).trans ((Dialogue.saidAll_messages _).trans ?_)
    rw [hu']
    refine congrArg (· ++ _) ((congrArg Dialogue.messages hhears.dialogue).trans ?_)
    rw [hkeys.dialogue]
    exact congrArg (· ++ entries) ht
  have hfinished : throughServerFinished s'.history.messages = hellos ++ entries := by
    rw [hmessages]
    exact throughServerFinished_append (List.ne_nil_of_mem hcertificate) hhears.sender
  have hthrough : throughServerHello s'.history.messages = hellos := by
    rw [hmessages, List.append_assoc]
    exact hsaid.through _
  have hcaches : s'.externalSessionCache = t.externalSessionCache := by
    refine (congrArg Dialogue.externalSessionCache hdialogue).trans ?_
    refine (congrArg Dialogue.externalSessionCache hsays).trans
      ((Dialogue.saidAll_externalSessionCache _).trans ?_)
    rw [hu']
    refine (congrArg Dialogue.externalSessionCache hhears.dialogue).trans ?_
    rw [hkeys.dialogue]
    rfl
  refine ⟨schedule, ?_, ?_, ?_, ?_, hcaches.trans hexternal⟩
  · rw [hmessages, List.append_assoc]
    refine ⟨agreement.serverHello, agreement.offer.keyPair, agreement.offer.selectedTicket,
      hsaid.serverHelloIn_append _, congrArg hashForCipherSuite hsuite, hsaid.sharedGroup_append _,
      hshared, hticket.offered, ?_⟩
    show (if agreement.resumed then _ else none) = _
    rw [Tls13Agreement.resumed]
    by_cases hnone : agreement.serverHello.selectedPskIdentity = noPskIdentity
    · rw [if_neg (by rw [hnone]; decide), if_pos hnone]
    · rw [if_pos (decide_eq_true hnone), if_neg hnone]
  · rw [hthrough, hs']
    exact ⟨hhandshake.1, hhandshake.2, hhandshake.3, hhandshake.4, hhandshake.5⟩
  · rw [hfinished, hs']
    exact ⟨happlication.1, happlication.2, happlication.3, happlication.4⟩
  · rw [hs', hsame'', hsame', hsame]
    exact hcache

/-! ## Tickets -/

/-- The tickets of a connection have their secrets from one resumption master secret; those
that were known before are only in the external cache. -/
structure ResumptionTickets (K : KeyFunctions) (algorithm : HashAlgorithm)
    (resumptionMasterSecret : Bytes) (n : ℕ) (known : List Tls13SessionTicket) (c : Core) :
    Prop where
  suite : c.context.algorithm = algorithm
  secret : c.context.secrets.resumptionMasterSecret = resumptionMasterSecret
  secretLength : c.context.secrets.secretLength = n
  stored : ∀ ticket ∈ c.context.sessionCache, ticket.resumptionSecret =
    K.expandLabel algorithm resumptionMasterSecret (text "resumption") ticket.nonce n
  external : ∀ ticket ∈ c.externalSessionCache.getD [], ticket ∈ known ∨
    ticket.resumptionSecret =
      K.expandLabel algorithm resumptionMasterSecret (text "resumption") ticket.nonce n

theorem mem_storedIn {tickets : List Tls13SessionTicket} {ticket stored : Tls13SessionTicket}
    (h : ticket ∈ TlsContext.storedIn tickets stored) : ticket ∈ tickets ∨ ticket = stored := by
  rw [TlsContext.storedIn] at h
  split at h
  · exact (List.mem_append.1 h).imp_right List.mem_singleton.1
  · exact (List.mem_append.1 h).imp List.mem_of_mem_tail List.mem_singleton.1

theorem updateTls13ApplicationTrafficSecret_eq_ok {K : KeyFunctions} {context : TlsContext}
    {client : Bool} {updated : TlsContext × TlsAeadCipherState}
    (h : context.updateTls13ApplicationTrafficSecret K client = .ok updated) :
    ∃ secret, updated.1 = context.withApplicationTrafficSecret client secret := by
  obtain ⟨_, _, h⟩ := Incremental.bind_eq_ok h
  obtain ⟨secret, _, h⟩ := Incremental.bind_eq_ok h
  obtain ⟨state, _, h⟩ := Incremental.bind_eq_ok h
  cases h
  exact ⟨secret, rfl⟩

namespace ResumptionTickets

variable {K : KeyFunctions} {algorithm : HashAlgorithm} {resumptionMasterSecret : Bytes} {n : ℕ}
  {known : List Tls13SessionTicket} {c : Core}

theorem updated {context : TlsContext} {client : Bool} {secret : Bytes}
    (hcontext : context = c.context.withApplicationTrafficSecret client secret)
    (h : ResumptionTickets K algorithm resumptionMasterSecret n known c) :
    ResumptionTickets K algorithm resumptionMasterSecret n known
      { c with context := context } := by
  subst hcontext
  cases client with
  | true => exact ⟨h.1, h.2, h.3, h.4, h.5⟩
  | false => exact ⟨h.1, h.2, h.3, h.4, h.5⟩

theorem step {d : Core} (hK : E.keys = K) (hstep : Step E c d)
    (h : ResumptionTickets K algorithm resumptionMasterSecret n known c) :
    ResumptionTickets K algorithm resumptionMasterSecret n known d := by
  cases hstep with
  | ticketStored ticket context hsecret hcontext =>
    have hticket : ticket.resumptionSecret =
        K.expandLabel algorithm resumptionMasterSecret (text "resumption") ticket.nonce n := by
      obtain ⟨_, _, hsecret⟩ := Incremental.bind_eq_ok hsecret
      rw [hkdfExpandLabel_eq_ok hsecret, hK, h.suite, h.secret, h.secretLength]
    obtain ⟨_, _, hcontext⟩ := Incremental.bind_eq_ok hcontext
    cases hcontext
    refine ⟨h.1, h.2, h.3, fun t ht => ?_, fun t ht => ?_⟩
    · rcases mem_storedIn ht with ht | rfl
      · exact h.stored t ht
      · exact hticket
    · cases hcache : c.externalSessionCache with
      | none =>
        rw [hcache] at ht
        cases ht
      | some cache =>
        rw [hcache] at ht
        rcases mem_storedIn ht with ht | rfl
        · exact h.external t (by rw [hcache]; exact ht)
        · exact .inr hticket
  | clientUpdated context state hupdated =>
    obtain ⟨secret, hcontext⟩ := updateTls13ApplicationTrafficSecret_eq_ok hupdated
    obtain ⟨h₁, h₂, h₃, h₄, h₅⟩ := h.updated hcontext
    exact ⟨h₁, h₂, h₃, h₄, h₅⟩
  | serverUpdated context state hupdated =>
    obtain ⟨secret, hcontext⟩ := updateTls13ApplicationTrafficSecret_eq_ok hupdated
    obtain ⟨h₁, h₂, h₃, h₄, h₅⟩ := h.updated hcontext
    exact ⟨h₁, h₂, h₃, h₄, h₅⟩
  | consumed k =>
    rw [Core.consumed]
    split
    · exact ⟨h.1, h.2, h.3, h.4, h.5⟩
    · exact ⟨h.1, h.2, h.3, h.4, h.5⟩
  | sent => exact ⟨h.1, h.2, h.3, h.4, h.5⟩
  | transcript => exact ⟨h.1, h.2, h.3, h.4, h.5⟩
  | clientMessage => exact ⟨h.1, h.2, h.3, h.4, h.5⟩
  | bufferedMessage => exact ⟨h.1, h.2, h.3, h.4, h.5⟩
  | recordMessage => exact ⟨h.1, h.2, h.3, h.4, h.5⟩
  | buffered => exact ⟨h.1, h.2, h.3, h.4, h.5⟩
  | compacted => exact ⟨h.1, h.2, h.3, h.4, h.5⟩
  | recordArrived => exact ⟨h.1, h.2, h.3, h.4, h.5⟩

end ResumptionTickets

def behind (E : Environment) (calls : List Call) (s : TlsConnection) : TlsConnection :=
  calls.foldl (fun s call => call.run E s) s

variable {schedule : Schedule}

theorem HoldsSecrets.tickets (h : HoldsSecrets E options s s' schedule) (calls : List Call) :
    ResumptionTickets E.keys schedule.algorithm s'.context.secrets.resumptionMasterSecret
      schedule.hashLength (s.externalSessionCache.getD []) (behind E calls s').core := by
  have hsteps : ReflTransGen (Step E) s'.core (behind E calls s').core := calls_steps E calls s'
  have hstart : ResumptionTickets E.keys schedule.algorithm
      s'.context.secrets.resumptionMasterSecret schedule.hashLength
      (s.externalSessionCache.getD []) s'.core := by
    refine ⟨h.handshake.algorithm, rfl, h.handshake.secretLength, ?_, ?_⟩
    · intro ticket hticket
      have hcache : s'.core.context.sessionCache = [] := h.sessionCache
      rw [hcache] at hticket
      cases hticket
    · intro ticket hticket
      have hcache : s'.core.externalSessionCache = s.externalSessionCache := h.externalSessionCache
      rw [hcache] at hticket
      exact .inl hticket
  exact invariant_of_steps (fun _ _ hstep htickets => htickets.step rfl hstep) hsteps hstart

/-! ## Conformance -/

/-- What RFC 8446 says of the secrets of a connection: `messages` are those of its handshake,
`connected` is the state when it has succeeded, and `later` a state behind it. -/
structure Conforming (K : KeyFunctions) (known : List Tls13SessionTicket) (schedule : Schedule)
    (messages : List HandshakeEntry) (connected later : TlsConnection) : Prop where
  handshake : schedule.HandshakeSecrets K (transcriptOf K schedule.algorithm
    (octetsOf (throughServerHello messages))) connected.context
  client : connected.context.secrets.clientApplicationTrafficSecret =
    schedule.clientApplicationTrafficSecret K (transcriptOf K schedule.algorithm
      (octetsOf (throughServerFinished messages)))
  server : connected.context.secrets.serverApplicationTrafficSecret =
    schedule.serverApplicationTrafficSecret K (transcriptOf K schedule.algorithm
      (octetsOf (throughServerFinished messages)))
  exporter : connected.context.secrets.exporterMasterSecret =
    schedule.exporterMasterSecret K (transcriptOf K schedule.algorithm
      (octetsOf (throughServerFinished messages)))
  resumption : connected.context.secrets.resumptionMasterSecret =
    schedule.resumptionMasterSecret K (transcriptOf K schedule.algorithm (octetsOf messages))
  stored : ∀ ticket ∈ later.context.sessionCache, ticket.resumptionSecret =
    schedule.ticketSecret K (transcriptOf K schedule.algorithm (octetsOf messages)) ticket.nonce
  external : ∀ ticket ∈ later.externalSessionCache.getD [], ticket ∈ known ∨
    ticket.resumptionSecret =
      schedule.ticketSecret K (transcriptOf K schedule.algorithm (octetsOf messages)) ticket.nonce

/-- The messages up to the server's Finished and all of them have the same resumption master
secret. -/
def SameResumptionSecret (K : KeyFunctions) (schedule : Schedule)
    (messages : List HandshakeEntry) : Prop :=
  schedule.resumptionMasterSecret K
      (transcriptOf K schedule.algorithm (octetsOf (throughServerFinished messages))) =
    schedule.resumptionMasterSecret K (transcriptOf K schedule.algorithm (octetsOf messages))

theorem HoldsSecrets.conforming_iff (h : HoldsSecrets E options s s' schedule) (calls : List Call) :
    Conforming E.keys (s.externalSessionCache.getD []) schedule s'.history.messages s'
        (behind E calls s') ↔
      SameResumptionSecret E.keys schedule s'.history.messages := by
  have htickets := h.tickets calls
  constructor
  · intro hconforming
    exact h.application.resumption.symm.trans hconforming.resumption
  · intro hsame
    have hresumption := h.application.resumption.trans hsame
    rw [hresumption] at htickets
    exact ⟨h.handshake, h.application.client, h.application.server, h.application.exporter,
      hresumption, htickets.stored, htickets.external⟩

/-- The secrets of a successful handshake, and those of the tickets that are stored behind it,
are those of the schedule of its messages if and only if the messages of the client behind the
server's Finished make no difference to the resumption master secret. -/
theorem connectTls13_conforms_iff (start : TlsConnection)
    (h : connectTls13 E options (prepared options start) = .ok () s') (calls : List Call) :
    ∃ schedule, (∀ schedule', Agreed E options (prepared options start) s'.history.messages
        schedule' ↔ schedule' = schedule) ∧
      (Conforming E.keys (options.sessionCache.getD []) schedule s'.history.messages s'
          (behind E calls s') ↔
        SameResumptionSecret E.keys schedule s'.history.messages) := by
  obtain ⟨schedule, hholds⟩ := connectTls13_secrets rfl h
  refine ⟨schedule, fun schedule' => ⟨hholds.agreed.unique, ?_⟩, hholds.conforming_iff calls⟩
  rintro rfl
  exact hholds.agreed

/-! ## A server that asks for a certificate -/

def plainCertificateRequest : Bytes := handshakeMessage .certificateRequest [0, 0, 0]

def requestingFlight : Bytes :=
  plainEncryptedExtensions ++ plainCertificateRequest ++ plainCertificate ++ plainCertificateVerify

/-- The client answers with an empty list of certificates. -/
def requestingServer : TlsConnection where
  incoming :=
    [.octets (plaintextRecord 22 (plainServerHello (List.replicate 32 1) []) ++
      plainTls13Record 22 (requestingFlight ++ plainFinished [] plainHellos requestingFlight))]

/-- The state behind its handshake. -/
def requestingConnection : TlsConnection :=
  after (connectTls13 plainEnvironment plainOptions) (prepared plainOptions requestingServer)

theorem requestingServer_checked :
    returns (connectTls13 plainEnvironment plainOptions)
        (prepared plainOptions requestingServer) = true ∧
      (serverHelloIn requestingConnection.history.messages).map
        (fun view => hashForCipherSuite view.cipherSuite) = some .sha256 := by
  constructor
  all_goals decide +kernel

example : (parseMessage plainCertificateRequest).toOption.map (·.type) =
    some .certificateRequest := by decide +kernel

theorem requestingServer_connects :
    connectTls13 plainEnvironment plainOptions (prepared plainOptions requestingServer) =
      .ok () requestingConnection :=
  eq_ok_of_returns requestingServer_checked.1

theorem connectTls13_conforms_iff_requested :
    ∃ schedule, (∀ schedule', Agreed plainEnvironment plainOptions
        (prepared plainOptions requestingServer) requestingConnection.history.messages schedule' ↔
        schedule' = schedule) ∧
      (Conforming plainEnvironment.keys (plainOptions.sessionCache.getD []) schedule
          requestingConnection.history.messages requestingConnection
          (behind plainEnvironment [.receive 1] requestingConnection) ↔
        SameResumptionSecret plainEnvironment.keys schedule
          requestingConnection.history.messages) :=
  connectTls13_conforms_iff requestingServer requestingServer_connects [.receive 1]

theorem requestingServer_schedule
    (h : Agreed plainEnvironment plainOptions (prepared plainOptions requestingServer)
      requestingConnection.history.messages schedule) :
    schedule = ⟨.sha256, none, [1, 2, 3]⟩ := by
  obtain ⟨serverHello, keyPair, ticket, hhello, halgorithm, -, hshared, hticket, hpsk⟩ :=
    h.exchanged
  have hsuite := requestingServer_checked.2
  rw [hhello] at hsuite
  cases hticket
  have hnone : schedule.psk = none := by
    rw [hpsk]
    split
    · rfl
    · rfl
  obtain ⟨algorithm, psk, sharedSecret⟩ := schedule
  cases halgorithm.trans (Option.some.inj hsuite)
  cases hnone
  cases hshared
  rfl

/-- The client's messages make a difference. -/
theorem requestingServer_diverges :
    connectTls13 plainEnvironment plainOptions (prepared plainOptions requestingServer) =
      .ok () requestingConnection ∧
    ∀ schedule, Agreed plainEnvironment plainOptions (prepared plainOptions requestingServer)
        requestingConnection.history.messages schedule →
      ¬ Conforming plainEnvironment.keys (plainOptions.sessionCache.getD []) schedule
        requestingConnection.history.messages requestingConnection
        (behind plainEnvironment [] requestingConnection) := by
  refine ⟨requestingServer_connects, fun schedule h hconforming => ?_⟩
  cases requestingServer_schedule h
  exact absurd hconforming.resumption (by decide +kernel)

end TlsConnection

end KernelHttp.Tls
