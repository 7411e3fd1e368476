/-
  The sessions that TLS 1.2 keeps (`StoreTls12SessionFromHandshake`).

  The session id of a session is read from the handshake buffer after later messages are written
  there.
-/
import KernelHttp.Tls.BufferLifetime

namespace KernelHttp.Tls

open Program Relation Overwriting

/-! ## The session id of a ServerHello -/

variable {data rest : Bytes} {n : ℕ}

theorem readBytes_eq_ok {octets : Bytes} (h : readBytes n data = .ok (octets, rest)) :
    n ≤ data.length ∧ octets = data.take n ∧ rest = data.drop n := by
  rw [readBytes] at h
  split_ifs at h with hlength
  obtain ⟨rfl, rfl⟩ := Prod.mk.inj (Except.ok.inj h)
  exact ⟨not_lt.1 hlength, rfl, rfl⟩

theorem readUint_eq_ok {v : ℕ} (h : readUint n data = .ok (v, rest)) :
    n ≤ data.length ∧ rest = data.drop n := by
  obtain ⟨⟨octets, rest'⟩, hread, h⟩ := Incremental.bind_eq_ok h
  obtain ⟨hlength, -, hrest⟩ := readBytes_eq_ok hread
  obtain ⟨-, rfl⟩ := Prod.mk.inj (Except.ok.inj h)
  exact ⟨hlength, hrest⟩

theorem parseServerHello_sessionId {message : TlsHandshakeMessageView}
    {serverHello : TlsHandshake12.TlsServerHelloView}
    (h : TlsHandshake12.parseServerHello message = .ok serverHello) :
    TlsHandshake12.sessionIdOffset + serverHello.sessionId.length ≤ message.body.length ∧
      serverHello.sessionId = (message.body.drop TlsHandshake12.sessionIdOffset).take
        serverHello.sessionId.length := by
  obtain ⟨-, -, h⟩ := Incremental.bind_eq_ok h
  obtain ⟨⟨version, rest₁⟩, hversion, h⟩ := Incremental.bind_eq_ok h
  obtain ⟨-, -, h⟩ := Incremental.bind_eq_ok h
  obtain ⟨⟨random, rest₂⟩, hrandom, h⟩ := Incremental.bind_eq_ok h
  obtain ⟨⟨sessionIdLength, rest₃⟩, hidLength, h⟩ := Incremental.bind_eq_ok h
  obtain ⟨-, -, h⟩ := Incremental.bind_eq_ok h
  obtain ⟨⟨sessionId, rest₄⟩, hid, h⟩ := Incremental.bind_eq_ok h
  obtain ⟨⟨suite, rest₅⟩, -, h⟩ := Incremental.bind_eq_ok h
  obtain ⟨cipherSuite, -, h⟩ := Incremental.bind_eq_ok h
  obtain ⟨⟨compression, rest₆⟩, -, h⟩ := Incremental.bind_eq_ok h
  obtain ⟨-, -, h⟩ := Incremental.bind_eq_ok h
  obtain ⟨extensions, -, h⟩ := Incremental.bind_eq_ok h
  obtain ⟨entries, -, h⟩ := Incremental.bind_eq_ok h
  obtain rfl := Except.ok.inj h
  obtain ⟨h₁, rfl⟩ := readUint_eq_ok hversion
  obtain ⟨h₂, -, rfl⟩ := readBytes_eq_ok hrandom
  obtain ⟨h₃, rfl⟩ := readUint_eq_ok hidLength
  obtain ⟨h₄, rfl, -⟩ := readBytes_eq_ok hid
  dsimp only
  rw [List.length_take_of_le h₄]
  simp only [List.drop_drop, List.length_drop, TlsHandshake12.sessionIdOffset] at h₃ h₄ ⊢
  exact ⟨by omega, trivial⟩

/-! ## A message in the buffer -/

namespace ConnectionMemory

variable {m m' : ConnectionMemory}

/-- The message that was read last lies in the buffer. -/
structure Shows (message : TlsHandshakeMessageView) (m : ConnectionMemory) : Prop where
  holds : Holds m.memory m.lastHandshakeOffset m.connection.lastHandshake
  octets : m.connection.lastHandshake = handshakeMessage message.type message.body

theorem handshakeMessage_length (type : TlsHandshakeType) (body : Bytes) :
    (handshakeMessage type body).length = tlsHandshakeHeaderLength + body.length := by
  rw [handshakeMessage, List.length_append, List.length_cons, BigEndian.bigEndian_length,
    tlsHandshakeHeaderLength]

theorem handshakeMessage_drop (type : TlsHandshakeType) (body : Bytes) :
    (handshakeMessage type body).drop tlsHandshakeHeaderLength = body :=
  List.drop_left' (by rw [List.length_cons, BigEndian.bigEndian_length, tlsHandshakeHeaderLength])

variable {updateTranscript : Bool} {m₁ : ConnectionMemory} {t : TlsConnection}
    {message : TlsHandshakeMessageView} {u : Unit}

theorem takeHandshakeMessage_shows {parsed : TlsHandshakeMessageView}
    (hm : InUse m) (hparse : m.connection.parseBuffered = .ok parsed)
    (h : takeHandshakeMessage parsed updateTranscript m = .ok message m') :
    message = parsed ∧ Shows message m' := by
  have hparse := TlsConnection.parseBuffered_eq_ok hparse
  have hn := parseMessage_bytesConsumed_le hparse
  have hlast : Holds m.memory m.connection.handshakeConsumed
      (m.connection.unread.take parsed.bytesConsumed) := by
    have hpart := hm.holds.read_part (j := m.connection.handshakeConsumed)
      (k := parsed.bytesConsumed) ((Nat.add_le_add_left hn _).trans_eq hm.unread_length)
    rw [Nat.zero_add] at hpart
    rwa [Holds, List.length_take_of_le hn]
  cases updateTranscript with
  | true =>
    cases h
    exact ⟨rfl, hlast, parseMessage_eq_ok hparse⟩
  | false =>
    cases h
    exact ⟨rfl, hlast, parseMessage_eq_ok hparse⟩

theorem readHandshakeMessageFrom_shows {E : Environment} {records : ℕ} (hm : InUse m)
    (h : readHandshakeMessageFrom E updateTranscript records m = .ok message m') :
    Shows message m' := by
  induction records generalizing m with
  | zero =>
    obtain ⟨result, t, ht, h⟩ := bind_eq_ok h
    cases ht
    have hlooked := hm.step (.looked .parse (.inl rfl) le_rfl)
    cases hparse : m.connection.parseBuffered with
    | ok parsed =>
      rw [hparse] at h
      obtain ⟨rfl, hshows⟩ := takeHandshakeMessage_shows hlooked hparse h
      exact hshows
    | error status =>
      rw [hparse] at h
      obtain ⟨_, _, -, h⟩ := bind_eq_ok h
      cases h
  | succ records ih =>
    obtain ⟨result, t, ht, h⟩ := bind_eq_ok h
    cases ht
    have hlooked := hm.step (.looked .parse (.inl rfl) le_rfl)
    cases hparse : m.connection.parseBuffered with
    | ok parsed =>
      rw [hparse] at h
      obtain ⟨rfl, hshows⟩ := takeHandshakeMessage_shows hlooked hparse h
      exact hshows
    | error status =>
      rw [hparse] at h
      obtain ⟨_, u, hu, h⟩ := bind_eq_ok h
      obtain ⟨_, v, hv, h⟩ := bind_eq_ok h
      have hkept := ((keepIncomplete_uses status).scratch.keeps _).ok hu hlooked
      exact ih (((bufferHandshakeRecord_uses E).scratch.keeps u).ok hv hkept) h

/-- **A message that is returned lies in the buffer, where it was taken.** -/
theorem readHandshakeMessage_shows {E : Environment} (hm : InUse m)
    (h : readHandshakeMessage E updateTranscript m = .ok message m') : Shows message m' := by
  obtain ⟨_, t, ht, h⟩ := bind_eq_ok h
  cases ht
  obtain ⟨_, t, ht, h⟩ := bind_eq_ok h
  cases ht
  refine readHandshakeMessageFrom_shows ?_ h
  exact hm.of_scratch rfl rfl rfl

/-! ## The hellos -/

open TlsHandshake12

variable {E : Tls12Environment} {options : TlsConnectOptions} {agreement : Tls12Agreement}

def HelloHeard (serverHello : TlsServerHelloView) (messages : List HandshakeEntry) : Prop :=
  ∃ entry ∈ messages, entry.sender = .server ∧ ∃ message,
    parseMessage entry.octets = .ok message ∧
      TlsHandshake12.parseServerHello message = .ok serverHello

/-- What the hellos have agreed on. -/
structure Agreed (agreement : Tls12Agreement) (m : ConnectionMemory) : Prop where
  heard : HelloHeard agreement.serverHello m.connection.history.messages
  ticket : m.connection.TicketHeard
  sessionId : Holds m.memory agreement.sessionIdPlace agreement.serverHello.sessionId
  cipherSuite : m.connection.context.cipherSuite = agreement.serverHello.cipherSuite
  alpn : parseServerHelloAlpn agreement.serverHello negotiatedAlpnCapacity =
    .ok m.connection.negotiatedAlpn

theorem acceptServerHello_agrees {offer : Tls12Offer} {clientHello : Bytes}
    {handshake : TlsHandshakeMessageView} {s : TlsConnection}
    {serverHello : TlsServerHelloView} {capability : TlsCipherSuiteCapability} {ticket : Bool}
    (h : acceptServerHello options offer clientHello handshake s =
      .ok (serverHello, capability, ticket) t) :
    TlsHandshake12.parseServerHello handshake = .ok serverHello ∧
      t.context.cipherSuite = serverHello.cipherSuite ∧
      parseServerHelloAlpn serverHello negotiatedAlpnCapacity = .ok t.negotiatedAlpn ∧
      t.tls12PendingTicket = s.tls12PendingTicket ∧
      t.history.messages = s.history.messages := by
  obtain ⟨hello, s₁, hs₁, h⟩ := bind_eq_ok h
  obtain ⟨hparse, rfl⟩ := ofExcept_eq_ok hs₁
  obtain ⟨_, s₂, hs₂, h⟩ := bind_eq_ok h
  cases hs₂
  obtain ⟨_, s₃, hs₃, h⟩ := bind_eq_ok h
  obtain ⟨-, rfl⟩ := ofExcept_eq_ok hs₃
  obtain ⟨_, s₄, hs₄, h⟩ := bind_eq_ok h
  obtain ⟨-, rfl⟩ := require_eq_ok hs₄
  obtain ⟨_, s₅, hs₅, h⟩ := bind_eq_ok h
  obtain ⟨-, rfl⟩ := require_eq_ok hs₅
  obtain ⟨_, s₆, hs₆, h⟩ := bind_eq_ok h
  obtain ⟨-, rfl⟩ := ofExcept_eq_ok hs₆
  obtain ⟨_, s₇, hs₇, h⟩ := bind_eq_ok h
  obtain ⟨-, rfl⟩ := require_eq_ok hs₇
  obtain ⟨_, s₈, hs₈, h⟩ := bind_eq_ok h
  obtain ⟨-, rfl⟩ := ofExcept_eq_ok hs₈
  obtain ⟨alpn, s₉, hs₉, h⟩ := bind_eq_ok h
  obtain ⟨halpn, rfl⟩ := ofExcept_eq_ok hs₉
  obtain ⟨_, s₁₀, hs₁₀, h⟩ := bind_eq_ok h
  cases hs₁₀
  obtain ⟨_, s₁₁, hs₁₁, h⟩ := bind_eq_ok h
  obtain ⟨-, rfl⟩ := require_eq_ok hs₁₁
  obtain ⟨_, s₁₂, hs₁₂, h⟩ := bind_eq_ok h
  cases hs₁₂
  cases h
  exact ⟨hparse, rfl, halpn, rfl, rfl⟩

theorem initializeClient_ticket :
    Makes TlsConnection.tls12PendingTicket (fun _ _ => False) (initializeClient E) :=
  Makes.bind (Makes.modify_aside fun _ => rfl) fun _ =>
    Makes.bind TlsConnection.ofFailure_makes fun _ => Makes.modify_aside fun _ => rfl

theorem offerHello12_ticket :
    Makes TlsConnection.tls12PendingTicket (fun _ _ => False) (offerHello12 E options) :=
  Makes.bind (Makes.require _) fun _ => Makes.bind (Makes.ofExcept _) fun _ =>
    Makes.read fun _ => Makes.bind (Makes.ofExcept _) fun _ =>
      Makes.bind (Makes.bind (Makes.modify_aside fun _ => rfl) fun _ =>
        Makes.bind (Makes.modify_aside fun _ => rfl) fun _ =>
          TlsConnection.sendPlainRecord_aside E.toEnvironment (fun _ _ _ _ _ => rfl) _ _)
        fun _ => Makes.pure _

theorem lift_eq_ok {α : Type} {q : TlsProgram α} {a : α} (h : lift q m = .ok a m') :
    ∃ t, q m.connection = .ok a t ∧ m' = { m with connection := t } := by
  rw [lift] at h
  cases hq : q m.connection with
  | ok b t =>
    rw [hq] at h
    cases h
    exact ⟨t, rfl, rfl⟩
  | error status t =>
    rw [hq] at h
    cases h

/-! ## The messages that follow -/

/-- What follows: the accesses, with what no write touches, and what has been negotiated. -/
structure Follows (m m' : ConnectionMemory) : Prop where
  accesses : ∃ later, m'.accesses = m.accesses ++ later ∧ ∀ i n,
    (∀ access ∈ later, access.writes = true → Apart access.first access.count i n) →
      Overwriting.read m'.memory i n = Overwriting.read m.memory i n
  hears : Hears m.connection m'.connection
  cache : m'.tls12SessionCache = m.tls12SessionCache

theorem Follows.refl (m : ConnectionMemory) : Follows m m where
  accesses := ⟨[], (List.append_nil _).symm, fun _ _ _ => rfl⟩
  hears := .of_ticket rfl rfl rfl List.prefix_rfl List.prefix_rfl rfl
  cache := rfl

theorem Follows.trans {m'' : ConnectionMemory} (h : Follows m m') (h' : Follows m' m'') :
    Follows m m'' := by
  obtain ⟨later, heq, hkept⟩ := h.accesses
  obtain ⟨later', heq', hkept'⟩ := h'.accesses
  refine ⟨⟨later ++ later', by rw [heq', heq, List.append_assoc], fun i n hapart => ?_⟩,
    h.hears.trans h'.hears, h'.cache.trans h.cache⟩
  exact (hkept' i n fun access ha => hapart access (List.mem_append_right _ ha)).trans
    (hkept i n fun access ha => hapart access (List.mem_append_left _ ha))

/-- An access that reads. -/
theorem Follows.looked {access : BufferAccess} :
    Follows m { m with accesses := m.accesses ++ [access] } :=
  ⟨⟨[access], rfl, fun _ _ _ => rfl⟩, (Follows.refl m).hears, rfl⟩

/-- An access that writes. -/
theorem Follows.wrote (kind : AccessKind) (first : ℕ) (data : Bytes)
    (hwrites : (m.accessOf kind first data.length).writes = true) (ht : Hears m.connection t) :
    Follows m { m with
      connection := t
      memory := write m.memory first data
      accesses := m.accesses ++ [m.accessOf kind first data.length] } :=
  ⟨⟨_, rfl, fun _ _ hapart =>
    read_write_of_apart (hapart _ (List.mem_singleton_self _) hwrites)⟩, ht, rfl⟩

/-- **What no write touches stays where it lies, and what was negotiated stays.** -/
theorem BufferStep.follows (h : BufferStep Proceeds m m') : Follows m m' := by
  have hsame {t : TlsConnection} (hsuite : t.context.cipherSuite = m.connection.context.cipherSuite)
      (halpn : t.negotiatedAlpn = m.connection.negotiatedAlpn)
      (halgorithm : t.transcriptAlgorithm = m.connection.transcriptAlgorithm)
      (htranscript : t.transcript = m.connection.transcript)
      (hmessages : t.history.messages = m.connection.history.messages)
      (hticket : t.tls12PendingTicket = m.connection.tls12PendingTicket) :
      Hears m.connection t := .of_ticket hsuite halpn halgorithm (htranscript ▸ List.prefix_rfl)
        (hmessages ▸ List.prefix_rfl) hticket
  have hstay {t : TlsConnection} (ht : Hears m.connection t) :
      Follows m { m with connection := t } :=
    ⟨⟨[], (List.append_nil _).symm, fun _ _ _ => rfl⟩, ht, rfl⟩
  cases h with
  | lifted h => exact hstay h.toHears
  | aside => exact ⟨⟨[], (List.append_nil _).symm, fun _ _ _ => rfl⟩, (Follows.refl m).hears, rfl⟩
  | looked kind hkind hn => exact .looked
  | moved => exact .wrote .move 0 _ rfl (hsame rfl rfl rfl rfl rfl rfl)
  | compacted h => exact hstay (hsame rfl rfl rfl rfl rfl rfl)
  | copied fragment h => exact .wrote .copy _ fragment rfl (hsame rfl rfl rfl rfl rfl rfl)
  | lost fragment h => exact .wrote .copy _ fragment rfl (Follows.refl m).hears
  | consumed hn hscratch hears => exact hstay hears

theorem Uses.follows {α : Type} {p : MemoryProgram α} (hp : Uses Proceeds p) {a : α}
    (h : p m = .ok a m') : Follows m m' := by
  have hsteps : ReflTransGen (BufferStep Proceeds) m m' := (hp m).ok h
  clear h
  induction hsteps with
  | refl => exact .refl m
  | tail _ hlast ih => exact ih.trans hlast.follows

/-! ## The agreement -/

/-- **The session id that is agreed on lies at its place.** -/
theorem negotiate12_agrees (hm : InUse m) (hticket : m.connection.tls12PendingTicket = [])
    (h : negotiate12 E options m = .ok agreement m') :
    Agreed agreement m' ∧ m'.tls12SessionCache = m.tls12SessionCache := by
  obtain ⟨_, m₁, h₁, h⟩ := bind_eq_ok h
  have hm₁ := ((LeavesScratch.uses (LeavesScratch.initializeClient E)).keeps m).ok h₁ hm
  obtain ⟨⟨offer, clientHello⟩, m₂, h₂, h⟩ := bind_eq_ok h
  have hm₂ := ((LeavesScratch.uses (LeavesScratch.offerHello12 E options)).keeps m₁).ok h₂ hm₁
  obtain ⟨t₁, ht₁, rfl⟩ := lift_eq_ok h₁
  obtain ⟨t₂, ht₂, rfl⟩ := lift_eq_ok h₂
  have hnone : t₂.tls12PendingTicket = [] := by
    rw [← hticket, ← eq_of_noStep ((initializeClient_ticket m.connection).ok ht₁)]
    exact eq_of_noStep ((offerHello12_ticket t₁).ok ht₂)
  obtain ⟨handshake, m₃, h₃, h⟩ := bind_eq_ok h
  have hshows := readHandshakeMessage_shows hm₂ h₃
  have hfollows := (readHandshakeMessage_uses E.toEnvironment true).follows h₃
  obtain ⟨hparsed, entry, hsender, hoctets, hdialogue⟩ := TlsConnection.readHandshakeMessage_heard
    ((readHandshakeMessage_refines E.toEnvironment true).ok h₃)
  have hentry : entry ∈ m₃.connection.history.messages := by
    have hmessages : m₃.connection.history.messages = _ := congrArg Dialogue.messages hdialogue
    rw [hmessages]
    exact List.mem_append_right _ (List.mem_singleton_self _)
  obtain ⟨_, _, hget, h⟩ := bind_eq_ok h
  cases hget
  obtain ⟨⟨serverHello, capability, ticket⟩, m₄, h₄, h⟩ := bind_eq_ok h
  obtain ⟨t, ht, rfl⟩ := lift_eq_ok h₄
  obtain ⟨hparse, hsuite, halpn, hpending, hmessages⟩ := acceptServerHello_agrees ht
  obtain ⟨_, m₅, h₅, h⟩ := bind_eq_ok h
  cases h₅
  cases h
  obtain ⟨hlength, hid⟩ := parseServerHello_sessionId hparse
  refine ⟨⟨⟨entry, ?_, hsender, handshake, ?_, hparse⟩, ?_, ?_, hsuite, halpn⟩, hfollows.cache⟩
  · rw [show t.history.messages = _ from hmessages]
    exact hentry
  · rw [hoctets]
    exact hparsed
  · have hheard := hfollows.hears.ticket (.inl hnone)
    rw [TlsConnection.TicketHeard] at hheard ⊢
    rw [show t.history.messages = _ from hmessages, show t.tls12PendingTicket = _ from hpending]
    exact hheard
  · have hpart := hshows.holds.read_part
      (j := tlsHandshakeHeaderLength + sessionIdOffset) (k := serverHello.sessionId.length) (by
        rw [hshows.octets, handshakeMessage_length]
        omega)
    rw [hshows.octets, ← List.drop_drop, handshakeMessage_drop, ← Nat.add_assoc] at hpart
    exact hpart.trans hid.symm

/-! ## The server's Finished -/

/-- The server's Finished has been verified under the master secret, over the transcript in front
of it. -/
def Verified (E : Tls12Environment) (m : ConnectionMemory) : Prop :=
  ∃ message transcript, parseMessage m.connection.lastHandshake = .ok message ∧
    message.type = .finished ∧
    transcript ++ m.connection.lastHandshake <+: m.connection.transcript ∧
    verifyFinished E.keys m.connection.context.cipherSuite m.masterSecret
      (E.keys.hash m.connection.transcriptAlgorithm transcript) message.body = .ok ()

theorem readFinished12_verified (h : readFinished12 E m = .ok u m') :
    Verified E m' := by
  obtain ⟨handshake, m₁, h₁, h⟩ := bind_eq_ok h
  have hheard := TlsConnection.readHandshakeMessage_heard
    ((readHandshakeMessage_refines E.toEnvironment false).ok h₁)
  obtain ⟨_, _, hget, h⟩ := bind_eq_ok h
  cases hget
  obtain ⟨t, ht, rfl⟩ := lift_eq_ok h
  obtain ⟨_, s₁, hs₁, ht⟩ := bind_eq_ok ht
  obtain ⟨htype, rfl⟩ := require_eq_ok hs₁
  obtain ⟨_, s₂, hs₂, ht⟩ := bind_eq_ok ht
  cases hs₂
  obtain ⟨_, _, hget, ht⟩ := bind_eq_ok ht
  cases hget
  obtain ⟨_, s₃, hs₃, ht⟩ := bind_eq_ok ht
  obtain ⟨hverify, rfl⟩ := ofExcept_eq_ok hs₃
  cases ht
  exact ⟨handshake, m₁.connection.transcript, hheard.parsed, htype, List.prefix_rfl, hverify⟩

theorem Verified.of_follows (h : Verified E m) (hfollows : Follows m m')
    (hlast : m'.connection.lastHandshake = m.connection.lastHandshake)
    (hsecret : m'.masterSecret = m.masterSecret) : Verified E m' := by
  obtain ⟨message, transcript, hparse, htype, htranscript, hverify⟩ := h
  refine ⟨message, transcript, ?_, htype, ?_, ?_⟩
  · rw [hlast]
    exact hparse
  · rw [hlast]
    exact htranscript.trans hfollows.hears.transcript
  · rw [hsecret, hfollows.hears.cipherSuite, hfollows.hears.transcriptAlgorithm]
    exact hverify

theorem Verified.of_lift (h : Verified E m) {q : TlsProgram Unit} (hspeaks : Speaks q)
    (hlast : Makes TlsConnection.lastHandshake (fun _ _ => False) q)
    (hq : lift q m = .ok u m') : Verified E m' := by
  have hfollows := (Speaks.uses hspeaks).follows hq
  obtain ⟨t, ht, rfl⟩ := lift_eq_ok hq
  exact h.of_follows hfollows (eq_of_noStep ((hlast m.connection).ok ht)) rfl

theorem handshakeInFull_verified (h : handshakeInFull E options agreement m = .ok u m') :
    Verified E m' := by
  obtain ⟨⟨leaf, key⟩, m₁, -, h⟩ := bind_eq_ok h
  obtain ⟨handshake, m₂, -, h⟩ := bind_eq_ok h
  obtain ⟨⟨share, handshake'⟩, m₃, -, h⟩ := bind_eq_ok h
  obtain ⟨⟨answer, handshake''⟩, m₄, -, h⟩ := bind_eq_ok h
  obtain ⟨_, m₅, -, h⟩ := bind_eq_ok h
  obtain ⟨premasterSecret, m₆, -, h⟩ := bind_eq_ok h
  obtain ⟨_, m₇, -, h⟩ := bind_eq_ok h
  obtain ⟨_, m₈, -, h⟩ := bind_eq_ok h
  obtain ⟨_, m₉, -, h⟩ := bind_eq_ok h
  obtain ⟨_, m₁₀, -, h⟩ := bind_eq_ok h
  obtain ⟨_, m₁₁, -, h⟩ := bind_eq_ok h
  exact readFinished12_verified h

theorem resume_verified {session : Tls12Session}
    (h : resume E agreement session m = .ok u m') : Verified E m' := by
  obtain ⟨_, _, hget, h⟩ := bind_eq_ok h
  cases hget
  obtain ⟨_, m₁, -, h⟩ := bind_eq_ok h
  obtain ⟨_, m₂, -, h⟩ := bind_eq_ok h
  obtain ⟨_, m₃, -, h⟩ := bind_eq_ok h
  obtain ⟨_, m₄, -, h⟩ := bind_eq_ok h
  obtain ⟨_, m₅, -, h⟩ := bind_eq_ok h
  obtain ⟨_, m₆, h₆, h⟩ := bind_eq_ok h
  obtain ⟨_, m₇, h₇, h⟩ := bind_eq_ok h
  have hsending : IgnoresSending TlsConnection.lastHandshake := fun _ _ _ _ _ => rfl
  have hverified := (readFinished12_verified h₆).of_lift (Speaks.sendChangeCipherSpec E)
    (TlsConnection.sendPlainRecord_aside E.toEnvironment hsending _ _) h₇
  obtain ⟨_, _, hget, h⟩ := bind_eq_ok h
  cases hget
  refine hverified.of_lift ?_ ?_ h
  · exact Makes.bind (Speaks.finishTranscript E) fun _ => Makes.read fun _ =>
      Makes.bind (Makes.ofExcept _) fun _ => Makes.bind (Makes.modify fun _ => .transcript _)
        fun _ => Makes.bind (Makes.modify fun _ => .message _) fun _ =>
          TlsConnection.sendProtectedRecord_aside E.toEnvironment Speaks.ignoresSending _ _
  · exact Makes.bind (TlsConnection.finishTranscript_makes E.toEnvironment) fun _ =>
      Makes.read fun _ => Makes.bind (Makes.ofExcept _) fun _ =>
        Makes.bind (Makes.modify_aside fun _ => rfl) fun _ =>
          Makes.bind (Makes.modify_aside fun _ => rfl) fun _ =>
            TlsConnection.sendProtectedRecord_aside E.toEnvironment hsending _ _

/-! ## The session -/

/-- The session describes the handshake whose ServerHello is `serverHello`, and which has ended in
`m`. -/
structure Describes (E : Tls12Environment) (options : TlsConnectOptions)
    (serverHello : TlsServerHelloView) (m : ConnectionMemory) (session : Tls12Session) : Prop where
  heard : HelloHeard serverHello m.connection.history.messages
  sessionId : session.sessionId = serverHello.sessionId
  cipherSuite : session.cipherSuite = serverHello.cipherSuite
  alpn : parseServerHelloAlpn serverHello negotiatedAlpnCapacity = .ok session.alpn
  serverName : session.serverName = options.serverName
  masterSecret : session.masterSecret = m.masterSecret
  verified : Verified E m
  ticket : session.ticket = m.connection.tls12PendingTicket
  ticketHeard : m.connection.TicketHeard

/-- The octets of the session id of the ServerHello have not been written since. -/
def Spares (agreement : Tls12Agreement) (later : List BufferAccess) : Prop :=
  ∀ access ∈ later, access.writes = true → Apart access.first access.count
    agreement.sessionIdPlace agreement.serverHello.sessionId.length

instance (agreement : Tls12Agreement) (later : List BufferAccess) :
    Decidable (Spares agreement later) :=
  inferInstanceAs (Decidable (∀ access ∈ later, _))

/-- The accesses of the messages behind the hellos. -/
def accessesBehind (m m' : ConnectionMemory) : List BufferAccess :=
  m'.accesses.drop m.accesses.length

/-- What the hellos have agreed on still stands when the session is stored. -/
theorem Agreed.follows (h : Agreed agreement m) (hfollows : Follows m m')
    (hspares : agreement.serverHello.sessionId = [] ∨ Spares agreement (accessesBehind m m')) :
    Agreed agreement m' := by
  obtain ⟨entry, hentry, hsender, message, hparse, hparsed⟩ := h.heard
  refine ⟨⟨entry, hfollows.hears.messages.subset hentry, hsender, message, hparse, hparsed⟩,
    hfollows.hears.ticket h.ticket, ?_, hfollows.hears.cipherSuite.trans h.cipherSuite, ?_⟩
  · rcases hspares with hempty | hspares
    · rw [hempty]
      exact Overwriting.Holds.nil
    · obtain ⟨later, heq, hkept⟩ := hfollows.accesses
      rw [accessesBehind, heq, List.drop_left] at hspares
      exact (hkept _ _ hspares).trans h.sessionId
  · rw [hfollows.hears.alpn]
    exact h.alpn

theorem sessionOf_describes (h : Agreed agreement m) (hverified : Verified E m) (now : UInt64)
    (context : TlsContext) (cache : Option (List Tls12Session))
    (hsuite : context.cipherSuite = m.connection.context.cipherSuite) :
    Describes E options agreement.serverHello
      { m with
        connection := { m.connection with context }
        tls12SessionCache := cache } (m.sessionOf options agreement now) where
  heard := h.heard
  sessionId := h.sessionId
  cipherSuite := h.cipherSuite
  alpn := h.alpn
  serverName := rfl
  masterSecret := rfl
  verified := by
    obtain ⟨message, transcript, hparse, htype, htranscript, hverify⟩ := hverified
    exact ⟨message, transcript, hparse, htype, htranscript, hsuite ▸ hverify⟩
  ticket := rfl
  ticketHeard := h.ticket

theorem connectTls12_eq_ok (h : connectTls12 E options m = .ok () m') : ∃ agreement m₁ m₂,
    negotiate12 E options m = .ok agreement m₁ ∧ Follows m₁ m₂ ∧ Verified E m₂ ∧
      storeTls12SessionFromHandshake E options agreement m₂ = .ok () m' := by
  obtain ⟨agreement, m₁, h₁, h⟩ := bind_eq_ok h
  dsimp only at h
  cases hsession : agreement.offer.session.filter (·.echoedBy agreement.serverHello) with
  | some session =>
    rw [hsession] at h
    obtain ⟨_, m₂, h₂, h⟩ := bind_eq_ok h
    exact ⟨agreement, m₁, m₂, h₁, (resume_uses E agreement session).follows h₂,
      resume_verified h₂, h⟩
  | none =>
    rw [hsession] at h
    obtain ⟨_, m₂, h₂, h⟩ := bind_eq_ok h
    exact ⟨agreement, m₁, m₂, h₁, (handshakeInFull_uses E options agreement).follows h₂,
      handshakeInFull_verified h₂, h⟩

/-- **A session describes the handshake that stores it**, where the session id of the ServerHello is
empty or no record of the handshake is written over it. -/
theorem connectTls12_describes (E : Tls12Environment) (options : TlsConnectOptions)
    (m m₁ m' : ConnectionMemory) (agreement : Tls12Agreement)
    (hhellos : negotiate12 E options (prepared options m) = .ok agreement m₁)
    (h : connectTls12 E options (prepared options m) = .ok () m')
    (hspares : agreement.serverHello.sessionId = [] ∨
      Spares agreement (accessesBehind m₁ m')) :
    ∃ session, Describes E options agreement.serverHello m' session ∧
      m'.tls12SessionCache = if m'.storable options agreement then
        options.tls12SessionCache.map session.storedIn else options.tls12SessionCache := by
  obtain ⟨agreement', m₁', m₂, hhellos', hfollows, hverified, hstore⟩ := connectTls12_eq_ok h
  cases hhellos.symm.trans hhellos'
  obtain ⟨hagreed, hcache⟩ := negotiate12_agrees (prepared_inUse options m) rfl hhellos
  have hcache₂ : m₂.tls12SessionCache = options.tls12SessionCache := hfollows.cache.trans hcache
  obtain ⟨_, _, hget, hstore⟩ := bind_eq_ok hstore
  cases hget
  obtain ⟨_, m₃, h₃, hstore⟩ := bind_eq_ok hstore
  cases hstore
  refine ⟨m₂.sessionOf options agreement (E.currentMilliseconds m₂.connection.calls), ?_⟩
  rcases when_eq_ok h₃ with ⟨hstorable, h₃⟩ | ⟨hstorable, rfl⟩
  · cases h₃
    have hagreed' := hagreed.follows hfollows hspares
    refine ⟨sessionOf_describes hagreed' hverified _ _ _ rfl, ?_⟩
    rw [if_pos (by exact hstorable), ← hcache₂]
  · have hagreed' := hagreed.follows hfollows hspares
    refine ⟨sessionOf_describes hagreed' hverified _ _ _ rfl, ?_⟩
    rw [if_neg (by exact hstorable), ← hcache₂]

/-! ### A server of TLS 1.2 -/

/-- What the hellos have agreed on, with the states behind them and behind the handshake. -/
def returned : EStateM.Result NTSTATUS ConnectionMemory Tls12Agreement →
    EStateM.Result NTSTATUS ConnectionMemory Unit →
      Option (Tls12Agreement × ConnectionMemory × ConnectionMemory)
  | .ok agreement m₁, .ok () m' => some (agreement, m₁, m')
  | _, _ => none

theorem returned_eq_some {hellos : EStateM.Result NTSTATUS ConnectionMemory Tls12Agreement}
    {handshake : EStateM.Result NTSTATUS ConnectionMemory Unit}
    (h : returned hellos handshake = some (agreement, m₁, m')) :
    hellos = .ok agreement m₁ ∧ handshake = .ok () m' := by
  cases hellos with
  | error status m₂ => cases h
  | ok agreement' m₂ =>
    cases handshake with
    | error status m₃ => cases h
    | ok u m₃ =>
      cases h
      exact ⟨rfl, rfl⟩

def plainHandshake12 (incoming : List TransportRead) :
    Option (Tls12Agreement × ConnectionMemory × ConnectionMemory) :=
  let m := prepared plainOptions12 (constructed incoming)
  returned (negotiate12 plainEnvironment12 plainOptions12 m)
    (connectTls12 plainEnvironment12 plainOptions12 m)

theorem plainHandshake12_eq_some {incoming : List TransportRead}
    (h : plainHandshake12 incoming = some (agreement, m₁, m')) :
    negotiate12 plainEnvironment12 plainOptions12
        (prepared plainOptions12 (constructed incoming)) = .ok agreement m₁ ∧
      connectTls12 plainEnvironment12 plainOptions12
        (prepared plainOptions12 (constructed incoming)) = .ok () m' :=
  returned_eq_some h

/-- Behind a resumption without a ticket, the session that is stored has the same id. -/
theorem connectTls12_describes_plain : ∃ agreement m' session,
    Describes plainEnvironment12 plainOptions12 agreement.serverHello m' session ∧
      m'.tls12SessionCache = if m'.storable plainOptions12 agreement then
        plainOptions12.tls12SessionCache.map session.storedIn
        else plainOptions12.tls12SessionCache := by
  have hrun : (plainHandshake12 plainServer12).any
      (fun (agreement, m₁, m') => Spares agreement (accessesBehind m₁ m')) = true := by
    decide +kernel
  obtain ⟨⟨agreement, m₁, m'⟩, hsome, hspares⟩ := (Option.any_eq_true _ _).1 hrun
  obtain ⟨hhellos, h⟩ := plainHandshake12_eq_some hsome
  exact ⟨agreement, m', connectTls12_describes plainEnvironment12 plainOptions12
    (constructed plainServer12) m₁ m' agreement hhellos h (.inr (of_decide_eq_true hspares))⟩

def plainTicketHello12 : Bytes := plainServerHello12 (extensionOctets extensionSessionTicket [])

def plainTicket12 : Bytes :=
  handshakeMessage .newSessionTicket ([0, 0, 0, 9, 0, 40] ++ List.replicate 40 7)

/-- A server that resumes the session, and issues a ticket for it. -/
def plainTicketServer12 : List TransportRead :=
  [.octets (plaintextRecord 22 plainTicketHello12 ++ plaintextRecord 22 plainTicket12 ++
    plaintextRecord 20 [1] ++ plainTls12Record 22
      (plainFinished12 (plainClientHello12 ++ plainTicketHello12 ++ plainTicket12)))]

/-- The session that is stored has octets of the ticket for its id. -/
theorem plainTicketServer12_overwrites : ∃ agreement m₁ m',
    negotiate12 plainEnvironment12 plainOptions12
        (prepared plainOptions12 (constructed plainTicketServer12)) = .ok agreement m₁ ∧
      connectTls12 plainEnvironment12 plainOptions12
        (prepared plainOptions12 (constructed plainTicketServer12)) = .ok () m' ∧
      m'.storable plainOptions12 agreement = true ∧
      ¬ ∃ session, Describes plainEnvironment12 plainOptions12 agreement.serverHello m' session ∧
        m'.tls12SessionCache = plainOptions12.tls12SessionCache.map session.storedIn := by
  have hrun : (plainHandshake12 plainTicketServer12).any (fun (agreement, _, m') =>
      agreement.serverHello.sessionId = plainSession.sessionId ∧
        m'.storable plainOptions12 agreement ∧
        m'.tls12SessionCache.map (·.map (·.sessionId)) =
          some [plainSession.sessionId, [7, 7, 7, 7]]) = true := by decide +kernel
  obtain ⟨⟨agreement, m₁, m'⟩, hsome, hrun⟩ := (Option.any_eq_true _ _).1 hrun
  obtain ⟨hhellos, h⟩ := plainHandshake12_eq_some hsome
  obtain ⟨hid, hstorable, hcache⟩ := of_decide_eq_true hrun
  refine ⟨agreement, m₁, m', hhellos, h, hstorable, ?_⟩
  rintro ⟨session, hdescribes, hstored⟩
  have hsession : session.sessionId = plainSession.sessionId := hdescribes.sessionId.trans hid
  rw [hstored, plainOptions12, Option.map_some, Tls12Session.storedIn] at hcache
  split_ifs at hcache
  · cases Option.some.inj hcache
  · have hlast := (List.cons.inj (List.cons.inj (Option.some.inj hcache)).2).1
    exact absurd (hsession.symm.trans hlast) (by decide)
  · cases (List.cons.inj (Option.some.inj hcache)).2

end ConnectionMemory

end KernelHttp.Tls
