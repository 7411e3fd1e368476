/-
  The second ClientHello against RFC 8446, section 4.1.2.

  `RetriedHello` says how a ClientHello follows a HelloRetryRequest.  The one that
  `ConnectTls13` sends keeps the offer of early data, and does not echo a cookie.
-/
import KernelHttp.Tls.ClientHello
import KernelHttp.Tls.Resumption

namespace KernelHttp.Tls

open Incremental

/-! ## The second ClientHello -/

def extensionCookie : ℕ := 44

def cookieOf (retry : Tls13ServerHelloView) : List Bytes :=
  ((extensionsOf retry.extensions).toOption.map (dataOf extensionCookie)).getD []

/-- The extensions that a second ClientHello keeps as they are. -/
def keptExtension (type : ℕ) : Bool :=
  type ∉ [extensionKeyShare, extensionEarlyData, extensionPreSharedKey, extensionCookie]

/-- How the second ClientHello follows the first one; `ticket` is what was offered. -/
structure RetriedHello (K : KeyFunctions) (ticket : Option Tls13SessionTicket)
    (first retry second : Bytes) (view : Tls13ServerHelloView)
    (before behind : ClientHelloView) : Prop where
  fields : { behind with extensions := before.extensions } = before
  kept : behind.extensions.filter (keptExtension ·.1) =
    before.extensions.filter (keptExtension ·.1)
  keyShare : ∃ publicKey, dataOf extensionKeyShare behind.extensions =
    (keyShareEntries [⟨view.retryGroup, publicKey⟩]).map (·.2)
  earlyData : dataOf extensionEarlyData behind.extensions = []
  cookie : dataOf extensionCookie behind.extensions = cookieOf view
  unbound : ticket = none → dataOf extensionPreSharedKey behind.extensions =
    dataOf extensionPreSharedKey before.extensions
  bound : ∀ t ∈ ticket, ∃ psk binder truncated,
    dataOf extensionPreSharedKey before.extensions = (pskEntries [psk]).map (·.2) ∧
    dataOf extensionPreSharedKey behind.extensions =
      (pskEntries [{ psk with binder }]).map (·.2) ∧
    second = truncated ++ pskBindersOctets [{ psk with binder }] ∧
    binder = pskBinder K (hashForCipherSuite t.cipherSuite) t.resumptionSecret
      (messageHash K (hashForCipherSuite t.cipherSuite) first ++ retry ++ truncated)

/-! ## The extensions of an encoded ClientHello -/

variable {entries : List (ℕ × Bytes)} {type : ℕ}

theorem filter_eq_self_of_ofType (h : OfType type entries) (hkept : keptExtension type = true) :
    entries.filter (keptExtension ·.1) = entries :=
  List.filter_eq_self.2 fun entry hentry => by rw [h entry hentry]; exact hkept

theorem filter_eq_nil_of_ofType (h : OfType type entries) (hkept : keptExtension type = false) :
    entries.filter (keptExtension ·.1) = [] :=
  List.filter_eq_nil_iff.2 fun entry hentry => by
    rw [h entry hentry, hkept]
    exact Bool.false_ne_true

theorem clientHelloEntries_kept (options : Tls13ClientHelloOptions) :
    (clientHelloEntries options).filter (keptExtension ·.1) =
      serverNameEntries options.serverName ++ constantEntries ++
        [(extensionPskKeyExchangeModes, [1, 1])] ++ alpnEntries options.alpnProtocols := by
  have hconstant : constantEntries.filter (keptExtension ·.1) = constantEntries := by decide
  have hmodes : [(extensionPskKeyExchangeModes, ([1, 1] : Bytes))].filter (keptExtension ·.1) =
      [(extensionPskKeyExchangeModes, [1, 1])] := by decide
  simp only [clientHelloEntries, entriesBeforePsk, List.filter_append, hconstant, hmodes,
    filter_eq_self_of_ofType (serverNameEntries_ofType _) (by decide),
    filter_eq_self_of_ofType (alpnEntries_ofType _) (by decide),
    filter_eq_nil_of_ofType (keyShareEntries_ofType _) (by decide),
    filter_eq_nil_of_ofType (earlyDataEntries_ofType _) (by decide),
    filter_eq_nil_of_ofType (pskEntries_ofType _) (by decide), List.append_nil]

/-- A type that only the key shares or the early data can have. -/
theorem clientHelloEntries_dataOf {type : ℕ} (options : Tls13ClientHelloOptions)
    (hconstant : dataOf type constantEntries = [])
    (hmodes : dataOf type [(extensionPskKeyExchangeModes, ([1, 1] : Bytes))] = [])
    (hname : extensionServerName ≠ type) (halpn : extensionAlpn ≠ type)
    (hpsk : extensionPreSharedKey ≠ type) :
    dataOf type (clientHelloEntries options) = dataOf type (keyShareEntries options.keyShares) ++
      dataOf type (earlyDataEntries options.offerEarlyData) := by
  simp only [clientHelloEntries, entriesBeforePsk, dataOf_append, hconstant, hmodes,
    (serverNameEntries_ofType _).dataOf_ne hname, (alpnEntries_ofType _).dataOf_ne halpn,
    (pskEntries_ofType _).dataOf_ne hpsk, List.append_nil, List.nil_append]

theorem clientHelloEntries_keyShare (options : Tls13ClientHelloOptions) :
    dataOf extensionKeyShare (clientHelloEntries options) =
      (keyShareEntries options.keyShares).map (·.2) := by
  rw [clientHelloEntries_dataOf options (by decide) (by decide) (by decide) (by decide) (by decide),
    (earlyDataEntries_ofType _).dataOf_ne (by decide), List.append_nil,
    (keyShareEntries_ofType _).dataOf_eq]

theorem clientHelloEntries_earlyData (options : Tls13ClientHelloOptions) :
    dataOf extensionEarlyData (clientHelloEntries options) =
      if options.offerEarlyData then [[]] else [] := by
  rw [clientHelloEntries_dataOf options (by decide) (by decide) (by decide) (by decide) (by decide),
    (keyShareEntries_ofType _).dataOf_ne (by decide), List.nil_append, earlyDataEntries]
  split
  · rfl
  · rfl

theorem clientHelloEntries_preSharedKey (options : Tls13ClientHelloOptions) :
    dataOf extensionPreSharedKey (clientHelloEntries options) =
      (pskEntries options.pskIdentities).map (·.2) := by
  have hbefore : dataOf extensionPreSharedKey (entriesBeforePsk options) = [] :=
    dataOf_eq_nil (entriesBeforePsk_forall (P := (· ≠ extensionPreSharedKey)) options (by decide)
      (by decide) (by decide) (by decide) (by decide) (by decide))
  rw [clientHelloEntries, dataOf_append, hbefore, List.nil_append, (pskEntries_ofType _).dataOf_eq]

theorem clientHelloEntries_cookie (options : Tls13ClientHelloOptions) :
    dataOf extensionCookie (clientHelloEntries options) = [] := by
  have hbefore : dataOf extensionCookie (entriesBeforePsk options) = [] :=
    dataOf_eq_nil (entriesBeforePsk_forall (P := (· ≠ extensionCookie)) options (by decide)
      (by decide) (by decide) (by decide) (by decide) (by decide))
  rw [clientHelloEntries, dataOf_append, hbefore, List.nil_append,
    (pskEntries_ofType _).dataOf_ne (by decide)]

/-! ## An offer with its binder -/

/-- The binder of a ClientHello that is encoded with one PSK. -/
structure BoundHello (K : KeyFunctions) (context : TlsContext) (ticket : Tls13SessionTicket)
    (earlier : Bytes) (hello hello' : Tls13ClientHelloOptions) (message : Bytes) : Prop where
  binder : ∃ binder, hello' = hello.withBinder binder ∧
    ∀ psk, hello.pskIdentities = [psk] → psk.binder.length = context.digestLength →
      binder = pskBinder K context.algorithm ticket.resumptionSecret
          (earlier ++ truncatedClientHello context.clientRandom hello') ∧
        binder.length = context.digestLength ∧
        message = truncatedClientHello context.clientRandom hello' ++
          pskBindersOctets [{ psk with binder }]

theorem encodeOffer_eq_ok {K : KeyFunctions} {context : TlsContext}
    {ticket : Option Tls13SessionTicket} {earlier message : Bytes}
    {hello hello' : Tls13ClientHelloOptions}
    (hrandom : context.clientRandom.length = tlsRandomLength)
    (h : encodeOffer K context ticket earlier hello = .ok (hello', message)) :
    encodeClientHello context.clientRandom hello' tlsScratchClientHelloLength = .ok message ∧
      (ticket = none → hello' = hello) ∧
      ∀ t ∈ ticket, BoundHello K context t earlier hello hello' message := by
  obtain ⟨placeholder, hplaceholder, h⟩ := bind_eq_ok h
  cases ticket with
  | none =>
    cases h
    exact ⟨hplaceholder, fun _ => rfl, nofun⟩
  | some ticket =>
    obtain ⟨binder, hbinder, h⟩ := bind_eq_ok h
    obtain ⟨encoded, hencoded, h⟩ := bind_eq_ok h
    cases h
    refine ⟨hencoded, nofun, ?_⟩
    rintro _ ⟨⟩
    refine ⟨binder, rfl, fun psk hpsk hlength => ?_⟩
    have hne : hello.pskIdentities ≠ [] := by
      rw [hpsk]
      exact List.cons_ne_nil _ _
    obtain ⟨n, hn, hbinder⟩ := bind_eq_ok hbinder
    rw [findPskBinderTranscriptLength_encoded hrandom hne hplaceholder] at hn
    cases hn
    rw [encodeClientHello_truncated hne hplaceholder, List.take_left] at hbinder
    have hbound := computePskBinder_eq_ok hbinder
    have hbinderLength : binder.length = context.digestLength := by
      rw [hbound]
      exact K.hmac_length _ _ _
    have hsame : truncatedClientHello context.clientRandom (hello.withBinder binder) =
        truncatedClientHello context.clientRandom hello := by
      refine truncatedClientHello_withBinder fun psk' hpsk' => ?_
      rw [hpsk, List.mem_singleton] at hpsk'
      rw [hpsk', hlength, hbinderLength]
    have hpsk' : (hello.withBinder binder).pskIdentities = [{ psk with binder }] := by
      rw [Tls13ClientHelloOptions.withBinder, hpsk]
      rfl
    refine ⟨hsame.symm ▸ hbound, hbinderLength, ?_⟩
    rw [← hpsk']
    exact encodeClientHello_truncated (by rw [hpsk']; exact List.cons_ne_nil _ _) hencoded

/-! ## Runs with a HelloRetryRequest -/

namespace TlsConnection

open Program

variable {E : Environment} {options : TlsClientConnectionOptions} {s s' : TlsConnection}

/-- How the second ClientHello of a connection is made. -/
structure Retries (E : Environment) (options : TlsClientConnectionOptions) (start : TlsConnection)
    (first retry second : Bytes) : Prop where
  stages : ∃ (random : { random : Bytes // random.length = tlsRandomLength })
    (offer retried : Tls13Offer) (view : Tls13ServerHelloView) (context : TlsContext),
    Offers E options (initialContext random.val) start.policyIdentity start.calls offer ∧
    first = offer.message ∧ serverHelloOf retry = some view ∧ view.isHelloRetryRequest = true ∧
    context.clientRandom = random.val ∧
    RetriedOffer E context retry view.retryGroup offer retried ∧ second = retried.message

theorem pskIdentityOf_binder_length (now : UInt64) (ticket : Tls13SessionTicket) :
    (pskIdentityOf now ticket).binder.length =
      hashDigestLength (hashForCipherSuite ticket.cipherSuite) := by
  rw [pskIdentityOf, List.length_replicate]
  cases ticket.cipherSuite <;> rfl

variable {m : List HandshakeEntry} {status : NTSTATUS} {offer : Tls13Offer}
    {view : Tls13ServerHelloView} {start : TlsConnection}

/-- The first ClientHello with its PSK. -/
theorem Offers.bound {context : TlsContext} {policyIdentity calls : ℕ}
    (h : Offers E options context policyIdentity calls offer)
    (hrandom : context.clientRandom.length = tlsRandomLength) :
    encodeClientHello context.clientRandom offer.hello tlsScratchClientHelloLength =
        .ok offer.message ∧
      (offer.selectedTicket = none → offer.hello.pskIdentities = []) ∧
      (∀ t ∈ offer.selectedTicket, ∃ psk : Tls13PskIdentity, offer.hello.pskIdentities = [psk] ∧
        psk.binder.length = hashDigestLength (hashForCipherSuite t.cipherSuite)) := by
  have hcontext : (ticketContext context offer.selectedTicket).clientRandom = context.clientRandom := by
    cases offer.selectedTicket with
    | none => rfl
    | some t => rfl
  obtain ⟨hencoded, hunbound, hbound⟩ := encodeOffer_eq_ok (hcontext ▸ hrandom) h.encoded
  rw [hcontext] at hencoded
  refine ⟨hencoded, fun hnone => ?_, fun t ht => ?_⟩
  · rw [hunbound hnone, helloOptions, hnone]
    rfl
  · have hticket : offer.selectedTicket = some t := ht
    have hpsk : (helloOptions options offer.keyPair (E.currentMilliseconds calls)
        offer.selectedTicket).pskIdentities = [pskIdentityOf (E.currentMilliseconds calls) t] := by
      rw [helloOptions, hticket]
      rfl
    have hdigest : (ticketContext context offer.selectedTicket).digestLength =
        hashDigestLength (hashForCipherSuite t.cipherSuite) := by
      rw [hticket]
      rfl
    obtain ⟨binder, hhello, hbinder⟩ := (hbound t ht).binder
    obtain ⟨-, hlength, -⟩ := hbinder _ hpsk (by rw [hdigest, pskIdentityOf_binder_length])
    refine ⟨{ pskIdentityOf (E.currentMilliseconds calls) t with binder }, ?_, ?_⟩
    · rw [hhello, Tls13ClientHelloOptions.withBinder, hpsk]
      rfl
    · rw [← hdigest]
      exact hlength

theorem Retries.retriedHello_iff {first retry second : Bytes}
    (h : Retries E options start first retry second) :
    ∃ ticket before view behind,
      selectTls13Ticket options start.policyIdentity (E.currentMilliseconds start.calls) =
        .ok ticket ∧
      clientHelloOf first = some before ∧ serverHelloOf retry = some view ∧
      clientHelloOf second = some behind ∧
      (RetriedHello E.keys ticket first retry second view before behind ↔
        cookieOf view = [] ∧ dataOf extensionEarlyData before.extensions = []) := by
  obtain ⟨random, offer, retried, view, context, hoffers, rfl, hview, -, hrandom, hretried, rfl⟩ :=
    h.stages
  have hlength : context.clientRandom.length = tlsRandomLength := hrandom ▸ random.property
  obtain ⟨hfirst, hnone, hsome⟩ := hoffers.bound random.property
  obtain ⟨hsecond, hunbound, hbound⟩ := encodeOffer_eq_ok hlength hretried.encoded
  have hbefore := clientHelloOf_encoded random.property hfirst
  have hbehind := clientHelloOf_encoded hlength hsecond
  rw [hrandom] at hbehind
  refine ⟨offer.selectedTicket, _, view, _, hoffers.ticket, hbefore, hview, hbehind, ?_⟩
  -- apart from its binder, the second ClientHello has the options of the first with another share
  have hsame : retried.hello.serverName = offer.hello.serverName ∧
      retried.hello.alpnProtocols = offer.hello.alpnProtocols ∧
      retried.hello.offerEarlyData = offer.hello.offerEarlyData ∧
      retried.hello.keyShares = [⟨view.retryGroup, retried.keyPair.publicKey⟩] := by
    cases hticket : offer.selectedTicket with
    | none =>
      rw [hunbound hticket]
      exact ⟨rfl, rfl, rfl, rfl⟩
    | some t =>
      obtain ⟨binder, hhello, -⟩ := (hbound t hticket).binder
      rw [hhello]
      exact ⟨rfl, rfl, rfl, rfl⟩
  obtain ⟨hserverName, halpn, hearly, hshares⟩ := hsame
  have hearlyData : ∀ hello : Tls13ClientHelloOptions,
      dataOf extensionEarlyData (encodedClientHello random.val hello).extensions = [] ↔
        hello.offerEarlyData = false := by
    intro hello
    rw [encodedClientHello, clientHelloEntries_earlyData]
    cases hello.offerEarlyData with
    | true => simp
    | false => simp
  constructor
  · intro hconforms
    have hcookie := hconforms.cookie
    have hno := (hearlyData _).1 hconforms.earlyData
    rw [encodedClientHello, clientHelloEntries_cookie] at hcookie
    exact ⟨hcookie.symm, (hearlyData _).2 (hearly ▸ hno)⟩
  · rintro ⟨hcookie, hno⟩
    refine ⟨rfl, ?_, ⟨retried.keyPair.publicKey, ?_⟩, ?_, ?_, fun hticket => ?_, fun t ht => ?_⟩
    · simp only [encodedClientHello, clientHelloEntries_kept, hserverName, halpn]
    · simp only [encodedClientHello, clientHelloEntries_keyShare, hshares]
    · exact (hearlyData _).2 (hearly.trans ((hearlyData _).1 hno))
    · rw [hcookie]
      exact clientHelloEntries_cookie _
    · simp only [encodedClientHello, clientHelloEntries_preSharedKey, hunbound hticket]
    · obtain ⟨psk, hpsk, hpskLength⟩ := hsome t ht
      obtain ⟨binder, hhello, hbinder⟩ := (hbound t ht).binder
      have hticket : offer.selectedTicket = some t := ht
      have hsuite : t.cipherSuite = context.cipherSuite := by
        have hall := hretried.suite
        rw [hticket] at hall
        simpa using hall
      have halgorithm : context.algorithm = hashForCipherSuite t.cipherSuite := by
        rw [hsuite]
        rfl
      obtain ⟨hbinder, -, hmessage⟩ := hbinder psk hpsk
        (by rw [hpskLength, hsuite]; rfl)
      refine ⟨psk, binder, _, ?_, ?_, hmessage, ?_⟩
      · simp only [encodedClientHello, clientHelloEntries_preSharedKey, hpsk]
      · simp only [encodedClientHello, clientHelloEntries_preSharedKey, hhello,
          Tls13ClientHelloOptions.withBinder, hpsk, List.map_cons, List.map_nil]
      · rw [halgorithm] at hbinder
        exact hbinder

/-! ## The messages of all runs -/

def messages (s : TlsConnection) : List HandshakeEntry := s.history.messages

theorem messages_ignoresReading : IgnoresReading messages := fun _ _ _ _ _ _ _ _ _ => rfl

/-- The program says and hears nothing. -/
abbrev KeepsMessages {α : Type} (p : TlsProgram α) : Prop := Makes messages (fun _ _ => False) p

theorem KeepsMessages.ok {α : Type} {p : TlsProgram α} (hp : KeepsMessages p) {a : α}
    (h : p s = .ok a s') : s'.messages = s.messages := eq_of_noStep ((hp s).ok h)

theorem KeepsMessages.error {α : Type} {p : TlsProgram α} (hp : KeepsMessages p)
    (h : p s = .error status s') : s'.messages = s.messages :=
  eq_of_noStep ((hp s).error h)

section

open Makes

variable (E options)

theorem initializeTls13_keepsMessages : KeepsMessages (initializeTls13 E options) :=
  .bind (modify_aside fun _ => rfl) fun _ => .bind ofFailure_makes fun _ => modify_aside fun _ => rfl

theorem selectTicket_keepsMessages : KeepsMessages (selectTicket E options) :=
  .read fun _ => .bind (ofExcept _) fun _ => .bind (modify_aside fun _ => rfl) fun _ => .pure _

theorem withContext_keepsMessages (f : TlsContext → Except NTSTATUS TlsContext) :
    KeepsMessages (withContext f) :=
  get_bind fun _ => ofExcept_bind fun _ _ => EndsAt.set .refl

theorem configureEarlyData_keepsMessages (resumptionSecret : Bytes) :
    KeepsMessages (configureEarlyData E resumptionSecret) :=
  .bind (finishTranscript_makes E) fun _ => .bind (withContext_keepsMessages _) fun _ =>
    .bind (withContext_keepsMessages _) fun _ => get_bind fun _ => ofExcept_bind fun _ _ =>
      EndsAt.set .refl

theorem sendProtectedRecord13_keepsMessages (contentType : TlsContentType) (fragment : Bytes) :
    KeepsMessages (sendProtectedRecord13 E contentType fragment) := by
  refine .read fun s => fun t => ?_
  rcases sendRecord_cases E .aesGcm13
    { contentType, fragment, tls13PaddingLength := s.recordPaddingLength } t with
    ⟨status, h⟩ | ⟨-, h⟩
  · exact of_eq (h : _ = (MonadExcept.throw status : TlsProgram Unit) _) .refl (.throw _)
  · exact of_eq h .refl (sendAll_makes messages_ignoresReading E)

theorem sendEarlyFrom_keepsMessages (fuel : ℕ) :
    ∀ data : Bytes, KeepsMessages (sendEarlyFrom E fuel data) := by
  induction fuel with
  | zero =>
    rintro (_ | ⟨c, data⟩)
    · exact .pure ()
    · exact .throw _
  | succ fuel ih =>
    rintro (_ | ⟨c, data⟩)
    · exact .pure ()
    rw [sendEarlyFrom.eq_3 _ _ _ (List.cons_ne_nil _ _)]
    exact .read fun s => .bind (sendProtectedRecord13_keepsMessages E _ _) fun _ => ih _

theorem sendEarlyData_keepsMessages (offer : Tls13Offer) :
    KeepsMessages (sendEarlyData E options offer) :=
  when (.bind (configureEarlyData_keepsMessages E _) fun _ => sendEarlyFrom_keepsMessages E _ _)

end

theorem offerHello_error (h : offerHello E options s = .error status s') :
    s'.messages = s.messages ∨ ∃ octets, s'.messages = s.messages ++ [clientEntry octets] := by
  obtain h | ⟨keyPair, t, ht, h⟩ := bind_eq_error h
  · exact .inl (KeepsMessages.error ofFailure_makes h)
  have hst := KeepsMessages.ok ofFailure_makes ht
  obtain h | ⟨ticket, u, hu, h⟩ := bind_eq_error h
  · exact .inl (((selectTicket_keepsMessages E options).error h).trans hst)
  have hsu := ((selectTicket_keepsMessages E options).ok hu).trans hst
  obtain h | ⟨_, _, hget, h⟩ := bind_eq_error h
  · cases h
  cases hget
  obtain h | ⟨⟨hello, message⟩, v, hv, h⟩ := bind_eq_error h
  · exact .inl ((KeepsMessages.error (Makes.ofExcept _) h).trans hsu)
  obtain ⟨-, rfl⟩ := ofExcept_eq_ok hv
  obtain h | ⟨_, _, -, h⟩ := bind_eq_error h
  · refine .inr ⟨message, ?_⟩
    rw [← hsu]
    obtain hsaid | hsaid := (sendClientHello_said E message _).error h
    · exact congrArg Dialogue.messages hsaid
    · exact congrArg Dialogue.messages hsaid
  · cases h

theorem retryHello_error {retryGroup : TlsNamedGroup}
    (h : retryHello E offer retryGroup s = .error status s') : s'.messages = s.messages ∨
      ∃ retried, RetriedOffer E s.context s.lastHandshake retryGroup offer retried ∧
        s'.messages = s.messages ++ [clientEntry retried.message] := by
  obtain h | ⟨_, _, hget, h⟩ := bind_eq_error h
  · cases h
  cases hget
  obtain h | ⟨_, t, ht, h⟩ := bind_eq_error h
  · exact .inl (KeepsMessages.error (Makes.require _) h)
  obtain ⟨-, rfl⟩ := require_eq_ok ht
  obtain h | ⟨_, t, ht, h⟩ := bind_eq_error h
  · exact .inl (KeepsMessages.error (Makes.require _) h)
  obtain ⟨-, rfl⟩ := require_eq_ok ht
  obtain h | ⟨keyPair, t, ht, h⟩ := bind_eq_error h
  · exact .inl (KeepsMessages.error ofFailure_makes h)
  obtain ⟨hkeyPair, rfl⟩ := ofFailure_eq_ok ht
  obtain h | ⟨_, t, ht, h⟩ := bind_eq_error h
  · exact .inl (KeepsMessages.error (Makes.require _) h)
  obtain ⟨hsuite, rfl⟩ := require_eq_ok ht
  obtain h | ⟨⟨hello, message⟩, t, ht, h⟩ := bind_eq_error h
  · exact .inl (KeepsMessages.error (Makes.ofExcept _) h)
  obtain ⟨hencoded, rfl⟩ := ofExcept_eq_ok ht
  obtain h | ⟨_, _, -, h⟩ := bind_eq_error h
  · refine .inr ⟨⟨keyPair, hello, offer.selectedTicket, message⟩,
      ⟨hkeyPair, rfl, hsuite, hencoded⟩, ?_⟩
    obtain hsaid | hsaid := (sendClientHello_said E message s).error h
    · exact congrArg Dialogue.messages hsaid
    · exact congrArg Dialogue.messages hsaid
  · cases h

theorem readServerHello_error {retried : Bool}
    (h : readServerHello E offer retried s = .error status s') :
    s'.messages = s.messages ∨ ∃ entry, s'.messages = s.messages ++ [entry] := by
  obtain h | ⟨message, t, ht, h⟩ := bind_eq_error h
  · exact .inl (congrArg Dialogue.messages (readHandshakeMessage_silent h))
  obtain ⟨-, entry, -, -, hdialogue⟩ := readHandshakeMessage_heard ht
  have hrest : KeepsMessages (do
      let serverHello ← ofExcept (parseServerHello message)
      modify fun s => { s with context := s.context.setCipherSuite serverHello.cipherSuite }
      ofExcept (validateServerHelloOffer serverHello offer.hello)
      require (¬ (retried ∧ serverHello.isHelloRetryRequest)) statusInvalidNetworkResponse
      let s ← get
      ofExcept (validateSelectedPskForConnection s.context serverHello offer)
      return serverHello : TlsProgram Tls13ServerHelloView) :=
    Makes.bind (Makes.ofExcept _) fun _ => Makes.bind (Makes.modify_aside fun _ => rfl) fun _ =>
      Makes.bind (Makes.ofExcept _) fun _ => Makes.bind (Makes.require _) fun _ =>
        Makes.read fun _ => Makes.bind (Makes.ofExcept _) fun _ => Makes.pure _
  refine .inr ⟨entry, (hrest.error h).trans ?_⟩
  exact congrArg Dialogue.messages hdialogue

/-- The messages begin with a ClientHello and its answer; behind a HelloRetryRequest there is
the second ClientHello. -/
inductive Answered (E : Environment) (options : TlsClientConnectionOptions)
    (start : TlsConnection) : List HandshakeEntry → Prop
  | direct {first answer : HandshakeEntry} {more : List HandshakeEntry}
      (h : isHelloRetryRequest answer.octets = false) :
      Answered E options start (first :: answer :: more)
  | retried {first retry second : HandshakeEntry} {more : List HandshakeEntry}
      (h : Retries E options start first.octets retry.octets second.octets) :
      Answered E options start (first :: retry :: second :: more)

theorem Answered.of_longer {m' : List HandshakeEntry}
    (h : Answered E options start m) (hm : m <+: m') : Answered E options start m' := by
  obtain ⟨more, rfl⟩ := hm
  cases h with
  | direct h => exact .direct h
  | retried h => exact .retried h

/-- The first ClientHello has gone out. -/
structure Offered (E : Environment) (options : TlsClientConnectionOptions)
    (start s : TlsConnection) (offer : Tls13Offer) : Prop where
  offers : ∃ random : { random : Bytes // random.length = tlsRandomLength },
    Offers E options (initialContext random.val) start.policyIdentity start.calls offer ∧
    s.context.clientRandom = random.val
  messages : s.messages = [clientEntry offer.message]

theorem Offered.retries {retried : Tls13Offer} {t : TlsConnection}
    (h : Offered E options start s offer)
    (hfirst : HeardHello offer false view s t) (hretry : view.isHelloRetryRequest = true)
    (hoffer : RetriedOffer E t.context t.lastHandshake view.retryGroup offer retried)
    (hm : t.messages ++ [clientEntry retried.message] <+: m) :
    Answered E options start m := by
  obtain ⟨random, hoffers, hrandom⟩ := h.offers
  obtain ⟨entry, -, hoctets, hmessages⟩ := hfirst.messages
  have hst : t.messages = s.messages ++ [entry] := hmessages
  have hcontext : t.context.clientRandom = random.val := by
    rw [hfirst.context.1]
    exact hrandom
  have hview := hfirst.hello
  rw [← hoctets] at hview hoffer
  have hretries : Retries E options start (clientEntry offer.message).octets entry.octets
      (clientEntry retried.message).octets :=
    ⟨random, offer, retried, view, t.context, hoffers, rfl, hview, hretry, hcontext, hoffer, rfl⟩
  rw [hst, h.messages] at hm
  have hanswered : Answered E options start [clientEntry offer.message, entry,
      clientEntry retried.message] := .retried hretries
  exact hanswered.of_longer hm

theorem exchangeHellos_answered {agreement : Tls13Agreement} (hs : Offered E options start s offer)
    (h : exchangeHellos E offer s = .ok agreement s') : Answered E options start s'.messages := by
  cases exchangeHellos_ok h with
  | direct hheard hretry =>
    obtain ⟨entry, -, hoctets, hmessages⟩ := hheard.messages
    have hst : s'.messages = s.messages ++ [entry] := hmessages
    rw [hst, hs.messages]
    refine .direct ?_
    rw [isHelloRetryRequest, hoctets, hheard.hello]
    exact hretry
  | @retried t u _ _ retried hfirst hretry hoffer hsaid hheard =>
    obtain ⟨entry, -, -, hmessages⟩ := hheard.messages
    have hu : u.messages = t.messages ++ [clientEntry retried.message] :=
      congrArg Dialogue.messages hsaid
    have hst : s'.messages = u.messages ++ [entry] := hmessages
    refine hs.retries hfirst hretry hoffer ?_
    rw [hst, hu]
    exact List.prefix_append _ _

theorem exchangeHellos_error
    (hs : Offered E options start s offer) (h : exchangeHellos E offer s = .error status s') :
    s'.messages.length ≤ 2 ∨ Answered E options start s'.messages := by
  obtain h | ⟨first, t, ht, h⟩ := bind_eq_error h
  · left
    obtain hsame | ⟨entry, hmore⟩ := readServerHello_error h
    · rw [hsame, hs.messages]
      exact Nat.le_succ 1
    · rw [hmore, hs.messages]
      exact le_rfl
  have hfirst := readServerHello_ok ht
  obtain ⟨entry, -, -, hmessages⟩ := hfirst.messages
  have hst : t.messages = s.messages ++ [entry] := hmessages
  cases hretry : first.isHelloRetryRequest with
  | false =>
    rw [if_neg (by rw [hretry]; exact Bool.false_ne_true)] at h
    cases h
  | true =>
    rw [if_pos hretry] at h
    obtain h | ⟨_, _, hget, h⟩ := bind_eq_error h
    · cases h
    cases hget
    obtain h | ⟨retried, u, hu, h⟩ := bind_eq_error h
    · obtain hsame | ⟨retried, hoffer, hmore⟩ := retryHello_error h
      · left
        rw [hsame, hst, hs.messages]
        exact le_rfl
      · right
        exact hs.retries hfirst hretry hoffer (by rw [hmore])
    · right
      obtain ⟨hoffer, hsaid⟩ := retryHello_ok hu
      have hut : u.messages = t.messages ++ [clientEntry retried.message] :=
        congrArg Dialogue.messages hsaid
      refine hs.retries hfirst hretry hoffer ?_
      obtain h | ⟨_, _, -, h⟩ := bind_eq_error h
      · obtain hsame | ⟨entry, hmore⟩ := readServerHello_error h
        · rw [hsame, hut]
        · rw [hmore, hut]
          exact List.prefix_append _ _
      · cases h

theorem negotiate_messages (E : Environment) (options : TlsClientConnectionOptions)
    (hs : start.messages = []) :
    (∀ agreement s', negotiate E options start = .ok agreement s' →
      Answered E options start s'.messages) ∧
    ∀ status s', negotiate E options start = .error status s' →
      s'.messages.length ≤ 2 ∨ Answered E options start s'.messages := by
  have hoffered : ∀ {t u v : TlsConnection} {offer : Tls13Offer},
      initializeTls13 E options start = .ok () t → offerHello E options t = .ok offer u →
      sendEarlyData E options offer u = .ok () v → Offered E options start v offer := by
    intro t u v offer ht hu hv
    obtain ⟨random, -, hcalls, hinitial⟩ := initializeTls13_ok ht
    obtain ⟨hoffers, hsaid⟩ := offerHello_ok hu
    have hearly := (sendEarlyData_ok hv).keepsHandshake
    have hcontext : t.context = initialContext random.val := congrArg Dialogue.context hinitial
    have hpolicy : t.policyIdentity = start.policyIdentity :=
      congrArg Dialogue.policyIdentity hinitial
    rw [hcontext, hpolicy, hcalls] at hoffers
    refine ⟨⟨random, hoffers, ?_⟩, ?_⟩
    · refine (congrArg TlsContext.clientRandom hearly.context).trans ?_
      rw [hsaid, hcontext]
      cases offer.selectedTicket with
      | none => rfl
      | some ticket => rfl
    · have hut : u.messages = t.messages ++ [clientEntry offer.message] :=
        congrArg Dialogue.messages hsaid
      rw [(initializeTls13_keepsMessages E options).ok ht, hs, List.nil_append] at hut
      exact hearly.messages.trans hut
  constructor
  · intro agreement s' h
    obtain ⟨_, t, ht, h⟩ := bind_eq_ok h
    obtain ⟨offer, u, hu, h⟩ := bind_eq_ok h
    obtain ⟨_, v, hv, h⟩ := bind_eq_ok h
    exact exchangeHellos_answered (hoffered ht hu hv) h
  · intro status s' h
    obtain h | ⟨_, t, ht, h⟩ := bind_eq_error h
    · left
      rw [(initializeTls13_keepsMessages E options).error h, hs]
      exact Nat.zero_le _
    have hst := (initializeTls13_keepsMessages E options).ok ht
    rw [hs] at hst
    obtain h | ⟨offer, u, hu, h⟩ := bind_eq_error h
    · left
      obtain hsame | ⟨octets, hmore⟩ := offerHello_error h
      · rw [hsame, hst]
        exact Nat.zero_le _
      · rw [hmore, hst]
        exact Nat.le_succ 1
    have hut : u.messages = t.messages ++ [clientEntry offer.message] :=
      congrArg Dialogue.messages (offerHello_ok hu).2
    rw [hst, List.nil_append] at hut
    obtain h | ⟨_, v, hv, h⟩ := bind_eq_error h
    · left
      rw [(sendEarlyData_keepsMessages E options offer).error h, hut]
      exact Nat.le_succ 1
    · exact exchangeHellos_error (hoffered ht hu hv) h

/-! ## `ConnectTls13` behind a HelloRetryRequest -/

def afterHellos (E : Environment) (options : TlsClientConnectionOptions)
    (agreement : Tls13Agreement) : TlsProgram Unit := do
  deriveHandshakeKeys E agreement
  finishHandshake E options agreement
  configureApplicationStates E

/-- It only adds messages. -/
theorem afterHellos_prefix (E : Environment) (options : TlsClientConnectionOptions)
    (agreement : Tls13Agreement) (t : TlsConnection) :
    t.messages <+: (after (afterHellos E options agreement) t).messages := by
  have hsteps := after_makes (Makes.bind (deriveHandshakeKeys_makes E agreement) fun _ =>
    Makes.bind (finishHandshake_makes E options agreement) fun _ =>
      configureApplicationStates_makes E) t
  have hstep : ∀ c d : Core, HandshakeStep E c d → t.messages <+: c.messages →
      t.messages <+: d.messages := fun _ _ hstep hprefix => hprefix.trans hstep.messages_prefix
  exact invariant_of_steps hstep hsteps List.prefix_rfl

theorem connectTls13_answered (E : Environment) (options : TlsClientConnectionOptions)
    (hs : start.messages = []) :
    (after (connectTls13 E options) start).messages.length ≤ 2 ∨
      Answered E options start (after (connectTls13 E options) start).messages := by
  obtain ⟨hok, herror⟩ := negotiate_messages E options hs
  cases hnegotiate : negotiate E options start with
  | error status t =>
    rw [after, connectTls13, bind_of_error hnegotiate]
    exact herror _ _ hnegotiate
  | ok agreement t =>
    have hafter : after (connectTls13 E options) start =
        after (afterHellos E options agreement) t := by
      rw [after, connectTls13, bind_of_ok hnegotiate]
      rfl
    rw [hafter]
    exact .inr ((hok _ _ hnegotiate).of_longer ( afterHellos_prefix E options agreement t))

/-- The suite of the ServerHello with which a server goes on behind a HelloRetryRequest: the second
of its messages. -/
def retriedSuite (flight : List Bytes) : Option TlsCipherSuite :=
  (flight[1]?.bind serverHelloOf).map (·.cipherSuite)

theorem connectTls13_retryGroup (hs : start.messages = [])
    {first retry : HandshakeEntry} {more : List HandshakeEntry}
    {x : Unit} (h : connectTls13 E options start = .ok x s')
    (hmessages : s'.messages = first :: retry :: more)
    (hview : serverHelloOf retry.octets = some view) (hretry : view.isHelloRetryRequest = true) :
    ∃ last, serverHelloIn s'.messages = some last ∧ last.keyShare.group = view.retryGroup ∧
      ∀ flight, s'.serverMessages <+: flight → retriedSuite flight = some last.cipherSuite := by
  obtain ⟨agreement, t, ht, h⟩ := bind_eq_ok h
  obtain ⟨hellos, hsaid, hellosMessages⟩ := (negotiate_ok ht).messages
  have hst : t.messages = hellos := by
    rw [← List.nil_append hellos, ← hs]
    exact hellosMessages
  obtain ⟨rest, hrest⟩ : t.messages <+: s'.messages := by
    have hprefix := afterHellos_prefix E options agreement t
    have hs' : after (afterHellos E options agreement) t = s' := after_of_ok h
    rwa [hs'] at hprefix
  rw [hst] at hrest
  refine ⟨agreement.serverHello, by rw [← hrest]; exact hsaid.serverHelloIn_append rest, ?_⟩
  have hserver : s'.serverMessages = octetsOf ((hellos ++ rest).filter (·.sender = .server)) :=
    congrArg (fun messages : List HandshakeEntry =>
      octetsOf (messages.filter (·.sender = .server))) hrest.symm
  rw [hmessages] at hrest
  cases hsaid with
  | @direct offer view' entry hkeyPair hsender hoctets hview' hlast =>
    obtain ⟨-, hrest⟩ := List.cons.inj hrest
    obtain ⟨rfl, -⟩ := List.cons.inj hrest
    rw [← hoctets, hview] at hview'
    cases hview'
    rw [hretry] at hlast
    cases hlast
  | @retried clientHello offer retryView last retry' entry hsender hretryView _ _ hsender' hoctets
      hlast _ hgroup =>
    obtain ⟨-, hrest⟩ := List.cons.inj hrest
    obtain ⟨rfl, -⟩ := List.cons.inj hrest
    rw [hview] at hretryView
    cases hretryView
    refine ⟨hgroup, fun flight hflight => ?_⟩
    obtain ⟨more, rfl⟩ := hflight
    have hsecond : (s'.serverMessages ++ more)[1]? = some entry.octets := by
      rw [hserver]
      simp [octetsOf, clientEntry, hsender, hsender']
    rw [retriedSuite, hsecond, Option.bind_some, hoctets, hlast, Option.map_some]

/-- A handshake has gone on behind a HelloRetryRequest: the second ClientHello is as it should
be, and where the handshake succeeds, the ServerHello has the suite of the HelloRetryRequest
and a share of its group. -/
structure RetryHandled (E : Environment) (options : TlsClientConnectionOptions)
    (start : TlsConnection) (ticket : Option Tls13SessionTicket) (first retry second : Bytes)
    (view : Tls13ServerHelloView) (before behind : ClientHelloView) : Prop where
  hello : RetriedHello E.keys ticket first retry second view before behind
  answer : returns (connectTls13 E options) start = true →
    ∃ last, serverHelloIn (after (connectTls13 E options) start).messages = some last ∧
      last.cipherSuite = view.cipherSuite ∧ last.keyShare.group = view.retryGroup

/-- In every run, whatever comes behind the HelloRetryRequest and wherever the run ends; `flight` is
any list of messages with which the server has answered. -/
theorem connectTls13_retries_iff (start : TlsConnection) (flight : List Bytes)
    {first retry second : HandshakeEntry} {more : List HandshakeEntry}
    (hmessages : (after (connectTls13 E options) (prepared options start)).messages =
      first :: retry :: second :: more)
    (hretry : isHelloRetryRequest retry.octets = true)
    (hflight : (after (connectTls13 E options) (prepared options start)).serverMessages <+:
      flight) :
    ∃ ticket before view behind,
      selectTls13Ticket options (policyIdentityOf options.policy)
        (E.currentMilliseconds start.calls) = .ok ticket ∧
      clientHelloOf first.octets = some before ∧ serverHelloOf retry.octets = some view ∧
      clientHelloOf second.octets = some behind ∧
      (returns (connectTls13 E options) (prepared options start) = true →
        (RetryHandled E options (prepared options start) ticket first.octets retry.octets
            second.octets view before behind ↔
          cookieOf view = [] ∧ dataOf extensionEarlyData before.extensions = [] ∧
            retriedSuite flight = some view.cipherSuite)) ∧
      (returns (connectTls13 E options) (prepared options start) = false →
        (RetryHandled E options (prepared options start) ticket first.octets retry.octets
            second.octets view before behind ↔
          cookieOf view = [] ∧ dataOf extensionEarlyData before.extensions = [])) := by
  have hretries : Retries E options (prepared options start) first.octets retry.octets
      second.octets := by
    have hstart : (prepared options start).messages = [] := rfl
    obtain hlength | hanswered := connectTls13_answered E options hstart
    · rw [hmessages] at hlength
      simp only [List.length_cons] at hlength
      omega
    · rw [hmessages] at hanswered
      cases hanswered with
      | direct hdirect =>
        rw [hretry] at hdirect
        cases hdirect
      | retried hretries => exact hretries
  obtain ⟨ticket, before, view, behind, hticket, hbefore, hview, hbehind, hiff⟩ :=
    hretries.retriedHello_iff
  have hretryView : view.isHelloRetryRequest = true := by
    rw [isHelloRetryRequest, hview] at hretry
    exact hretry
  refine ⟨ticket, before, view, behind, hticket, hbefore, hview, hbehind, fun hreturns => ?_,
    fun hfails => ?_⟩
  · obtain ⟨last, hlast, hgroup, hselects⟩ :=
      connectTls13_retryGroup rfl (eq_ok_of_returns hreturns) hmessages hview hretryView
    have hsuite : retriedSuite flight = some last.cipherSuite := hselects flight hflight
    constructor
    · rintro ⟨hhello, hanswer⟩
      obtain ⟨hcookie, hearly⟩ := hiff.1 hhello
      obtain ⟨last', hlast', hsame, -⟩ := hanswer hreturns
      cases hlast.symm.trans hlast'
      exact ⟨hcookie, hearly, hsuite.trans (congrArg some hsame)⟩
    · rintro ⟨hcookie, hearly, hselected⟩
      have hsame : last.cipherSuite = view.cipherSuite :=
        Option.some.inj (hsuite.symm.trans hselected)
      exact ⟨hiff.2 ⟨hcookie, hearly⟩, fun _ => ⟨last, hlast, hsame, hgroup⟩⟩
  · constructor
    · rintro ⟨hhello, -⟩
      exact hiff.1 hhello
    · intro hnone
      refine ⟨hiff.2 hnone, fun hreturns => ?_⟩
      rw [hfails] at hreturns
      cases hreturns

/-! ## A HelloRetryRequest with a cookie -/

/-- A HelloRetryRequest for secp256r1, with a cookie. -/
def plainRetry : Bytes :=
  let extensions := extensionOctets extensionSupportedVersions [3, 4] ++
    extensionOctets extensionKeyShare [0, 23] ++ extensionOctets extensionCookie [0, 1, 9]
  handshakeMessage .serverHello ([3, 3] ++ helloRetryRequestRandom ++ [0, 0x13, 1, 0] ++
    BigEndian.bigEndian 2 extensions.length ++ extensions)

def retryingServer : TlsConnection where
  incoming := [.octets (plaintextRecord 22 plainRetry)]

def retriedMessages : List HandshakeEntry :=
  (after (connectTls13 plainEnvironment plainOptions) (prepared plainOptions retryingServer)).messages

example : isHelloRetryRequest plainRetry = true := by decide +kernel

/-- A ServerHello for secp256r1 that selects a suite, given by its second octet. -/
def retriedServerHello (suite : UInt8) : Bytes :=
  let extensions := extensionOctets extensionSupportedVersions [3, 4] ++
    extensionOctets extensionKeyShare [0, 23, 0, 2, 5, 6]
  handshakeMessage .serverHello ([3, 3] ++ List.replicate 32 1 ++ [0, 0x13, suite, 0] ++
    BigEndian.bigEndian 2 extensions.length ++ extensions)

/-- The handshake goes on behind the HelloRetryRequest. -/
def retriedServer (suite : UInt8) : TlsConnection where
  incoming :=
    let hello := retriedServerHello suite
    let hellos := messageHash summingKeys .sha256 (plainClientHello plainOptions) ++ plainRetry ++
      (retriedMessages.getD 2 (clientEntry [])).octets ++ hello
    [.octets (plaintextRecord 22 plainRetry ++ plaintextRecord 22 hello ++
      plainTls13Record 22 (plainFlight ++ plainFinished [] hellos plainFlight))]

def retriedConnection : TlsConnection :=
  after (connectTls13 plainEnvironment plainOptions) (prepared plainOptions (retriedServer 1))

-- The suite of the HelloRetryRequest is not asked for.
example : returns (connectTls13 plainEnvironment plainOptions)
    (prepared plainOptions (retriedServer 3)) = true := by decide +kernel

theorem retriedServer_checked :
    returns (connectTls13 plainEnvironment plainOptions)
      (prepared plainOptions (retriedServer 1)) = true ∧
    retriedConnection.messages = retriedConnection.messages.getD 0 (clientEntry []) ::
      retriedConnection.messages.getD 1 (clientEntry []) ::
      retriedConnection.messages.getD 2 (clientEntry []) :: retriedConnection.messages.drop 3 ∧
    isHelloRetryRequest (retriedConnection.messages.getD 1 (clientEntry [])).octets = true := by
  refine ⟨?_, ?_, ?_⟩
  all_goals decide +kernel

/-- A handshake that succeeds behind the HelloRetryRequest. -/
theorem connectTls13_retries_iff_retried :
    ∃ ticket before view behind,
      selectTls13Ticket plainOptions (policyIdentityOf plainOptions.policy)
        (plainEnvironment.currentMilliseconds (retriedServer 1).calls) = .ok ticket ∧
      clientHelloOf (retriedConnection.messages.getD 0 (clientEntry [])).octets = some before ∧
      serverHelloOf (retriedConnection.messages.getD 1 (clientEntry [])).octets = some view ∧
      clientHelloOf (retriedConnection.messages.getD 2 (clientEntry [])).octets = some behind ∧
      (RetryHandled plainEnvironment plainOptions (prepared plainOptions (retriedServer 1)) ticket
          (retriedConnection.messages.getD 0 (clientEntry [])).octets
          (retriedConnection.messages.getD 1 (clientEntry [])).octets
          (retriedConnection.messages.getD 2 (clientEntry [])).octets view before behind ↔
        cookieOf view = [] ∧ dataOf extensionEarlyData before.extensions = [] ∧
          retriedSuite retriedConnection.serverMessages = some view.cipherSuite) := by
  obtain ⟨hreturns, hmessages, hretry⟩ := retriedServer_checked
  obtain ⟨ticket, before, view, behind, hticket, hbefore, hview, hbehind, hiff, -⟩ :=
    connectTls13_retries_iff (retriedServer 1) _ hmessages hretry List.prefix_rfl
  exact ⟨ticket, before, view, behind, hticket, hbefore, hview, hbehind, hiff hreturns⟩

/-- The second ClientHello goes out, and has no cookie. -/
theorem retryingServer_diverges :
    isHelloRetryRequest (retriedMessages.getD 1 (clientEntry [])).octets = true ∧
    ∀ ticket before view behind,
      clientHelloOf (retriedMessages.getD 0 (clientEntry [])).octets = some before →
      serverHelloOf (retriedMessages.getD 1 (clientEntry [])).octets = some view →
      clientHelloOf (retriedMessages.getD 2 (clientEntry [])).octets = some behind →
      ¬ RetryHandled plainEnvironment plainOptions (prepared plainOptions retryingServer) ticket
        (retriedMessages.getD 0 (clientEntry [])).octets
        (retriedMessages.getD 1 (clientEntry [])).octets
        (retriedMessages.getD 2 (clientEntry [])).octets view before behind := by
  refine ⟨by decide +kernel, fun ticket before view behind _ hview hbehind hhandled => ?_⟩
  have hasked : (serverHelloOf (retriedMessages.getD 1 (clientEntry [])).octets).map cookieOf =
      some [[0, 1, 9]] := by decide +kernel
  have hechoed : (clientHelloOf (retriedMessages.getD 2 (clientEntry [])).octets).map
      (fun view => dataOf extensionCookie view.extensions) = some [] := by decide +kernel
  rw [hview] at hasked
  rw [hbehind] at hechoed
  have hcookie := hhandled.hello.cookie
  have hnone : dataOf extensionCookie behind.extensions = [] := Option.some.inj hechoed
  rw [Option.some.inj hasked, hnone] at hcookie
  cases hcookie

end TlsConnection

end KernelHttp.Tls
