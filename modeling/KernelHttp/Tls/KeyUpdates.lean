/-
  The key updates of an established connection (RFC 8446, sections 4.6.3 and 7.2).

  The server's secret is updated for the first KeyUpdate of a record only.
-/
import KernelHttp.Tls.Secrets

namespace KernelHttp.Tls

open Program Relation

/-! ## KeyUpdate -/

/-- The application secret that follows another one (section 7.2). -/
def KeyFunctions.trafficUpdate (K : KeyFunctions) (algorithm : HashAlgorithm) (secret : Bytes) :
    Bytes :=
  K.expandLabel algorithm secret (text "traffic upd") [] (hashDigestLength algorithm)

/-- The first messages of a post-handshake record. -/
def messagesOf : ℕ → Bytes → List TlsHandshakeMessageView
  | 0, _ => []
  | messages + 1, fragment =>
    match parseMessage fragment with
    | .error _ => []
    | .ok message => message :: messagesOf messages (fragment.drop message.bytesConsumed)

@[simp] theorem messagesOf_nil (messages : ℕ) : messagesOf messages [] = [] := by
  cases messages with
  | zero => rfl
  | succ messages =>
    have hparse : parseMessage [] = .error statusMoreProcessingRequired := rfl
    rw [messagesOf, hparse]

/-- A message that asks for nothing but a new key, or brings a ticket. -/
def TlsHandshakeMessageView.TicketOrUpdate (message : TlsHandshakeMessageView) : Prop :=
  message.type = .newSessionTicket ∨ message.type = .keyUpdate

/-- The request of a KeyUpdate. -/
def TlsHandshakeMessageView.keyUpdate (message : TlsHandshakeMessageView) :
    Option Tls13KeyUpdateRequest :=
  if message.type = .keyUpdate then (parseKeyUpdate message).toOption else none

def postHandshakeMessages (fragment : Bytes) : List TlsHandshakeMessageView :=
  messagesOf tlsMaxPostHandshakeMessagesPerRecord fragment

/-- The KeyUpdates of a record. -/
def keyUpdatesIn (fragment : Bytes) : List Tls13KeyUpdateRequest :=
  (postHandshakeMessages fragment).filterMap (·.keyUpdate)

/-! ## The keys of the two directions -/

/-- The keys of a connection and the records that it has sent; `context` is without its
tickets. -/
structure Lanes where
  context : TlsContext
  clientWriteState : TlsAeadCipherState
  tls13RecordProtection : Bool
  recordPaddingLength : ℕ
  peerRequestedKeyUpdate : Bool
  sent : List SentRecord

def TlsConnection.lanes (s : TlsConnection) : Lanes where
  context := { s.context with sessionCache := [] }
  clientWriteState := s.clientWriteState
  tls13RecordProtection := s.tls13RecordProtection
  recordPaddingLength := s.recordPaddingLength
  peerRequestedKeyUpdate := s.peerRequestedKeyUpdate
  sent := s.history.sent

theorem TlsConnection.lanes_ignoresReading : IgnoresReading TlsConnection.lanes :=
  fun _ _ _ _ _ _ _ _ _ => rfl

/-- The secrets of a context with the next one of a direction. -/
def TlsContext.updated (context : TlsContext) (K : KeyFunctions) (client : Bool) : TlsContext :=
  context.withApplicationTrafficSecret client
    (K.trafficUpdate context.algorithm (context.applicationTrafficSecret client))

/-- The length of the secrets is that of the hash. -/
def TlsContext.FullSecrets (context : TlsContext) : Prop :=
  context.secrets.secretLength = context.digestLength

namespace Lanes

variable (l : Lanes)

/-- A protected record. -/
def wrote (contentType : TlsContentType) (fragment : Bytes) : Lanes :=
  { l with
    clientWriteState := l.clientWriteState.next
    sent := l.sent ++ [⟨contentType, fragment, some l.clientWriteState⟩] }

def wroteAll (fragments : List Bytes) : Lanes := fragments.foldl (·.wrote .applicationData) l

/-- The server's direction has its next secret. -/
def serverUpdated (K : KeyFunctions) : Lanes := { l with context := l.context.updated K false }

/-- The client's direction has its next secret, and a key that is derived from it. -/
def clientUpdated (K : KeyFunctions) (key : TlsAeadCipherState) : Lanes :=
  { l with context := l.context.updated K true, clientWriteState := key }

end Lanes

namespace TlsConnection

open Makes

variable {E : Environment} {s t : TlsConnection}

/-! ## Post-handshake records -/

variable {keyUpdated : Bool} {fragment data : Bytes} {K : KeyFunctions} {key : TlsAeadCipherState}
    {message : TlsHandshakeMessageView} {u : Unit} {fuel : ℕ}

theorem update_eq_ok {context : TlsContext} {client : Bool}
    {updated : TlsContext × TlsAeadCipherState} (hfull : context.FullSecrets)
    (h : context.updateTls13ApplicationTrafficSecret K client = .ok updated) :
    updated.1 = context.updated K client ∧
      deriveTrafficState K.trafficExpand context.cipherSuite
        (K.trafficUpdate context.algorithm (context.applicationTrafficSecret client)) =
        .ok updated.2 := by
  obtain ⟨_, _, h⟩ := Incremental.bind_eq_ok h
  obtain ⟨secret, hsecret, h⟩ := Incremental.bind_eq_ok h
  obtain ⟨state, hstate, h⟩ := Incremental.bind_eq_ok h
  cases h
  have hnext : secret = K.trafficUpdate context.algorithm
      (context.applicationTrafficSecret client) := by
    rw [hkdfExpandLabel_eq_ok hsecret, hfull]
    rfl
  rw [TlsContext.updated, ← hnext]
  exact ⟨rfl, hstate⟩

/-- The key that follows the server's, derived from the next secret. -/
def serverKey (K : KeyFunctions) (s : TlsConnection) : Except NTSTATUS TlsAeadCipherState :=
  deriveTrafficState K.trafficExpand s.context.cipherSuite
    (K.trafficUpdate s.context.algorithm (s.context.applicationTrafficSecret false))

/-- What KeyUpdates do, by whether the key has been updated before: the first one counts. -/
structure TakesUpdates (K : KeyFunctions) (keyUpdated : Bool)
    (updates : List Tls13KeyUpdateRequest) (s t : TlsConnection) : Prop where
  lanes : t.lanes = if keyUpdated ∨ updates = [] then s.lanes else s.lanes.serverUpdated K
  kept : keyUpdated ∨ updates = [] → t.serverWriteState = s.serverWriteState
  derived : ¬ (keyUpdated ∨ updates = []) → s.serverKey K = .ok t.serverWriteState

/-- Nothing happens to the keys. -/
theorem TakesUpdates.none (hlanes : t.lanes = s.lanes)
    (hkey : t.serverWriteState = s.serverWriteState) : TakesUpdates K keyUpdated [] s t where
  lanes := by rw [if_pos (.inr rfl), hlanes]
  kept _ := hkey
  derived h := absurd (.inr rfl) h

theorem storeTls13Ticket_lanes {ticket : Tls13NewSessionTicketView}
    (h : storeTls13Ticket E ticket s = .ok u t) :
    t.lanes = s.lanes ∧ t.serverWriteState = s.serverWriteState := by
  obtain ⟨_, t₁, ht₁, h⟩ := bind_eq_ok h
  obtain ⟨-, rfl⟩ := require_eq_ok ht₁
  obtain ⟨_, _, hget, h⟩ := bind_eq_ok h
  cases hget
  rcases when_eq_ok h with ⟨-, h⟩ | ⟨-, rfl⟩
  · obtain ⟨secret, t₂, ht₂, h⟩ := bind_eq_ok h
    obtain ⟨-, rfl⟩ := ofExcept_eq_ok ht₂
    obtain ⟨context, t₃, ht₃, h⟩ := bind_eq_ok h
    obtain ⟨hcontext, rfl⟩ := ofExcept_eq_ok ht₃
    obtain ⟨_, _, hcontext⟩ := Incremental.bind_eq_ok hcontext
    cases hcontext
    cases h
    exact ⟨rfl, rfl⟩
  · exact ⟨rfl, rfl⟩

theorem processNewSessionTicket_lanes (h : processNewSessionTicket E message s = .ok u t) :
    t.lanes = s.lanes ∧ t.serverWriteState = s.serverWriteState := by
  obtain ⟨ticket, t₁, ht₁, h⟩ := bind_eq_ok h
  obtain ⟨-, rfl⟩ := ofExcept_eq_ok ht₁
  exact storeTls13Ticket_lanes h

theorem updateServerTrafficSecret_lanes (hfull : s.context.FullSecrets)
    (h : updateServerTrafficSecret E s = .ok u t) :
    t.lanes = s.lanes.serverUpdated E.keys ∧ s.serverKey E.keys = .ok t.serverWriteState := by
  obtain ⟨_, _, hget, h⟩ := bind_eq_ok h
  cases hget
  obtain ⟨updated, t₁, ht₁, h⟩ := bind_eq_ok h
  obtain ⟨hupdated, rfl⟩ := ofExcept_eq_ok ht₁
  obtain ⟨hcontext, hkey⟩ := update_eq_ok hfull hupdated
  cases h
  refine ⟨?_, hkey⟩
  show Lanes.mk { updated.1 with sessionCache := [] } _ _ _ _ _ = _
  rw [hcontext]
  rfl

theorem processKeyUpdate_takes {request : Tls13KeyUpdateRequest} (hfull : s.context.FullSecrets)
    (h : processKeyUpdate E message keyUpdated s = .ok request t) :
    parseKeyUpdate message = .ok request ∧ TakesUpdates E.keys keyUpdated [request] s t := by
  obtain ⟨_, t₁, ht₁, h⟩ := bind_eq_ok h
  obtain ⟨hrequest, rfl⟩ := ofExcept_eq_ok ht₁
  obtain ⟨_, t₂, ht₂, h⟩ := bind_eq_ok h
  cases h
  refine ⟨hrequest, ?_⟩
  rcases when_eq_ok ht₂ with ⟨hfirst, ht₂⟩ | ⟨hlater, rfl⟩
  · obtain ⟨hlanes, hkey⟩ := updateServerTrafficSecret_lanes hfull ht₂
    have hfirst : ¬ (keyUpdated ∨ [request] = []) := by simp [hfirst]
    exact ⟨by rw [if_neg hfirst, hlanes], fun h => absurd h hfirst, fun _ => hkey⟩
  · have hlater : keyUpdated ∨ [request] = [] := by simpa using hlater
    exact ⟨by rw [if_pos hlater], fun _ => rfl, fun h => absurd hlater h⟩

def PostHandshakeFlags.taken (flags : PostHandshakeFlags) :
    Option Tls13KeyUpdateRequest → PostHandshakeFlags
  | none => flags
  | some request => ⟨true, flags.updateRequested || request = .updateRequested⟩

@[simp] theorem PostHandshakeFlags.taken_none (flags : PostHandshakeFlags) :
    flags.taken none = flags := rfl

@[simp] theorem PostHandshakeFlags.taken_some (flags : PostHandshakeFlags)
    (request : Tls13KeyUpdateRequest) :
    flags.taken (some request) = ⟨true, flags.updateRequested || request = .updateRequested⟩ := rfl

theorem processPostHandshakeMessage_takes {octets : Bytes}
    {flags flags' : PostHandshakeFlags} (hfull : s.context.FullSecrets)
    (hmessage : message.TicketOrUpdate)
    (h : processPostHandshakeMessage E message octets flags s = .ok flags' t) :
    flags' = flags.taken message.keyUpdate ∧
      TakesUpdates E.keys flags.keyUpdated message.keyUpdate.toList s t := by
  rw [processPostHandshakeMessage] at h
  rcases hmessage with htype | htype
  · have hnone : message.keyUpdate = none := by
      rw [TlsHandshakeMessageView.keyUpdate, htype]
      rfl
    rw [if_pos htype] at h
    obtain ⟨_, t₁, ht₁, h⟩ := bind_eq_ok h
    cases h
    obtain ⟨hlanes, hkey⟩ := processNewSessionTicket_lanes ht₁
    rw [hnone]
    exact ⟨rfl, .none hlanes hkey⟩
  · rw [if_neg (by rw [htype]; decide), if_pos htype] at h
    obtain ⟨request, t₁, ht₁, h⟩ := bind_eq_ok h
    cases h
    obtain ⟨hrequest, htakes⟩ := processKeyUpdate_takes hfull ht₁
    have hsome : message.keyUpdate = some request := by
      rw [TlsHandshakeMessageView.keyUpdate, if_pos htype, hrequest]
      rfl
    rw [hsome]
    exact ⟨rfl, htakes⟩

/-- KeyUpdates one after the other. -/
theorem TakesUpdates.append {updates more : List Tls13KeyUpdateRequest} {u : TlsConnection}
    (h : TakesUpdates K keyUpdated updates s t)
    (h' : TakesUpdates K (keyUpdated || updates ≠ []) more t u) :
    TakesUpdates K keyUpdated (updates ++ more) s u := by
  obtain ⟨hlanes, hkept, hderived⟩ := h
  obtain ⟨hlanes', hkept', hderived'⟩ := h'
  have hkey (hl : t.lanes = s.lanes) : t.serverKey K = s.serverKey K :=
    congrArg (fun l : Lanes => deriveTrafficState K.trafficExpand l.context.cipherSuite
      (K.trafficUpdate l.context.algorithm (l.context.applicationTrafficSecret false))) hl
  by_cases hpos : keyUpdated ∨ updates = []
  · rw [if_pos hpos] at hlanes
    have hiff : ((keyUpdated || decide (updates ≠ [])) = true ∨ more = []) ↔
        keyUpdated ∨ updates ++ more = [] := by
      rcases hpos with hpos | hpos <;> simp [hpos]
    simp only [hiff, hlanes, hkey hlanes, hkept hpos] at hlanes' hkept' hderived'
    exact ⟨hlanes', hkept', hderived'⟩
  · rw [if_neg hpos] at hlanes
    obtain ⟨hfirst, hne⟩ := not_or.1 hpos
    have hrest : (keyUpdated || decide (updates ≠ [])) = true ∨ more = [] := by simp [hne]
    have hall : ¬ (keyUpdated ∨ updates ++ more = []) := by simp [hfirst, hne]
    refine ⟨?_, fun h => absurd h hall, fun _ => ?_⟩
    · rw [if_neg hall, hlanes', if_pos hrest, hlanes]
    · rw [hkept' hrest]
      exact hderived hpos

theorem TakesUpdates.full {K : KeyFunctions} {keyUpdated : Bool}
    {updates : List Tls13KeyUpdateRequest} (h : TakesUpdates K keyUpdated updates s t)
    (hfull : s.context.FullSecrets) : t.context.FullSecrets := by
  have hcontext : t.lanes.context.FullSecrets := by
    rw [h.lanes]
    split
    · exact hfull
    · exact hfull
  exact hcontext

theorem consumePostHandshakeMessages_takes : ∀ (messages : ℕ) (fragment : Bytes)
    (flags flags' : PostHandshakeFlags) (s t : TlsConnection), s.context.FullSecrets →
    (∀ message ∈ messagesOf messages fragment, message.TicketOrUpdate) →
    consumePostHandshakeMessages E messages fragment flags s = .ok flags' t →
    TakesUpdates E.keys flags.keyUpdated
        ((messagesOf messages fragment).filterMap (·.keyUpdate)) s t ∧
      (flags'.updateRequested ↔ flags.updateRequested ∨
        .updateRequested ∈ (messagesOf messages fragment).filterMap (·.keyUpdate)) := by
  intro messages
  induction messages with
  | zero =>
    rintro (_ | ⟨c, fragment⟩) flags flags' s t _ _ h
    · cases h
      exact ⟨.none rfl rfl, by simp⟩
    · cases h
  | succ messages ih =>
    rintro (_ | ⟨c, fragment⟩) flags flags' s t hfull hmessages h
    · cases h
      simp only [messagesOf_nil, List.filterMap_nil, List.not_mem_nil, or_false, and_true]
      exact .none rfl rfl
    rw [consumePostHandshakeMessages.eq_3 _ _ _ _ (List.cons_ne_nil _ _)] at h
    rw [messagesOf] at hmessages ⊢
    cases hparsed : parseMessage (c :: fragment) with
    | error status =>
      rw [hparsed] at h
      cases h
    | ok message =>
      rw [hparsed] at h hmessages
      obtain ⟨_, s₁, hs₁, h⟩ := bind_eq_ok h
      cases hs₁
      obtain ⟨flags₂, s₂, hs₂, h⟩ := bind_eq_ok h
      obtain ⟨hflags, hfirst⟩ := processPostHandshakeMessage_takes (by exact hfull)
        (hmessages _ (List.mem_cons_self ..)) hs₂
      obtain ⟨hrest, hrequested⟩ := ih _ flags₂ flags' s₂ t
        (hfirst.full hfull) (fun m hm => hmessages m (List.mem_cons_of_mem _ hm)) h
      have hfirst : TakesUpdates E.keys flags.keyUpdated message.keyUpdate.toList s s₂ :=
        ⟨hfirst.lanes, hfirst.kept, hfirst.derived⟩
      rw [hflags] at hrest hrequested
      cases hupdate : message.keyUpdate with
      | none =>
        rw [hupdate] at hfirst hrest hrequested
        rw [List.filterMap_cons_none hupdate]
        exact ⟨hfirst.append (by simpa using hrest), hrequested⟩
      | some request =>
        rw [hupdate] at hfirst hrest hrequested
        rw [List.filterMap_cons_some hupdate]
        constructor
        · exact hfirst.append (by simpa using hrest)
        · rw [hrequested, List.mem_cons, eq_comm (a := Tls13KeyUpdateRequest.updateRequested)]
          simp [or_assoc]

theorem consumeTls13PostHandshakeRecord_takes (hfull : s.context.FullSecrets)
    (hmessages : ∀ message ∈ postHandshakeMessages fragment, message.TicketOrUpdate)
    (h : consumeTls13PostHandshakeRecord E fragment s = .ok u t) :
    ∃ v, TakesUpdates E.keys false (keyUpdatesIn fragment) s v ∧
      t = { v with peerRequestedKeyUpdate :=
        v.peerRequestedKeyUpdate || .updateRequested ∈ keyUpdatesIn fragment } := by
  obtain ⟨_, s₁, hs₁, h⟩ := bind_eq_ok h
  obtain ⟨-, rfl⟩ := require_eq_ok hs₁
  obtain ⟨_, s₂, hs₂, h⟩ := bind_eq_ok h
  cases hs₂
  obtain ⟨flags, v, hv, h⟩ := bind_eq_ok h
  obtain ⟨htakes, hrequested⟩ := consumePostHandshakeMessages_takes
    tlsMaxPostHandshakeMessagesPerRecord fragment {} flags _ v (by exact hfull) hmessages hv
  refine ⟨v, ⟨htakes.lanes, htakes.kept, htakes.derived⟩, ?_⟩
  simp only [Bool.false_eq_true, false_or] at hrequested
  change _ ↔ .updateRequested ∈ keyUpdatesIn fragment at hrequested
  rcases when_eq_ok h with ⟨hflag, h⟩ | ⟨hflag, rfl⟩
  · cases h
    rw [decide_eq_true (hrequested.1 hflag), Bool.or_true]
  · rw [decide_eq_false (fun hmem => hflag (hrequested.2 hmem)), Bool.or_false]

/-! ## Sending -/

theorem sendAll_lanes (s : TlsConnection) :
    EndsAt (fun s t => t.lanes = s.lanes) (fun _ s t => t.lanes = s.lanes) s (sendAll E) :=
  (sendAll_makes lanes_ignoresReading E s).mono (fun _ => eq_of_noStep) fun _ _ => eq_of_noStep

/-- A protected record goes out, or is refused. -/
theorem sendProtectedRecord13_lanes (contentType : TlsContentType) (fragment : Bytes)
    (s : TlsConnection) :
    EndsAt (fun s t => t.lanes = s.lanes.wrote contentType fragment)
      (fun _ s t => t.lanes = s.lanes ∨ t.lanes = s.lanes.wrote contentType fragment) s
      (sendProtectedRecord13 E contentType fragment) := by
  refine EndsAt.get_bind ?_
  rcases sendRecord_cases E .aesGcm13
    { contentType, fragment, tls13PaddingLength := s.recordPaddingLength } s with
    ⟨status, h⟩ | ⟨-, h⟩
  · rw [EndsAt, h]
    exact .inl rfl
  · exact EndsAt.of_eq h ((sendAll_lanes _).mono (fun _ ht => ht) fun _ _ ht => .inr ht)

/-- The key that follows the client's, derived from the next secret. -/
def clientKey (K : KeyFunctions) (s : TlsConnection) : Except NTSTATUS TlsAeadCipherState :=
  deriveTrafficState K.trafficExpand s.context.cipherSuite
    (K.trafficUpdate s.context.algorithm (s.context.applicationTrafficSecret true))

theorem updateClientTrafficSecret_lanes (hfull : s.context.FullSecrets) :
    EndsAt (fun s t => ∃ key, s.clientKey E.keys = .ok key ∧
        t.lanes = s.lanes.clientUpdated E.keys key)
      (fun _ s t => t = s) s (updateClientTrafficSecret E) := by
  refine EndsAt.get_bind (EndsAt.bind (fun status t ht => ?_) fun updated t ht => ?_)
  · exact (ofExcept_eq_error ht).2.symm
  · obtain ⟨hupdated, rfl⟩ := ofExcept_eq_ok ht
    obtain ⟨hcontext, hkey⟩ := update_eq_ok hfull hupdated
    refine EndsAt.set ⟨updated.2, hkey, ?_⟩
    show Lanes.mk { updated.1 with sessionCache := [] } _ _ _ _ _ = _
    rw [hcontext]
    rfl

/-- The client's KeyUpdate. -/
def keyUpdateSent (s : TlsConnection) : SentRecord :=
  ⟨.handshake, encodeKeyUpdate .updateNotRequested, some s.clientWriteState⟩

/-- What the client has when it has answered. -/
def answered (K : KeyFunctions) (s : TlsConnection) (key : TlsAeadCipherState) : Lanes :=
  Lanes.clientUpdated
    { s.lanes with peerRequestedKeyUpdate := false, sent := s.history.sent ++ [s.keyUpdateSent] }
    K key

/-- A KeyUpdate of the client, and its next key. -/
def answer (E : Environment) : TlsProgram Unit := do
  sendProtectedRecord13 E .handshake (encodeKeyUpdate .updateNotRequested)
  updateClientTrafficSecret E

theorem sendPendingTls13KeyUpdate_eq (s : TlsConnection) : sendPendingTls13KeyUpdate E s =
    when (s.peerRequestedKeyUpdate = true) (answer E) { s with peerRequestedKeyUpdate := false } :=
  rfl

theorem answer_lanes (hfull : s.context.FullSecrets) :
    EndsAt (fun s t => ∃ key, s.clientKey E.keys = .ok key ∧ t.lanes =
        Lanes.clientUpdated { s.lanes with sent := s.history.sent ++ [s.keyUpdateSent] }
          E.keys key)
      (fun _ s t => t.history.sent = s.history.sent ∨
        t.history.sent = s.history.sent ++ [s.keyUpdateSent]) s (answer E) := by
  have hwrites := sendProtectedRecord13_lanes (E := E) .handshake
    (encodeKeyUpdate .updateNotRequested) s
  refine EndsAt.bind (fun status t ht => ?_) fun _ u hu => ?_
  · exact (hwrites.error ht).imp (congrArg Lanes.sent) (congrArg Lanes.sent)
  · have hlanes := hwrites.ok hu
    have hcontext : u.lanes.context = s.lanes.context := by rw [hlanes, Lanes.wrote]
    have hfull : u.lanes.context.FullSecrets := hcontext ▸ hfull
    refine (updateClientTrafficSecret_lanes (s := u) hfull).mono ?_ ?_
    · rintro t ⟨key, hkey, ht⟩
      refine ⟨key, ?_, ?_⟩
      · exact (congrArg (fun c : TlsContext => deriveTrafficState E.keys.trafficExpand
          c.cipherSuite (E.keys.trafficUpdate c.algorithm (c.applicationTrafficSecret true)))
          hcontext).symm.trans hkey
      · rw [ht, hlanes]
        rfl
    · rintro status t rfl
      exact .inr (congrArg Lanes.sent hlanes)

theorem sendPendingTls13KeyUpdate_lanes (hfull : s.context.FullSecrets)
    (howed : s.peerRequestedKeyUpdate = true) :
    EndsAt (fun s t => ∃ key, s.clientKey E.keys = .ok key ∧ t.lanes = s.answered E.keys key)
      (fun _ s t => t.history.sent = s.history.sent ∨
        t.history.sent = s.history.sent ++ [s.keyUpdateSent]) s
      (sendPendingTls13KeyUpdate E) := by
  have heq := (sendPendingTls13KeyUpdate_eq (E := E) s).trans
    (congrFun (when_of howed (answer E)) { s with peerRequestedKeyUpdate := false })
  exact EndsAt.of_eq heq ((answer_lanes (s := { s with peerRequestedKeyUpdate := false })
    hfull).mono (fun _ h => h) fun _ _ h => h)

theorem sendFragment_eq (chunk : Bytes) (hprotected : s.tls13RecordProtection = true) :
    sendFragment E chunk s = (do
      sendPendingTls13KeyUpdate E
      sendProtectedRecord13 E .applicationData chunk) s := congrFun (if_pos hprotected) s

theorem sendFragment_lanes (chunk : Bytes) (hprotected : s.tls13RecordProtection = true)
    (hidle : s.peerRequestedKeyUpdate = false) :
    EndsAt (fun s t => t.lanes = s.lanes.wrote .applicationData chunk)
      (fun _ s t => t.lanes = s.lanes ∨ t.lanes = s.lanes.wrote .applicationData chunk) s
      (sendFragment E chunk) := by
  have hpending := (sendPendingTls13KeyUpdate_eq (E := E) s).trans
    (congrFun (when_of_not (Bool.eq_false_iff.1 hidle) (answer E))
      { s with peerRequestedKeyUpdate := false })
  have hlanes : ({ s with peerRequestedKeyUpdate := false } : TlsConnection).lanes = s.lanes :=
    congrArg (fun owed => { s.lanes with peerRequestedKeyUpdate := owed }) hidle.symm
  have heq : sendFragment E chunk s = sendProtectedRecord13 E .applicationData chunk
      { s with peerRequestedKeyUpdate := false } :=
    (sendFragment_eq chunk hprotected).trans (bind_of_ok hpending _)
  refine EndsAt.of_eq heq ((sendProtectedRecord13_lanes .applicationData chunk _).mono ?_ ?_)
  · intro t ht
    rw [ht, hlanes]
  · intro status t ht
    rwa [hlanes] at ht

/-- The loop of `Send` behind the answer, by induction on its turns. -/
theorem sendFrom_lanes : ∀ (fuel : ℕ) (data : Bytes) (s : TlsConnection),
    s.tls13RecordProtection = true → s.peerRequestedKeyUpdate = false →
    EndsAt (fun s t => ∃ fragments : List Bytes, fragments.flatten = data ∧
        t.lanes = s.lanes.wroteAll fragments)
      (fun _ s t => ∃ fragments : List Bytes, fragments.flatten <+: data ∧
        t.lanes = s.lanes.wroteAll fragments) s (sendFrom E fuel data) := by
  intro fuel
  induction fuel with
  | zero =>
    rintro (_ | ⟨c, data⟩) s _ _
    · exact ⟨[], rfl, rfl⟩
    · exact ⟨[], List.nil_prefix, rfl⟩
  | succ fuel ih =>
    rintro (_ | ⟨c, data⟩) s hprotected hidle
    · exact ⟨[], rfl, rfl⟩
    rw [sendFrom.eq_3 _ _ _ (List.cons_ne_nil _ _)]
    have hwrites := sendFragment_lanes (E := E) ((c :: data).take s.fragmentLimit) hprotected hidle
    refine EndsAt.get_bind (EndsAt.bind (fun status t ht => ?_) fun _ t ht => ?_)
    · rcases hwrites.error ht with h | h
      · exact ⟨[], List.nil_prefix, h⟩
      · exact ⟨[(c :: data).take s.fragmentLimit], by simpa using List.take_prefix _ _, h⟩
    · have hlanes := hwrites.ok ht
      have ih := ih ((c :: data).drop s.fragmentLimit) t
        ((congrArg Lanes.tls13RecordProtection hlanes).trans hprotected)
        ((congrArg Lanes.peerRequestedKeyUpdate hlanes).trans hidle)
      refine ih.mono ?_ ?_
      · rintro u ⟨fragments, hdata, hu⟩
        refine ⟨(c :: data).take s.fragmentLimit :: fragments, ?_, ?_⟩
        · rw [List.flatten_cons, hdata, List.take_append_drop]
        · rw [hu, hlanes]
          rfl
      · rintro status u ⟨fragments, hdata, hu⟩
        refine ⟨(c :: data).take s.fragmentLimit :: fragments, ?_, ?_⟩
        · rw [List.flatten_cons]
          conv_rhs => rw [← List.take_append_drop s.fragmentLimit (c :: data)]
          exact (List.prefix_append_right_inj _).2 hdata
        · rw [hu, hlanes]
          rfl

/-- Application data under a key, with sequence numbers from zero. -/
def applicationSent (key : TlsAeadCipherState) (fragments : List Bytes) : List SentRecord :=
  fragments.mapIdx fun i fragment =>
    ⟨.applicationData, fragment, some { key with sequenceNumber := UInt64.ofNat i }⟩

theorem next_numbered (key : TlsAeadCipherState) (i : ℕ) :
    ({ key with sequenceNumber := UInt64.ofNat i } : TlsAeadCipherState).next =
      { key with sequenceNumber := UInt64.ofNat (i + 1) } := by
  rw [TlsAeadCipherState.next, UInt64.ofNat_add]
  rfl

theorem wroteAll_sent (key : TlsAeadCipherState) (fragments : List Bytes) :
    ∀ (i : ℕ) (l : Lanes), l.clientWriteState = { key with sequenceNumber := UInt64.ofNat i } →
      (l.wroteAll fragments).sent = l.sent ++ fragments.mapIdx fun j fragment =>
        ⟨.applicationData, fragment, some { key with sequenceNumber := UInt64.ofNat (i + j) }⟩ := by
  induction fragments with
  | nil =>
    intro i l _
    exact (List.append_nil _).symm
  | cons fragment fragments ih =>
    intro i l hl
    have hnext : (l.wrote .applicationData fragment).clientWriteState =
        { key with sequenceNumber := UInt64.ofNat (i + 1) } := by
      rw [Lanes.wrote, hl, next_numbered]
    refine (ih (i + 1) (l.wrote .applicationData fragment) hnext).trans ?_
    simp only [Lanes.wrote, hl, List.mapIdx_cons, List.append_assoc, List.singleton_append,
      Nat.add_zero, Nat.add_assoc, Nat.add_comm 1]

theorem deriveTrafficState_sequenceNumber {hkdf : HkdfExpandLabel} {suite : TlsCipherSuite}
    {secret : Bytes} (h : deriveTrafficState hkdf suite secret = .ok key) :
    { key with sequenceNumber := UInt64.ofNat 0 } = key := by
  rw [deriveTrafficState] at h
  split at h
  · cases h
  · cases h
    rfl

/-- **A `Send` that owes an answer**: the KeyUpdate goes out under the key so far, and behind it
    the data, under the key of the next secret and counted from zero. -/
structure AnswersFirst (E : Environment) (data : Bytes) (s : TlsConnection) : Prop where
  returns : ∀ t, send E data s = .ok () t → ∃ key fragments, s.clientKey E.keys = .ok key ∧
    fragments.flatten = data ∧
    t.history.sent = s.history.sent ++ s.keyUpdateSent :: applicationSent key fragments ∧
    t.context.applicationTrafficSecret true =
      E.keys.trafficUpdate s.context.algorithm (s.context.applicationTrafficSecret true)
  fails : ∀ status t, send E data s = .error status t →
    t.history.sent = s.history.sent ∨ t.history.sent = s.history.sent ++ [s.keyUpdateSent] ∨
    ∃ key fragments, s.clientKey E.keys = .ok key ∧ fragments.flatten <+: data ∧
      t.history.sent = s.history.sent ++ s.keyUpdateSent :: applicationSent key fragments

theorem answered_sent {fragments : List Bytes} (hkey : s.clientKey E.keys = .ok key)
    (hlanes : t.lanes = (s.answered E.keys key).wroteAll fragments) :
    t.history.sent = s.history.sent ++ s.keyUpdateSent :: applicationSent key fragments := by
  have hstart : (s.answered E.keys key).clientWriteState =
      { key with sequenceNumber := UInt64.ofNat 0 } :=
    (deriveTrafficState_sequenceNumber hkey).symm
  have hsent := (congrArg Lanes.sent hlanes).trans (wroteAll_sent key fragments 0 _ hstart)
  refine hsent.trans ?_
  simp only [Nat.zero_add, applicationSent]
  exact List.append_assoc ..

theorem wroteAll_context (l : Lanes) (fragments : List Bytes) :
    (l.wroteAll fragments).context = l.context := by
  induction fragments generalizing l with
  | nil => rfl
  | cons fragment fragments ih => exact ih (l.wrote .applicationData fragment)

theorem wroteAll_protection (l : Lanes) (fragments : List Bytes) :
    (l.wroteAll fragments).tls13RecordProtection = l.tls13RecordProtection := by
  induction fragments generalizing l with
  | nil => rfl
  | cons fragment fragments ih => exact ih (l.wrote .applicationData fragment)

theorem sendFrom_answered (hdata : data ≠ []) (hprotected : s.tls13RecordProtection = true)
    (h : sendPendingTls13KeyUpdate E s = .ok u t) (ht : t.lanes = s.answered E.keys key) :
    sendFrom E (fuel + 1) data s = sendFrom E (fuel + 1) data t := by
  have hprotected' : t.tls13RecordProtection = true :=
    (congrArg Lanes.tls13RecordProtection ht).trans hprotected
  have hidle : t.peerRequestedKeyUpdate = false := congrArg Lanes.peerRequestedKeyUpdate ht
  have hpadding : t.recordPaddingLength = s.recordPaddingLength :=
    congrArg Lanes.recordPaddingLength ht
  have hlimit : t.fragmentLimit = s.fragmentLimit := by
    rw [fragmentLimit, fragmentLimit, hprotected, hprotected', hpadding]
  have hsame : ({ t with peerRequestedKeyUpdate := false } : TlsConnection) = t := by
    rw [← hidle]
  have hagain : sendPendingTls13KeyUpdate E t = .ok () t := by
    rw [sendPendingTls13KeyUpdate_eq, when_of_not (Bool.eq_false_iff.1 hidle), hsame]
    rfl
  have hfragment (chunk : Bytes) : sendFragment E chunk s = sendFragment E chunk t := by
    rw [sendFragment_eq chunk hprotected, sendFragment_eq chunk hprotected', bind_of_ok h,
      bind_of_ok hagain]
  rw [sendFrom.eq_3 _ _ _ hdata]
  show (sendFragment E (data.take s.fragmentLimit) >>= fun _ =>
      sendFrom E fuel (data.drop s.fragmentLimit)) s =
    (sendFragment E (data.take t.fragmentLimit) >>= fun _ =>
      sendFrom E fuel (data.drop t.fragmentLimit)) t
  rw [bind_apply, bind_apply, hfragment, hlimit]

theorem sendFrom_unanswered {status : NTSTATUS} (hdata : data ≠ [])
    (hprotected : s.tls13RecordProtection = true)
    (h : sendPendingTls13KeyUpdate E s = .error status t) :
    sendFrom E (fuel + 1) data s = .error status t := by
  have hfragment (chunk : Bytes) : sendFragment E chunk s = .error status t :=
    (sendFragment_eq chunk hprotected).trans (bind_of_error h _)
  rw [sendFrom.eq_3 _ _ _ hdata]
  exact bind_of_error (hfragment _) _

theorem sendFrom_answersFirst (fuel : ℕ) (hdata : data ≠ [])
    (hfull : s.context.FullSecrets) (hprotected : s.tls13RecordProtection = true)
    (howed : s.peerRequestedKeyUpdate = true) :
    (∀ t, sendFrom E (fuel + 1) data s = .ok () t → ∃ key fragments,
      s.clientKey E.keys = .ok key ∧ fragments.flatten = data ∧
      t.lanes = (s.answered E.keys key).wroteAll fragments) ∧
    ∀ status t, sendFrom E (fuel + 1) data s = .error status t →
      t.history.sent = s.history.sent ∨ t.history.sent = s.history.sent ++ [s.keyUpdateSent] ∨
      ∃ key fragments, s.clientKey E.keys = .ok key ∧ fragments.flatten <+: data ∧
        t.lanes = (s.answered E.keys key).wroteAll fragments := by
  have hanswer := sendPendingTls13KeyUpdate_lanes (E := E) hfull howed
  cases hp : sendPendingTls13KeyUpdate E s with
  | error status t =>
    rw [sendFrom_unanswered hdata hprotected hp]
    constructor
    · intro t' h
      cases h
    · intro status' t' h
      cases h
      exact (hanswer.error hp).imp_right .inl
  | ok u v =>
    obtain ⟨key, hkey, hv⟩ := hanswer.ok hp
    rw [sendFrom_answered hdata hprotected hp hv]
    have hrest := sendFrom_lanes (E := E) (fuel + 1) data v
      ((congrArg Lanes.tls13RecordProtection hv).trans hprotected)
      (congrArg Lanes.peerRequestedKeyUpdate hv)
    refine ⟨fun t ht => ?_, fun status t ht => ?_⟩
    · obtain ⟨fragments, hflatten, hlanes⟩ := hrest.ok ht
      exact ⟨key, fragments, hkey, hflatten, hlanes.trans (by rw [hv])⟩
    · obtain ⟨fragments, hflatten, hlanes⟩ := hrest.error ht
      exact .inr (.inr ⟨key, fragments, hkey, hflatten, hlanes.trans (by rw [hv])⟩)

/-- The loop of `Send`, which is behind a check. -/
theorem send_cases (data : Bytes) (s : TlsConnection) :
    send E data s = sendFrom E data.length data s ∨
      send E data s = .error statusInvalidParameter s := by
  by_cases hestablished : s.context.established = true
  · exact .inl (bind_of_ok (require_of hestablished _ _) _)
  · exact .inr (bind_of_error (require_of_not hestablished _ _) _)

theorem send_answersFirst (hdata : data ≠ [])
    (hfull : s.context.FullSecrets) (hprotected : s.tls13RecordProtection = true)
    (howed : s.peerRequestedKeyUpdate = true) : AnswersFirst E data s := by
  obtain ⟨n, hn⟩ := Nat.exists_eq_add_one.2 (List.length_pos_iff.2 hdata)
  obtain ⟨hreturns, hfails⟩ := sendFrom_answersFirst (E := E) n hdata hfull hprotected
    howed
  rw [← hn] at hreturns hfails
  rcases send_cases (E := E) data s with heq | heq
  · refine ⟨fun t ht => ?_, fun status t ht => ?_⟩
    · obtain ⟨key, fragments, hkey, hflatten, hlanes⟩ := hreturns t (heq ▸ ht)
      refine ⟨key, fragments, hkey, hflatten, answered_sent hkey hlanes, ?_⟩
      have hcontext : t.lanes.context = (s.answered E.keys key).context := by
        rw [hlanes, wroteAll_context]
      exact congrArg (·.applicationTrafficSecret true) hcontext
    · rcases hfails status t (heq ▸ ht) with h | h | ⟨key, fragments, hkey, hflatten, hlanes⟩
      · exact .inl h
      · exact .inr (.inl h)
      · exact .inr (.inr ⟨key, fragments, hkey, hflatten, answered_sent hkey hlanes⟩)
  · refine ⟨fun t ht => ?_, fun status t ht => ?_⟩
    · rw [heq] at ht
      cases ht
    · rw [heq] at ht
      cases ht
      exact .inl rfl

/-! ## The protection of an established connection -/

abbrev KeepsProtection {α : Type} (p : TlsProgram α) : Prop :=
  Makes (·.tls13RecordProtection) (fun _ _ => False) p

theorem protection_ignoresReading : IgnoresReading (·.tls13RecordProtection) :=
  fun _ _ _ _ _ _ _ _ _ => rfl

theorem takeHandshakeMessage_keepsProtection (parsed : TlsHandshakeMessageView)
    (updateTranscript : Bool) : KeepsProtection (takeHandshakeMessage parsed updateTranscript) :=
  Makes.read fun _ => Makes.bind (Makes.when (modify_aside fun _ => rfl)) fun _ =>
    Makes.bind (modify_aside fun _ => rfl) fun _ => Makes.bind (modify_aside fun s => by
      show (s.consume _).tls13RecordProtection = _
      rw [consume]
      split
      · rfl
      · rfl) fun _ => Makes.pure _

theorem keepIncomplete_keepsProtection (status : NTSTATUS) :
    KeepsProtection (keepIncomplete status) :=
  Makes.bind (Makes.require _) fun _ => modify_aside fun _ => rfl

theorem bufferHandshakeRecord_keepsProtection : KeepsProtection (bufferHandshakeRecord E) :=
  Makes.bind (readRecord_makes protection_ignoresReading E) fun _ =>
    Makes.bind (Makes.require _) fun _ => Makes.get_bind fun s =>
      composes.bind (Makes.require _ s) fun _ t ht => by
        obtain ⟨-, rfl⟩ := require_eq_ok ht
        exact EndsAt.set .refl

theorem readHandshakeMessageFrom_keepsProtection (updateTranscript : Bool) (records : ℕ) :
    KeepsProtection (readHandshakeMessageFrom E updateTranscript records) := by
  induction records with
  | zero =>
    refine Makes.read fun s => ?_
    split
    · exact takeHandshakeMessage_keepsProtection _ _
    · exact Makes.bind (keepIncomplete_keepsProtection _) fun _ => Makes.throw _
  | succ records ih =>
    refine Makes.read fun s => ?_
    split
    · exact takeHandshakeMessage_keepsProtection _ _
    · exact Makes.bind (keepIncomplete_keepsProtection _) fun _ =>
        Makes.bind bufferHandshakeRecord_keepsProtection fun _ => ih

theorem readHandshakeMessage_keepsProtection (updateTranscript : Bool) :
    KeepsProtection (readHandshakeMessage E updateTranscript) :=
  Makes.bind (modify_aside fun _ => rfl) fun _ => readHandshakeMessageFrom_keepsProtection _ _

theorem sendProtectedRecord13_keepsProtection (contentType : TlsContentType) (fragment : Bytes) :
    KeepsProtection (sendProtectedRecord13 E contentType fragment) := by
  have hkeeps {s t : TlsConnection} (h : t.tls13RecordProtection = s.tls13RecordProtection) :
      ReflTransGen (fun _ _ => False) s.tls13RecordProtection t.tls13RecordProtection :=
    h ▸ .refl
  refine fun s => (sendProtectedRecord13_lanes contentType fragment s).mono ?_ ?_
  · intro t ht
    exact hkeeps (congrArg Lanes.tls13RecordProtection ht)
  · rintro status t (ht | ht)
    · exact hkeeps (congrArg Lanes.tls13RecordProtection ht)
    · exact hkeeps (congrArg Lanes.tls13RecordProtection ht)

theorem sendHandshake13_keepsProtection (message : Bytes) :
    KeepsProtection (sendHandshake13 E message) :=
  Makes.bind (modify_aside fun _ => rfl) fun _ => Makes.bind (modify_aside fun _ => rfl) fun _ =>
    sendProtectedRecord13_keepsProtection _ _

theorem sendClientCertificate_keepsProtection (context : Bytes)
    (answer : Option (TlsClientCredential × TlsSignatureScheme)) (capacity : ℕ) :
    KeepsProtection (sendClientCertificate E context answer capacity) := by
  cases answer with
  | none =>
    exact Makes.bind (Makes.ofExcept _) fun _ => sendHandshake13_keepsProtection _
  | some pair =>
    exact Makes.bind (Makes.ofExcept _) fun _ =>
      Makes.bind (sendHandshake13_keepsProtection _) fun _ =>
      Makes.bind (finishTranscript_makes E) fun _ => Makes.bind ofFailure_makes fun _ =>
      Makes.bind (Makes.ofExcept _) fun _ => sendHandshake13_keepsProtection _

theorem sendClientFinished_keepsProtection (capacity : ℕ) :
    KeepsProtection (sendClientFinished E capacity) :=
  Makes.bind (finishTranscript_makes E) fun _ => Makes.read fun _ =>
    Makes.bind (Makes.ofExcept _) fun _ => sendHandshake13_keepsProtection _

variable {options : TlsClientConnectionOptions}

theorem readEncryptedExtensions_keepsProtection (agreement : Tls13Agreement) :
    KeepsProtection (readEncryptedExtensions E options agreement) :=
  Makes.bind (readHandshakeMessage_keepsProtection _) fun _ => Makes.bind (Makes.ofExcept _) fun _ =>
    Makes.bind (Makes.when (Makes.bind (Makes.require _) fun _ =>
      Makes.bind (modify_aside fun _ => rfl) fun _ => Makes.require _)) fun _ =>
    Makes.bind (Makes.require _) fun _ => Makes.bind (Makes.require _) fun _ => Makes.pure _

theorem readCertificateMessage_keepsProtection :
    KeepsProtection (readCertificateMessage E options) :=
  Makes.bind (readHandshakeMessage_keepsProtection _) fun _ => Makes.ite
    (Makes.bind (Makes.ofExcept _) fun _ => Makes.bind (Makes.require _) fun _ =>
      Makes.bind (Makes.ofExcept _) fun _ => Makes.bind (Makes.ofExcept _) fun _ =>
      Makes.bind (readHandshakeMessage_keepsProtection _) fun _ => Makes.pure _)
    (Makes.pure _)

theorem appendLastHandshake_keepsProtection : KeepsProtection appendLastHandshake :=
  Makes.read fun _ => modify_aside fun _ => rfl

theorem authenticateServer_keepsProtection (certificateMessage : TlsHandshakeMessageView) :
    KeepsProtection (authenticateServer E options certificateMessage) :=
  Makes.bind (Makes.ofExcept _) fun _ => Makes.bind ofFailure_makes fun _ =>
    Makes.bind (finishTranscript_makes E) fun _ =>
    Makes.bind (readHandshakeMessage_keepsProtection _) fun _ =>
    Makes.bind (Makes.ofExcept _) fun _ => Makes.bind ofFailure_makes fun _ =>
    appendLastHandshake_keepsProtection

theorem readServerFinished_keepsProtection : KeepsProtection (readServerFinished E) :=
  Makes.bind (finishTranscript_makes E) fun _ =>
    Makes.bind (readHandshakeMessage_keepsProtection _) fun _ => Makes.read fun _ =>
    Makes.bind (Makes.ofExcept _) fun _ => appendLastHandshake_keepsProtection

theorem deriveApplicationSecrets_keepsProtection : KeepsProtection (deriveApplicationSecrets E) :=
  Makes.bind (finishTranscript_makes E) fun _ => Makes.get_bind fun _ =>
    Makes.ofExcept_bind fun _ _ => EndsAt.set .refl

theorem sendClientFlight_keepsProtection (earlyDataAccepted : Bool)
    (requested : Option CertificateAnswer) :
    KeepsProtection (sendClientFlight E earlyDataAccepted requested) := by
  refine Makes.bind (Makes.when (sendHandshake13_keepsProtection _)) fun _ => ?_
  cases requested with
  | none => exact sendClientFinished_keepsProtection _
  | some answer =>
    exact Makes.bind (sendClientCertificate_keepsProtection _ _ _) fun _ =>
      sendClientFinished_keepsProtection _

theorem finishHandshake_keepsProtection (agreement : Tls13Agreement) :
    KeepsProtection (finishHandshake E options agreement) :=
  Makes.bind (readOptionalCompatibilityChangeCipherSpec_makes protection_ignoresReading) fun _ =>
    Makes.bind (readEncryptedExtensions_keepsProtection agreement) fun _ =>
    Makes.bind readCertificateMessage_keepsProtection fun _ =>
    Makes.bind (authenticateServer_keepsProtection _) fun _ =>
    Makes.bind readServerFinished_keepsProtection fun _ =>
    Makes.bind deriveApplicationSecrets_keepsProtection fun _ => sendClientFlight_keepsProtection _ _

theorem deriveHandshakeKeys_protects {agreement : Tls13Agreement}
    (h : deriveHandshakeKeys E agreement s = .ok u t) : t.tls13RecordProtection = true := by
  obtain ⟨_, t₁, -, h⟩ := bind_eq_ok h
  obtain ⟨_, t₂, -, h⟩ := bind_eq_ok h
  obtain ⟨_, t₃, -, h⟩ := bind_eq_ok h
  obtain ⟨_, t₄, -, h⟩ := bind_eq_ok h
  obtain ⟨_, t₅, -, h⟩ := bind_eq_ok h
  obtain ⟨_, _, hget, h⟩ := bind_eq_ok h
  cases hget
  obtain ⟨states, t₆, ht₆, h⟩ := bind_eq_ok h
  cases h
  rfl

theorem connectTls13_protects (h : connectTls13 E options s = .ok u t) :
    t.tls13RecordProtection = true := by
  obtain ⟨agreement, t₁, -, h⟩ := bind_eq_ok h
  obtain ⟨_, t₂, ht₂, h⟩ := bind_eq_ok h
  obtain ⟨_, t₃, ht₃, h⟩ := bind_eq_ok h
  have hkeeps : t₃.tls13RecordProtection = t₂.tls13RecordProtection :=
    eq_of_noStep ((finishHandshake_keepsProtection agreement t₂).ok ht₃)
  obtain ⟨_, _, hget, h⟩ := bind_eq_ok h
  cases hget
  obtain ⟨states, t₄, ht₄, h⟩ := bind_eq_ok h
  obtain ⟨-, rfl⟩ := ofExcept_eq_ok ht₄
  cases h
  exact hkeeps.trans (deriveHandshakeKeys_protects ht₂)

theorem connectTls13_full {start : TlsConnection}
    (h : connectTls13 E options (prepared options start) = .ok () s) : s.context.FullSecrets := by
  obtain ⟨schedule, hholds⟩ := connectTls13_secrets rfl h
  rw [TlsContext.FullSecrets, TlsContext.digestLength, hholds.handshake.secretLength,
    hholds.handshake.algorithm]
  rfl

/-! ## Runs -/

/-- What changes the keys of an established connection. -/
inductive Exchange where
  | record (fragment : Bytes)
  | send (data : Bytes)

/-- The KeyUpdates that a step receives. -/
def Exchange.keyUpdates : Exchange → List Tls13KeyUpdateRequest
  | .record fragment => keyUpdatesIn fragment
  | .send _ => []

/-- A record that holds a KeyUpdate, or more than one. -/
def Exchange.updates (event : Exchange) : Bool := event.keyUpdates ≠ []

/-- Whether the client owes an answer, by whether it did before: the server asks for it, and the
client gives it with the next octet that it sends. -/
def Exchange.owes (owed : Bool) : Exchange → Bool
  | .record fragment => owed || .updateRequested ∈ keyUpdatesIn fragment
  | .send data => owed && data = []

/-- How many records of a run hold a KeyUpdate. -/
def updatingRecords (events : List Exchange) : ℕ := events.countP (·.updates)

/-- How many KeyUpdates a run receives. -/
def receivedKeyUpdates (events : List Exchange) : ℕ :=
  (events.map (·.keyUpdates.length)).sum

/-- Where no record holds a second KeyUpdate, the records stand for their KeyUpdates. -/
theorem updatingRecords_eq {events : List Exchange}
    (h : ∀ event ∈ events, event.keyUpdates.length ≤ 1) :
    updatingRecords events = receivedKeyUpdates events := by
  induction events with
  | nil => rfl
  | cons event events ih =>
    have hevent : event.updates.toNat = event.keyUpdates.length := by
      have hone := h event (List.mem_cons_self ..)
      by_cases hnone : event.keyUpdates = []
      · rw [Exchange.updates, decide_eq_false (not_not_intro hnone), hnone]
        rfl
      · rw [Exchange.updates, decide_eq_true hnone]
        exact (Nat.le_antisymm hone (List.length_pos_iff.2 hnone)).symm
    have hrest := ih fun later hlater => h later (List.mem_cons_of_mem _ hlater)
    have hsum : receivedKeyUpdates (event :: events) =
        event.keyUpdates.length + receivedKeyUpdates events := List.sum_cons
    rw [updatingRecords, List.countP_cons, ← updatingRecords, hrest, hsum, ← hevent, Nat.add_comm]
    cases event.updates with
    | false => rfl
    | true => rfl

theorem updatingRecords_append (events : List Exchange) (event : Exchange) :
    updatingRecords (events ++ [event]) = updatingRecords events + event.updates.toNat := by
  rw [updatingRecords, updatingRecords, List.countP_append, List.countP_singleton]
  cases event.updates with
  | false => rfl
  | true => rfl

/-- Whether the client owes an answer behind a run. -/
def owesAnswer (events : List Exchange) : Bool := events.foldl Exchange.owes false

theorem owesAnswer_append (events : List Exchange) (event : Exchange) :
    owesAnswer (events ++ [event]) = event.owes (owesAnswer events) := List.foldl_append

/-- The messages of post-handshake records are tickets and KeyUpdates. -/
def Exchange.TicketsAndUpdates : Exchange → Prop
  | .record fragment => ∀ message ∈ postHandshakeMessages fragment, message.TicketOrUpdate
  | .send _ => True

/-- A run of a connection: records are read, plaintext is handed over, post-handshake records
are accepted, and data is sent. -/
inductive Exchanged (E : Environment) (s : TlsConnection) : List Exchange → TlsConnection → Prop
  | start : Exchanged E s [] s
  | read {events : List Exchange} {t u : TlsConnection} {record : TlsMutablePlaintextRecord}
      (h : Exchanged E s events t) (hread : readRecord E t = .ok record u) :
      Exchanged E s events u
  | handedOver {events : List Exchange} {t : TlsConnection} (plaintext : Bytes)
      (h : Exchanged E s events t) : Exchanged E s events { t with plaintext := plaintext }
  | record {events : List Exchange} {t u : TlsConnection} (fragment : Bytes)
      (h : Exchanged E s events t)
      (hrecord : consumeTls13PostHandshakeRecord E fragment t = .ok () u) :
      Exchanged E s (events ++ [.record fragment]) u
  | send {events : List Exchange} {t u : TlsConnection} (data : Bytes)
      (h : Exchanged E s events t) (hsend : TlsConnection.send E data t = .ok () u) :
      Exchanged E s (events ++ [.send data]) u

/-- What a run leaves of the keys that it has started with. -/
structure KeepsPace (K : KeyFunctions) (s : TlsConnection) (events : List Exchange)
    (t : TlsConnection) : Prop where
  protection : t.tls13RecordProtection = true
  algorithm : t.context.algorithm = s.context.algorithm
  full : t.context.FullSecrets
  server : t.context.applicationTrafficSecret false =
    (K.trafficUpdate s.context.algorithm)^[updatingRecords events]
      (s.context.applicationTrafficSecret false)
  owed : owesAnswer events = true → t.peerRequestedKeyUpdate = true

variable {events : List Exchange}

theorem KeepsPace.of_lanes {u : TlsConnection}
    (h : KeepsPace K s events t) (hu : u.lanes = t.lanes) : KeepsPace K s events u where
  protection := (congrArg Lanes.tls13RecordProtection hu).trans h.protection
  algorithm := (congrArg (·.context.algorithm) hu).trans h.algorithm
  full := by
    have hcontext : u.lanes.context = t.lanes.context := congrArg Lanes.context hu
    have hfull : u.lanes.context.FullSecrets := hcontext ▸ h.full
    exact hfull
  server := (congrArg (·.context.applicationTrafficSecret false) hu).trans h.server
  owed howed := (congrArg Lanes.peerRequestedKeyUpdate hu).trans (h.owed howed)

theorem KeepsPace.record {u : TlsConnection} (h : KeepsPace E.keys s events t)
    (hmessages : ∀ message ∈ postHandshakeMessages fragment, message.TicketOrUpdate)
    (hrecord : consumeTls13PostHandshakeRecord E fragment t = .ok () u) :
    KeepsPace E.keys s (events ++ [.record fragment]) u := by
  obtain ⟨v, htakes, rfl⟩ := consumeTls13PostHandshakeRecord_takes h.full hmessages hrecord
  have hlanes := htakes.lanes
  simp only [Bool.false_eq_true, false_or] at hlanes
  have howed : owesAnswer (events ++ [.record fragment]) = true →
      (v.peerRequestedKeyUpdate || decide (.updateRequested ∈ keyUpdatesIn fragment)) = true := by
    have hv : v.peerRequestedKeyUpdate = t.peerRequestedKeyUpdate := by
      split at hlanes
      · exact congrArg Lanes.peerRequestedKeyUpdate hlanes
      · exact congrArg Lanes.peerRequestedKeyUpdate hlanes
    rw [hv, owesAnswer_append, Exchange.owes, Bool.or_eq_true, Bool.or_eq_true]
    exact Or.imp_left h.owed
  by_cases hnone : keyUpdatesIn fragment = []
  · rw [if_pos hnone] at hlanes
    have hv := h.of_lanes hlanes
    refine ⟨hv.protection, hv.algorithm, hv.full, ?_, howed⟩
    have hupdates : (Exchange.record fragment).updates = false :=
      decide_eq_false (not_not_intro hnone)
    rw [updatingRecords_append, hupdates]
    exact hv.server
  · rw [if_neg hnone] at hlanes
    refine ⟨(congrArg Lanes.tls13RecordProtection hlanes).trans h.protection,
      (congrArg (·.context.algorithm) hlanes).trans h.algorithm, htakes.full h.full, ?_, howed⟩
    have hupdates : (Exchange.record fragment).updates = true := decide_eq_true hnone
    rw [updatingRecords_append, hupdates, Bool.toNat_true,
      Function.iterate_succ_apply', ← h.server, ← h.algorithm]
    exact congrArg (·.context.applicationTrafficSecret false) hlanes

theorem send_keeps {u : TlsConnection} (hfull : t.context.FullSecrets)
    (hprotected : t.tls13RecordProtection = true) (h : send E data t = .ok () u) :
    u.tls13RecordProtection = true ∧
      (u.lanes.context = t.lanes.context ∨ u.lanes.context = t.lanes.context.updated E.keys true) ∧
      (data = [] → u.lanes = t.lanes) := by
  rcases send_cases (E := E) data t with heq | heq
  · rw [heq] at h
    match data, h with
    | [], h =>
      cases h
      exact ⟨hprotected, .inl rfl, fun _ => rfl⟩
    | c :: data, h =>
      cases howed : t.peerRequestedKeyUpdate with
      | true =>
        obtain ⟨key, fragments, -, -, hlanes⟩ :=
          (sendFrom_answersFirst _ (List.cons_ne_nil c data) hfull hprotected howed).1 u h
        have hcontext : u.lanes.context = t.lanes.context.updated E.keys true := by
          rw [hlanes, wroteAll_context, answered, Lanes.clientUpdated]
        have hprotection : u.tls13RecordProtection = t.tls13RecordProtection :=
          (congrArg Lanes.tls13RecordProtection hlanes).trans (wroteAll_protection _ _)
        exact ⟨hprotection.trans hprotected, .inr hcontext, nofun⟩
      | false =>
        obtain ⟨fragments, -, hlanes⟩ := (sendFrom_lanes _ _ t hprotected howed).ok h
        have hcontext : u.lanes.context = t.lanes.context := by rw [hlanes, wroteAll_context]
        have hprotection : u.tls13RecordProtection = t.tls13RecordProtection :=
          (congrArg Lanes.tls13RecordProtection hlanes).trans (wroteAll_protection _ _)
        exact ⟨hprotection.trans hprotected, .inl hcontext, nofun⟩
  · rw [heq] at h
    cases h

theorem KeepsPace.send {u : TlsConnection}
    (h : KeepsPace E.keys s events t) (hsend : TlsConnection.send E data t = .ok () u) :
    KeepsPace E.keys s (events ++ [.send data]) u := by
  obtain ⟨hprotection, hcontext, hnone⟩ := send_keeps h.full h.protection hsend
  have hcount : updatingRecords (events ++ [.send data]) = updatingRecords events :=
    updatingRecords_append _ _
  have howed : owesAnswer (events ++ [.send data]) = true → u.peerRequestedKeyUpdate = true := by
    rw [owesAnswer_append, Exchange.owes, Bool.and_eq_true, decide_eq_true_eq]
    rintro ⟨howed, hdata⟩
    exact (congrArg Lanes.peerRequestedKeyUpdate (hnone hdata)).trans (h.owed howed)
  have hkeeps : u.lanes.context.algorithm = t.context.algorithm ∧ u.lanes.context.FullSecrets ∧
      u.lanes.context.applicationTrafficSecret false =
        t.context.applicationTrafficSecret false := by
    rcases hcontext with hcontext | hcontext
    · rw [hcontext]
      exact ⟨rfl, h.full, rfl⟩
    · rw [hcontext]
      exact ⟨rfl, h.full, rfl⟩
  obtain ⟨halgorithm, hfull, hserver⟩ := hkeeps
  exact ⟨hprotection, halgorithm.trans h.algorithm, hfull, hcount ▸ hserver.trans h.server, howed⟩

theorem Exchanged.keepsPace (hs : s.tls13RecordProtection = true)
    (hfull : s.context.FullSecrets) (h : Exchanged E s events t)
    (hevents : ∀ event ∈ events, event.TicketsAndUpdates) : KeepsPace E.keys s events t := by
  induction h with
  | start => exact ⟨hs, rfl, hfull, rfl, nofun⟩
  | read h hread ih =>
    exact (ih hevents).of_lanes (eq_of_noStep ((readRecord_makes lanes_ignoresReading E _).ok hread))
  | handedOver plaintext h ih => exact (ih hevents).of_lanes rfl
  | record fragment h hrecord ih =>
    have hrecords := ih fun event he => hevents event (List.mem_append_left _ he)
    exact hrecords.record (hevents _ (List.mem_append_right _ (List.mem_singleton_self _))) hrecord
  | send data h hsend ih =>
    exact (ih fun event he => hevents event (List.mem_append_left _ he)).send hsend

/-- **Both directions keep pace** behind a run: the server's secret has been updated once for each
    KeyUpdate received, the server's key follows its secret, and an answer that is owed goes out
    in front of the next octet. -/
structure LockStep (E : Environment) (s : TlsConnection) (events : List Exchange)
    (t : TlsConnection) : Prop where
  server : t.context.applicationTrafficSecret false =
    (E.keys.trafficUpdate s.context.algorithm)^[receivedKeyUpdates events]
      (s.context.applicationTrafficSecret false)
  follows : ∀ fragment u, (Exchange.record fragment).TicketsAndUpdates →
    consumeTls13PostHandshakeRecord E fragment t = .ok () u → keyUpdatesIn fragment ≠ [] →
    t.serverKey E.keys = .ok u.serverWriteState
  answers : owesAnswer events = true → ∀ data ≠ [], AnswersFirst E data t

/-- The keys behind a handshake and any run of tickets, KeyUpdates and sends in which no record
    holds a second KeyUpdate. -/
theorem connectTls13_lockStep (start : TlsConnection)
    (hconnect : connectTls13 E options (prepared options start) = .ok () s)
    {events : List Exchange} (h : Exchanged E (releaseHandshakeScratch s) events t)
    (hevents : ∀ event ∈ events, event.TicketsAndUpdates)
    (hone : ∀ event ∈ events, event.keyUpdates.length ≤ 1) : LockStep E s events t := by
  have hprotected : s.tls13RecordProtection = true := connectTls13_protects hconnect
  have hfull : s.context.FullSecrets := connectTls13_full hconnect
  have hpace := Exchanged.keepsPace (s := s.releaseHandshakeScratch) hprotected hfull h hevents
  have hserver := updatingRecords_eq hone ▸ hpace.server
  refine ⟨hserver, fun fragment u hmessages hrecord hne => ?_, fun howed data hdata => ?_⟩
  · obtain ⟨v, htakes, rfl⟩ :=
      consumeTls13PostHandshakeRecord_takes hpace.full hmessages hrecord
    exact htakes.derived (by simp [hne])
  · exact send_answersFirst hdata hpace.full hpace.protection (hpace.owed howed)

def separatedConnection : TlsConnection :=
  after (connectTls13 plainEnvironment plainOptions) (prepared plainOptions separatedServer)

/-- The connection behind a post-handshake record. -/
def updatedConnection (fragment : Bytes) : TlsConnection :=
  after (consumeTls13PostHandshakeRecord plainEnvironment fragment)
    (releaseHandshakeScratch separatedConnection)

theorem separatedServer_checked :
    returns (connectTls13 plainEnvironment plainOptions)
        (prepared plainOptions separatedServer) = true ∧
      returns (consumeTls13PostHandshakeRecord plainEnvironment
        (encodeKeyUpdate .updateRequested)) (releaseHandshakeScratch separatedConnection) = true ∧
      ∀ message ∈ postHandshakeMessages (encodeKeyUpdate .updateRequested),
        message.type = .newSessionTicket ∨ message.type = .keyUpdate := by
  refine ⟨?_, ?_, ?_⟩
  all_goals decide +kernel

theorem separatedServer_connects :
    connectTls13 plainEnvironment plainOptions (prepared plainOptions separatedServer) =
      .ok () separatedConnection :=
  eq_ok_of_returns separatedServer_checked.1

theorem connectTls13_lockStep_requested :
    LockStep plainEnvironment separatedConnection [.record (encodeKeyUpdate .updateRequested)]
      (updatedConnection (encodeKeyUpdate .updateRequested)) := by
  have hrecord : consumeTls13PostHandshakeRecord plainEnvironment
      (encodeKeyUpdate .updateRequested) (releaseHandshakeScratch separatedConnection) =
      .ok () (updatedConnection (encodeKeyUpdate .updateRequested)) :=
    eq_ok_of_returns separatedServer_checked.2.1
  refine connectTls13_lockStep separatedServer separatedServer_connects
    (.record _ .start hrecord) (fun event he => ?_) (fun event he => ?_)
  · obtain rfl := List.mem_singleton.1 he
    exact separatedServer_checked.2.2
  · obtain rfl := List.mem_singleton.1 he
    exact (by decide +kernel : (keyUpdatesIn (encodeKeyUpdate .updateRequested)).length ≤ 1)

/-- Two KeyUpdates in one record. -/
def twoKeyUpdates : Bytes := encodeKeyUpdate .updateRequested ++ encodeKeyUpdate .updateRequested

example : keyUpdatesIn twoKeyUpdates = [.updateRequested, .updateRequested] := by decide +kernel

/-- The record is accepted, and its second KeyUpdate does not change the key. -/
theorem twoKeyUpdates_updateOnce :
    consumeTls13PostHandshakeRecord plainEnvironment twoKeyUpdates
        (releaseHandshakeScratch separatedConnection) =
      .ok () (updatedConnection twoKeyUpdates) ∧
    (postHandshakeMessages twoKeyUpdates).map (·.type) = [.keyUpdate, .keyUpdate] ∧
    (updatedConnection twoKeyUpdates).context.applicationTrafficSecret false ≠
      (plainEnvironment.keys.trafficUpdate separatedConnection.context.algorithm)^[2]
        (separatedConnection.context.applicationTrafficSecret false) :=
  ⟨eq_ok_of_returns (by decide +kernel), by decide +kernel, by decide +kernel⟩

end TlsConnection

/-! ## The numbers of the records -/

/-- The state is of a generation of the client's secret, and has a number. -/
def TlsContext.Seals (context : TlsContext) (K : KeyFunctions) (mark : ℕ × ℕ)
    (state : TlsAeadCipherState) : Prop :=
  deriveTrafficState K.trafficExpand context.cipherSuite
      ((K.trafficUpdate context.algorithm)^[mark.1] (context.applicationTrafficSecret true)) =
    .ok { state with sequenceNumber := 0 } ∧ state.sequenceNumber.toNat = mark.2

/-- The generation is later, or the number is. -/
def SealedBefore (a b : ℕ × ℕ) : Prop := a.1 < b.1 ∨ a.1 = b.1 ∧ a.2 < b.2

theorem pairwise_sealedBefore {marks : List (ℕ × ℕ)} {a b : ℕ × ℕ}
    (h : (marks ++ [a]).Pairwise SealedBefore) (hab : SealedBefore a b) :
    (marks ++ [b]).Pairwise SealedBefore ∧ ((marks ++ [a]) ++ [b]).Pairwise SealedBefore := by
  obtain ⟨hmarks, -, hlast⟩ := List.pairwise_append.1 h
  have hb : ∀ x ∈ marks, SealedBefore x b := by
    intro x hx
    have := hlast x hx a List.mem_cons_self
    unfold SealedBefore at *
    omega
  simp only [List.pairwise_append, List.mem_append, List.mem_singleton, List.pairwise_singleton]
  grind

/-- Records that are sealed in order, and the secrets and the state behind them. -/
structure SealedInOrder (K : KeyFunctions) (start context : TlsContext) (key : TlsAeadCipherState)
    (records : List SentRecord) : Prop where
  suite : context.cipherSuite = start.cipherSuite
  algorithm : context.algorithm = start.algorithm
  full : context.FullSecrets
  marked : ∃ marks mark states, context.applicationTrafficSecret true =
      (K.trafficUpdate start.algorithm)^[mark.1] (start.applicationTrafficSecret true) ∧
    records.map (·.protection) = states.map some ∧ List.Forall₂ (start.Seals K) marks states ∧
    start.Seals K mark key ∧ (marks ++ [mark]).Pairwise SealedBefore

theorem Step.sealedInOrder {E : Environment} {start : TlsContext} {before : List SentRecord}
    {c d : Core} (hstep : Step E c d)
    (h : ∃ records, c.sent = before ++ records ∧
      SealedInOrder E.keys start c.context c.clientWriteState records) :
    ∃ records, d.sent = before ++ records ∧
      SealedInOrder E.keys start d.context d.clientWriteState records := by
  obtain ⟨records, hsent, horder⟩ := id h
  obtain ⟨hsuite, halgorithm, hfull, marks, mark, states, hsecret, hstates, hmarks, hmark, hbefore⟩ :=
    id horder
  cases hstep with
  | sent plaintext hmax =>
    have hlt : c.clientWriteState.sequenceNumber.toNat + 1 < 2 ^ 64 := by
      have hne : c.clientWriteState.sequenceNumber.toNat ≠ 2 ^ 64 - 1 := fun h0 =>
        hmax (UInt64.toNat_inj.1 h0)
      have := c.clientWriteState.sequenceNumber.toNat_lt
      omega
    refine ⟨records ++ [_], by rw [hsent, List.append_assoc], hsuite, halgorithm, hfull,
      marks ++ [mark], (mark.1, mark.2 + 1), states ++ [c.clientWriteState], hsecret, ?_,
      List.rel_append hmarks (.cons hmark .nil), ⟨hmark.1, ?_⟩,
      (pairwise_sealedBefore (b := (mark.1, mark.2 + 1)) hbefore (.inr ⟨rfl, Nat.lt_succ_self _⟩)).2⟩
    · rw [List.map_append, hstates, List.map_append]
      rfl
    · rw [← hmark.2]
      exact (UInt64.toNat_add _ _).trans (Nat.mod_eq_of_lt hlt)
  | ticketStored ticket _ _ hcontext =>
    obtain ⟨_, _, hcontext⟩ := Incremental.bind_eq_ok hcontext
    cases hcontext
    exact ⟨records, hsent, hsuite, halgorithm, hfull, marks, mark, states, hsecret, hstates, hmarks,
      hmark, hbefore⟩
  | clientUpdated _ state hupdate =>
    obtain ⟨rfl, hkey⟩ := TlsConnection.update_eq_ok hfull hupdate
    rw [hsuite, halgorithm, hsecret,
      ← Function.iterate_succ_apply' (E.keys.trafficUpdate start.algorithm)] at hkey
    refine ⟨records, hsent, hsuite, halgorithm, hfull, marks, (mark.1 + 1, 0), states, ?_, hstates,
      hmarks, ⟨?_, ?_⟩, (pairwise_sealedBefore hbefore (.inl (Nat.lt_succ_self _))).1⟩
    · rw [Function.iterate_succ_apply', ← hsecret, ← halgorithm]
      rfl
    · rw [hkey]
      exact congrArg _ (TlsConnection.deriveTrafficState_sequenceNumber hkey).symm
    · exact congrArg (fun key => key.sequenceNumber.toNat)
        (TlsConnection.deriveTrafficState_sequenceNumber hkey).symm
  | serverUpdated _ state hupdate =>
    obtain ⟨rfl, -⟩ := TlsConnection.update_eq_ok hfull hupdate
    exact ⟨records, hsent, hsuite, halgorithm, hfull, marks, mark, states, hsecret, hstates, hmarks,
      hmark, hbefore⟩
  | consumed =>
    rw [Core.consumed]
    split
    · exact h
    · exact h
  | _ => exact h

/-- **No number is used twice**: whatever follows the handshake, every record that is sent is
protected, under a generation of the client's secret and a number that no record before it had. -/
theorem TlsConnection.connectTls13_sealedInOrder {E : Environment}
    {options : TlsClientConnectionOptions} {start s : TlsConnection}
    (h : connectTls13 E options (prepared options start) = .ok () s) (calls : List Call) :
    ∃ records,
      (calls.foldl (fun s call => call.run E s) s).history.sent = s.history.sent ++ records ∧
      SealedInOrder E.keys s.context (calls.foldl (fun s call => call.run E s) s).context
        (calls.foldl (fun s call => call.run E s) s).clientWriteState records := by
  have hfull := connectTls13_full h
  obtain ⟨_, t₁, -, h⟩ := bind_eq_ok h
  obtain ⟨_, t₂, -, h⟩ := bind_eq_ok h
  obtain ⟨_, t₃, -, h⟩ := bind_eq_ok h
  obtain ⟨_, _, hget, h⟩ := bind_eq_ok h
  cases hget
  obtain ⟨states, t₄, ht₄, h⟩ := bind_eq_ok h
  obtain ⟨hstates, rfl⟩ := ofExcept_eq_ok ht₄
  obtain ⟨client, hclient, hstates⟩ := Incremental.bind_eq_ok hstates
  obtain ⟨server, -, hstates⟩ := Incremental.bind_eq_ok hstates
  cases hstates
  cases h
  obtain ⟨_, -, hkey⟩ := Incremental.bind_eq_ok hclient
  have hzero := deriveTrafficState_sequenceNumber hkey
  refine Program.invariant_of_steps (I := fun c : Core => ∃ records, c.sent = _ ++ records ∧
    SealedInOrder E.keys _ c.context c.clientWriteState records)
    (fun _ _ => Step.sealedInOrder) (calls_steps E calls _)
    ⟨[], (List.append_nil _).symm, rfl, rfl, hfull, [], (0, 0), [], rfl, rfl, .nil, ⟨?_, ?_⟩,
      List.pairwise_singleton _ _⟩
  · exact hkey.trans (congrArg Except.ok hzero.symm)
  · exact congrArg (fun key => key.sequenceNumber.toNat) hzero.symm

theorem TlsConnection.connectTls13_sealedInOrder_twice :
    ∃ records, ([Call.send [1], .send [2]].foldl (fun s call => call.run plainEnvironment s)
        separatedConnection).history.sent = separatedConnection.history.sent ++ records ∧
      SealedInOrder plainEnvironment.keys separatedConnection.context
        ([Call.send [1], .send [2]].foldl (fun s call => call.run plainEnvironment s)
          separatedConnection).context
        ([Call.send [1], .send [2]].foldl (fun s call => call.run plainEnvironment s)
          separatedConnection).clientWriteState records :=
  connectTls13_sealedInOrder separatedServer_connects _

end KernelHttp.Tls
