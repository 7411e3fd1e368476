/-
  What a TLS connection says and hears.

  `Dialogue` is what the two ends have said to each other, with the context, the write state
  and the transcript.  Each program of a handshake is looked at as what it adds to it.
-/
import KernelHttp.Tls.Steps

namespace KernelHttp.Tls

open Program Relation BigEndian

/-- What has been said, with what the client derives from it. -/
structure Dialogue where
  context : TlsContext
  clientWriteState : TlsAeadCipherState
  transcriptAlgorithm : HashAlgorithm
  transcript : Bytes
  messages : List HandshakeEntry
  sent : List SentRecord
  recordPaddingLength : ℕ
  policyIdentity : ℕ
  externalSessionCache : Option (List Tls13SessionTicket)

def TlsConnection.dialogue (s : TlsConnection) : Dialogue where
  context := s.context
  clientWriteState := s.clientWriteState
  transcriptAlgorithm := s.transcriptAlgorithm
  transcript := s.transcript
  messages := s.history.messages
  sent := s.history.sent
  recordPaddingLength := s.recordPaddingLength
  policyIdentity := s.policyIdentity
  externalSessionCache := s.externalSessionCache

theorem TlsConnection.dialogue_ignoresReading : IgnoresReading TlsConnection.dialogue :=
  fun _ _ _ _ _ _ _ _ _ => rfl

namespace Dialogue

variable (d : Dialogue)

/-- A message of the server. -/
def heard (entry : HandshakeEntry) (updateTranscript : Bool) : Dialogue :=
  { d with
    transcript := d.transcript ++ if updateTranscript then entry.octets else []
    messages := d.messages ++ [entry] }

/-- A message of the client. -/
def said (octets : Bytes) : Dialogue :=
  { d with
    transcript := d.transcript ++ octets
    messages := d.messages ++ [{ sender := .client, octets }] }

/-- A protected record. -/
def wrote (contentType : TlsContentType) (fragment : Bytes) : Dialogue :=
  { d with
    clientWriteState := d.clientWriteState.next
    sent := d.sent ++ [⟨contentType, fragment, some d.clientWriteState⟩] }

/-- Protected records, one after the other. -/
def wroteAll (contentType : TlsContentType) (fragments : List Bytes) : Dialogue :=
  fragments.foldl (·.wrote contentType) d

/-- A record that is not protected. -/
def wrotePlain (contentType : TlsContentType) (fragment : Bytes) : Dialogue :=
  { d with sent := d.sent ++ [⟨contentType, fragment, none⟩] }

/-- Messages of the server, all of which enter the transcript. -/
def heardAll (entries : List HandshakeEntry) : Dialogue :=
  { d with
    transcript := d.transcript ++ (entries.map (·.octets)).flatten
    messages := d.messages ++ entries }

/-- Messages of the client, each in a protected record. -/
def saidAll (messages : List Bytes) : Dialogue :=
  messages.foldl (fun d octets => (d.said octets).wrote .handshake octets) d

theorem heardAll_heardAll (entries more : List HandshakeEntry) :
    (d.heardAll entries).heardAll more = d.heardAll (entries ++ more) := by
  simp only [heardAll, List.map_append, List.flatten_append, List.append_assoc]

theorem heard_eq_heardAll (entry : HandshakeEntry) : d.heard entry true = d.heardAll [entry] := by
  simp only [heard, heardAll, if_true, List.map_cons, List.map_nil, List.flatten_cons,
    List.flatten_nil, List.append_nil]

theorem heard_false (entry : HandshakeEntry) :
    { d.heard entry false with transcript := d.transcript ++ entry.octets } =
      d.heard entry true := by
  simp only [heard, if_true, Bool.false_eq_true, if_false]

theorem saidAll_append (messages more : List Bytes) :
    d.saidAll (messages ++ more) = (d.saidAll messages).saidAll more := List.foldl_append

variable {d}

theorem wroteAll_messages (contentType : TlsContentType) (fragments : List Bytes) :
    (d.wroteAll contentType fragments).messages = d.messages := by
  induction fragments generalizing d with
  | nil => rfl
  | cons fragment fragments ih => exact ih

theorem wroteAll_externalSessionCache (contentType : TlsContentType) (fragments : List Bytes) :
    (d.wroteAll contentType fragments).externalSessionCache = d.externalSessionCache := by
  induction fragments generalizing d with
  | nil => rfl
  | cons fragment fragments ih => exact ih

theorem wroteAll_context (contentType : TlsContentType) (fragments : List Bytes) :
    (d.wroteAll contentType fragments).context = d.context := by
  induction fragments generalizing d with
  | nil => rfl
  | cons fragment fragments ih => exact ih

theorem saidAll_messages (messages : List Bytes) : (d.saidAll messages).messages =
    d.messages ++ messages.map fun octets => { sender := .client, octets } := by
  induction messages generalizing d with
  | nil => exact (List.append_nil _).symm
  | cons octets messages ih =>
    refine ih.trans ?_
    rw [List.map_cons]
    exact List.append_assoc _ _ _

theorem saidAll_externalSessionCache (messages : List Bytes) :
    (d.saidAll messages).externalSessionCache = d.externalSessionCache := by
  induction messages generalizing d with
  | nil => rfl
  | cons octets messages ih => exact ih

theorem saidAll_context (messages : List Bytes) : (d.saidAll messages).context = d.context := by
  induction messages generalizing d with
  | nil => rfl
  | cons octets messages ih => exact ih

end Dialogue

/-! ## Programs that add nothing -/

/-- The program adds nothing to the dialogue. -/
abbrev Silent {α : Type} (p : TlsProgram α) : Prop :=
  Makes TlsConnection.dialogue (fun _ _ => False) p

theorem eq_of_noStep {κ : Type} {a b : κ} (h : ReflTransGen (fun _ _ : κ => False) a b) : b = a :=
  (reflTransGen_iff_eq fun _ => id).1 h

variable {data : Bytes} {s s' : TlsConnection} {message : TlsHandshakeMessageView}

theorem Silent.ok {α : Type} {p : TlsProgram α} (hp : Silent p) {a : α}
    (h : p s = .ok a s') : s'.dialogue = s.dialogue := eq_of_noStep ((hp s).ok h)

theorem Silent.error {α : Type} {p : TlsProgram α} (hp : Silent p)
    {status : NTSTATUS} (h : p s = .error status s') : s'.dialogue = s.dialogue :=
  eq_of_noStep ((hp s).error h)

/-! ## Messages of the server -/

theorem parseMessage_eq_ok (h : parseMessage data = .ok message) :
    data.take message.bytesConsumed = handshakeMessage message.type message.body := by
  rw [parseMessage.eq_def] at h
  split at h
  · case h_1 type l₁ l₂ l₃ rest =>
    dsimp only at h
    split_ifs at h with hlen
    obtain rfl := Except.ok.inj h
    have htake : (rest.take (ofBigEndian [l₁, l₂, l₃])).length = ofBigEndian [l₁, l₂, l₃] := by
      rw [List.length_take]
      omega
    have hlength := bigEndian_ofBigEndian [l₁, l₂, l₃]
    rw [handshakeMessage, htake, show bigEndian 3 _ = _ from hlength]
    simp only [TlsHandshakeMessageView.bytesConsumed, tlsHandshakeHeaderLength, htake]
    rw [Nat.add_comm, List.take_succ_cons, List.take_succ_cons, List.take_succ_cons,
      List.take_succ_cons]
    rfl
  · cases h

/-- A message that was taken from the front of its input parses by itself. -/
theorem parseMessage_take (h : parseMessage data = .ok message) :
    parseMessage (data.take message.bytesConsumed) = .ok message := by
  rw [parseMessage.eq_def] at h
  split at h
  · case h_1 type l₁ l₂ l₃ rest =>
    dsimp only at h
    split_ifs at h with hlen
    obtain rfl := Except.ok.inj h
    have htake : (rest.take (ofBigEndian [l₁, l₂, l₃])).length = ofBigEndian [l₁, l₂, l₃] := by
      rw [List.length_take]
      omega
    simp only [TlsHandshakeMessageView.bytesConsumed, tlsHandshakeHeaderLength, htake]
    rw [Nat.add_comm, List.take_succ_cons, List.take_succ_cons, List.take_succ_cons,
      List.take_succ_cons, parseMessage, htake, if_neg (lt_irrefl _), List.take_take, min_self]
  · cases h

namespace TlsConnection

variable {E : Environment} {s s' : TlsConnection} {message : TlsHandshakeMessageView}
  {updateTranscript : Bool}

theorem parseBuffered_eq_ok (h : parseBuffered s = .ok message) :
    parseMessage s.unread = .ok message := by
  rw [parseBuffered] at h
  split_ifs at h
  exact h

/-- The message was heard, and is the one that was read last. -/
structure Heard (message : TlsHandshakeMessageView) (updateTranscript : Bool)
    (s s' : TlsConnection) : Prop where
  parsed : parseMessage s'.lastHandshake = .ok message
  dialogue : ∃ entry : HandshakeEntry, entry.sender = .server ∧ entry.octets = s'.lastHandshake ∧
    s'.dialogue = s.dialogue.heard entry updateTranscript

theorem consume_dialogue (s : TlsConnection) (n : ℕ) : (s.consume n).dialogue = s.dialogue := by
  rw [consume]
  split
  · rfl
  · rfl

theorem takeHandshakeMessage_heard {parsed : TlsHandshakeMessageView}
    (hparse : parseBuffered s = .ok parsed)
    (h : takeHandshakeMessage parsed updateTranscript s = .ok message s') :
    message = parsed ∧ Heard parsed updateTranscript s s' := by
  have hparsed := parseMessage_take (parseBuffered_eq_ok hparse)
  obtain ⟨_, _, hget, h⟩ := bind_eq_ok h
  cases hget
  obtain ⟨_, t, ht, h⟩ := bind_eq_ok h
  obtain ⟨_, u, hu, h⟩ := bind_eq_ok h
  cases hu
  obtain ⟨_, v, hw, h⟩ := bind_eq_ok h
  cases hw
  cases h
  refine ⟨rfl, hparsed, s.receivedEntry message.bytesConsumed, rfl, rfl, ?_⟩
  refine (consume_dialogue _ _).trans ?_
  cases updateTranscript with
  | true =>
    obtain ⟨-, ht⟩ | ⟨hn, -⟩ := when_eq_ok ht
    · cases ht
      rfl
    · exact absurd rfl hn
  | false =>
    obtain ⟨hn, -⟩ | ⟨-, rfl⟩ := when_eq_ok ht
    · cases hn
    · simp only [Dialogue.heard, Bool.false_eq_true, if_false, List.append_nil]
      rfl

theorem keepIncomplete_silent (status : NTSTATUS) : Silent (keepIncomplete status) :=
  Makes.bind (Makes.require _) fun _ => Makes.modify_aside fun _ => rfl

theorem bufferHandshakeRecord_silent : Silent (bufferHandshakeRecord E) :=
  Makes.bind (readRecord_makes dialogue_ignoresReading E) fun record =>
    Makes.bind (Makes.require _) fun _ => Makes.get_bind fun s =>
      Makes.composes.bind (Makes.require _ s) fun _ t ht => by
        obtain ⟨-, rfl⟩ := require_eq_ok ht
        exact EndsAt.set .refl

theorem Heard.of_silent {t : TlsConnection} (h : Heard message updateTranscript t s')
    (ht : t.dialogue = s.dialogue) : Heard message updateTranscript s s' :=
  ⟨h.parsed, by rw [← ht]; exact h.dialogue⟩

variable {status : NTSTATUS} {records : ℕ}

theorem readHandshakeMessageFrom_heard
    (h : readHandshakeMessageFrom E updateTranscript records s = .ok message s') :
    Heard message updateTranscript s s' := by
  induction records generalizing s with
  | zero =>
    obtain ⟨_, _, hget, h⟩ := bind_eq_ok h
    cases hget
    cases hparse : parseBuffered s with
    | ok parsed =>
      rw [hparse] at h
      obtain ⟨rfl, hheard⟩ := takeHandshakeMessage_heard hparse h
      exact hheard
    | error status =>
      rw [hparse] at h
      obtain ⟨_, _, -, h⟩ := bind_eq_ok h
      cases h
  | succ records ih =>
    obtain ⟨_, _, hget, h⟩ := bind_eq_ok h
    cases hget
    cases hparse : parseBuffered s with
    | ok parsed =>
      rw [hparse] at h
      obtain ⟨rfl, hheard⟩ := takeHandshakeMessage_heard hparse h
      exact hheard
    | error status =>
      rw [hparse] at h
      obtain ⟨_, t, ht, h⟩ := bind_eq_ok h
      obtain ⟨_, u, hu, h⟩ := bind_eq_ok h
      exact (ih h).of_silent ((bufferHandshakeRecord_silent.ok hu).trans
        ((keepIncomplete_silent status).ok ht))

theorem takeHandshakeMessage_ok (parsed : TlsHandshakeMessageView) (updateTranscript : Bool)
    (s : TlsConnection) : ∃ t, takeHandshakeMessage parsed updateTranscript s = .ok parsed t := by
  cases updateTranscript with
  | true => exact ⟨_, rfl⟩
  | false => exact ⟨_, rfl⟩

theorem readHandshakeMessageFrom_silent
    (h : readHandshakeMessageFrom E updateTranscript records s = .error status s') :
    s'.dialogue = s.dialogue := by
  induction records generalizing s with
  | zero =>
    obtain hget | ⟨_, _, hget, h⟩ := bind_eq_error h
    · cases hget
    cases hget
    cases hparse : parseBuffered s with
    | ok parsed =>
      rw [hparse] at h
      obtain ⟨t, ht⟩ := takeHandshakeMessage_ok parsed updateTranscript s
      cases ht.symm.trans h
    | error status' =>
      rw [hparse] at h
      exact Silent.error (Makes.bind (keepIncomplete_silent status') fun _ => Makes.throw _) h
  | succ records ih =>
    obtain hget | ⟨_, _, hget, h⟩ := bind_eq_error h
    · cases hget
    cases hget
    cases hparse : parseBuffered s with
    | ok parsed =>
      rw [hparse] at h
      obtain ⟨t, ht⟩ := takeHandshakeMessage_ok parsed updateTranscript s
      cases ht.symm.trans h
    | error status' =>
      rw [hparse] at h
      obtain h | ⟨_, t, ht, h⟩ := bind_eq_error h
      · exact (keepIncomplete_silent status').error h
      have hst := (keepIncomplete_silent status').ok ht
      obtain h | ⟨_, u, hu, h⟩ := bind_eq_error h
      · exact (bufferHandshakeRecord_silent.error h).trans hst
      · exact (ih h).trans ((bufferHandshakeRecord_silent.ok hu).trans hst)

/-- A message of the server was heard, or nothing was added. -/
theorem readHandshakeMessage_heard
    (h : readHandshakeMessage E updateTranscript s = .ok message s') :
    Heard message updateTranscript s s' := by
  obtain ⟨_, t, ht, h⟩ := bind_eq_ok h
  cases ht
  exact (readHandshakeMessageFrom_heard h).of_silent rfl

theorem readHandshakeMessage_silent
    (h : readHandshakeMessage E updateTranscript s = .error status s') :
    s'.dialogue = s.dialogue := by
  obtain ht | ⟨_, t, ht, h⟩ := bind_eq_error h
  · cases ht
  cases ht
  have hsilent := readHandshakeMessageFrom_silent h
  exact hsilent

/-! ## Messages of the client -/

variable (E)

/-- A protected record is written; on a failure it may be, too. -/
theorem sendProtectedRecord13_wrote (contentType : TlsContentType) (fragment : Bytes)
    (s : TlsConnection) :
    EndsAt (fun s t => t.dialogue = s.dialogue.wrote contentType fragment)
      (fun _ s t => t.dialogue = s.dialogue ∨ t.dialogue = s.dialogue.wrote contentType fragment)
      s (sendProtectedRecord13 E contentType fragment) := by
  refine EndsAt.get_bind ?_
  have hsend : Silent (sendAll E) := sendAll_makes dialogue_ignoresReading E
  rcases sendRecord_cases E .aesGcm13
    { contentType, fragment, tls13PaddingLength := s.recordPaddingLength } s with
    ⟨status, h⟩ | ⟨-, h⟩
  · rw [EndsAt, h]
    exact .inl rfl
  · rw [endsAt_iff, h]
    exact ⟨fun _ t ht => hsend.ok ht, fun _ t ht => .inr (hsend.error ht)⟩

theorem sendHandshake13_said (octets : Bytes) (s : TlsConnection) :
    EndsAt (fun s t => t.dialogue = (s.dialogue.said octets).wrote .handshake octets)
      (fun _ s t => t.dialogue = s.dialogue.said octets ∨
        t.dialogue = (s.dialogue.said octets).wrote .handshake octets)
      s (sendHandshake13 E octets) :=
  EndsAt.of_eq rfl (sendProtectedRecord13_wrote E .handshake octets
    { s with
      transcript := s.transcript ++ octets
      history := { s.history with
        messages := s.history.messages ++ [{ sender := .client, octets }] } })

theorem sendPlainRecord_wrote (contentType : TlsContentType) (fragment : Bytes)
    (s : TlsConnection) :
    EndsAt (fun s t => t.dialogue = s.dialogue.wrotePlain contentType fragment)
      (fun _ s t => t.dialogue = s.dialogue ∨
        t.dialogue = s.dialogue.wrotePlain contentType fragment)
      s (sendPlainRecord E contentType fragment) := by
  have hsend : Silent (sendAll E) := sendAll_makes dialogue_ignoresReading E
  refine EndsAt.bind (fun _ t ht => .inl (Silent.error (Makes.require _) ht)) fun _ t ht => ?_
  refine EndsAt.bind (fun _ t' ht' => .inl ?_) fun _ t' ht' => ?_
  · exact (Silent.error (Makes.require _) ht').trans (Silent.ok (Makes.require _) ht)
  · obtain ⟨-, rfl⟩ := require_eq_ok ht'
    obtain ⟨-, rfl⟩ := require_eq_ok ht
    refine EndsAt.of_eq (q := sendAll E) rfl (endsAt_iff.2 ⟨fun _ u hu => ?_, fun _ u hu => .inr ?_⟩)
    · exact hsend.ok hu
    · exact hsend.error hu

theorem sendClientHello_said (octets : Bytes) (s : TlsConnection) :
    EndsAt (fun s t => t.dialogue = (s.dialogue.said octets).wrotePlain .handshake octets)
      (fun _ s t => t.dialogue = s.dialogue.said octets ∨
        t.dialogue = (s.dialogue.said octets).wrotePlain .handshake octets)
      s (sendClientHello E octets) :=
  EndsAt.of_eq rfl (sendPlainRecord_wrote E .handshake octets
    { s with
      transcript := s.transcript ++ octets
      history := { s.history with
        messages := s.history.messages ++ [{ sender := .client, octets }] } })

end TlsConnection

end KernelHttp.Tls
