/-
  What `STATUS_CONNECTION_DISCONNECTED` of `Receive` says.

  The status has two sources: a close_notify alert, and a transport that reports the end of
  the connection.
-/
import KernelHttp.Tls.Application
import KernelHttp.Tls.Interoperability

namespace KernelHttp.Tls

open Program

/-! ## Statuses of the platform -/

/-- The value does not fail with the status of a closed connection. -/
def KeepsOpen {α : Type} (x : Except NTSTATUS α) : Prop :=
  ∀ status, x = .error status → status ≠ statusConnectionDisconnected

/-- The same of a call of the platform. -/
def PlatformKeepsOpen {α : Type} (x : Except FailureStatus α) : Prop :=
  ∀ failure, x = .error failure → failure.val ≠ statusConnectionDisconnected

/-- The status of a closed connection is one of the transport: the ciphers, the HMAC and the
client's credential do not return it. -/
structure Environment.PlatformOpen (E : Environment) : Prop where
  aeadEncrypt : ∀ a k n aad p, PlatformKeepsOpen (E.cng.aeadEncrypt a k n aad p)
  aeadDecrypt : ∀ a k n aad c t, PlatformKeepsOpen (E.cng.aeadDecrypt a k n aad c t)
  aesCbcDecrypt : ∀ k iv c, PlatformKeepsOpen (E.cng.aesCbcDecrypt k iv c)
  hmac : ∀ a k d, PlatformKeepsOpen (E.cng.hmac a k d)
  answers : ∀ n, (E.answers n).cipher ≠ statusConnectionDisconnected ∧
    (E.answers n).hmac ≠ statusConnectionDisconnected
  sign : ∀ credential ∈ E.clientCredential, ∀ scheme input,
    PlatformKeepsOpen (credential.sign scheme input)

theorem opened_open {failure : FailureStatus} (h : failure.val ≠ statusConnectionDisconnected)
    (plaintext : Option Bytes) : PlatformKeepsOpen (opened failure plaintext) := by
  cases plaintext with
  | none =>
    rintro _ ⟨⟩
    exact h
  | some plaintext => nofun

theorem Primitives.decrypt_open (P : Primitives) (algorithm : AeadAlgorithm)
    (key nonce aad ciphertext tag : Bytes) :
    PlatformKeepsOpen (P.cng.aeadDecrypt algorithm key nonce aad ciphertext tag) := by
  have hinvalid : PlatformKeepsOpen
      (.error ⟨statusInvalidParameter, rfl⟩ : Except FailureStatus Bytes) := by
    rintro _ ⟨⟩
    decide
  cases algorithm <;> simp only [Primitives.cng, Primitives.decrypt] <;> split <;>
    first
    | exact hinvalid
    | exact opened_open (by decide) _

theorem Primitives.encrypt_open (P : Primitives) (algorithm : AeadAlgorithm)
    (key nonce aad plaintext : Bytes) :
    PlatformKeepsOpen (P.cng.aeadEncrypt algorithm key nonce aad plaintext) := by
  have hinvalid : PlatformKeepsOpen
      (.error ⟨statusInvalidParameter, rfl⟩ : Except FailureStatus (Bytes × Bytes)) := by
    rintro _ ⟨⟩
    decide
  cases algorithm <;> simp only [Primitives.cng, Primitives.encrypt] <;> split <;>
    first
    | exact hinvalid
    | rintro _ ⟨⟩

/-- Key functions that add up octets. -/
def summingKeys : KeyFunctions where
  hash algorithm data := List.replicate (hashDigestLength algorithm) (sum data)
  hmac algorithm key data := List.replicate (hashDigestLength algorithm) (sum (key ++ data))
  hkdfExtract algorithm salt ikm := List.replicate (hashDigestLength algorithm) (sum (salt ++ ikm))
  hkdfExpand _ prk info n := List.replicate n (sum (prk ++ info))
  hash_length _ _ := List.length_replicate
  hmac_length _ _ _ := List.length_replicate
  hkdfExtract_length _ _ _ := List.length_replicate
  hkdfExpand_length _ _ _ _ := List.length_replicate
where
  sum (data : Bytes) : UInt8 := data.foldl (fun total octet => 3 * total + octet) 1

/-- An environment in which every call succeeds, and the ciphers leave the text as it is. -/
def plainEnvironment : Environment where
  keys := summingKeys
  cng := plainPrimitives.cng
  answers _ := quietAnswers
  sends _ := statusSuccess
  currentMilliseconds _ := 1000
  generateRandom := .ok ⟨List.replicate tlsRandomLength 7, rfl⟩
  generateKeyPair group := .ok ⟨group, List.replicate 32 9, [1]⟩
  deriveSharedSecret _ _ := .ok [1, 2, 3]
  serverPublicKey := Unit
  validateTls13Certificate _ _ := .ok ()
  verifySignature _ _ _ _ := .ok ()
  clientCredential := none

/-- A record of TLS 1.3 as `plainPrimitives` protect it. -/
def plainTls13Record (contentType : UInt8) (fragment : Bytes) : Bytes :=
  [23, 3, 3] ++ BigEndian.bigEndian 2 (fragment.length + 17) ++ fragment ++ [contentType] ++
    List.replicate 16 0

theorem plainEnvironment_open : plainEnvironment.PlatformOpen where
  aeadEncrypt := plainPrimitives.encrypt_open
  aeadDecrypt := plainPrimitives.decrypt_open
  aesCbcDecrypt _ _ _ := nofun
  hmac _ _ _ := nofun
  answers _ := ⟨of_decide_eq_true rfl, of_decide_eq_true rfl⟩
  sign := nofun

namespace KeepsOpen

theorem ok {α : Type} (a : α) : KeepsOpen (.ok a) := nofun

theorem error {α : Type} {status : NTSTATUS} (h : status ≠ statusConnectionDisconnected) :
    KeepsOpen (.error status : Except NTSTATUS α) := by
  rintro _ ⟨⟩
  exact h

theorem bind {α β : Type} {x : Except NTSTATUS α} {f : α → Except NTSTATUS β} (hx : KeepsOpen x)
    (hf : ∀ a, KeepsOpen (f a)) : KeepsOpen (x >>= f) := by
  cases x with
  | ok a => exact hf a
  | error status =>
    rintro _ ⟨⟩
    exact hx status rfl

theorem ensure {p : Prop} [Decidable p] {status : NTSTATUS}
    (h : status ≠ statusConnectionDisconnected) : KeepsOpen (ensure p status) := by
  rw [Tls.ensure]
  split
  · exact ok ()
  · exact error h

theorem ite {α : Type} {c : Prop} [Decidable c] {x y : Except NTSTATUS α} (hx : KeepsOpen x)
    (hy : KeepsOpen y) : KeepsOpen (if c then x else y) := by
  split
  · exact hx
  · exact hy

theorem readUint (n : ℕ) (data : Bytes) : KeepsOpen (readUint n data) :=
  bind (ite (error (by decide)) (ok _)) fun _ => ok _

theorem readBytes (n : ℕ) (data : Bytes) : KeepsOpen (readBytes n data) :=
  ite (error (by decide)) (ok _)

theorem extensionsFrom : ∀ (fuel : ℕ) (data : Bytes), KeepsOpen (extensionsFrom fuel data)
  | _, [] => by
    rw [Tls.extensionsFrom]
    exact ok _
  | 0, _ :: _ => error (by decide)
  | fuel + 1, c :: data =>
    bind (readUint 2 _) fun (_, _) => bind (readUint 2 _) fun (_, _) =>
      bind (readBytes _ _) fun (_, rest) => bind (extensionsFrom fuel rest) fun _ => ok _

theorem findExtension (extensions : Bytes) (type : ℕ) :
    KeepsOpen (findExtension extensions type) := by
  refine bind (extensionsFrom _ _) fun entries => ?_
  split
  · exact ok none
  · exact ok (some _)
  · exact error (by decide)

theorem validateNoDuplicateExtensions (extensions : Bytes) :
    KeepsOpen (validateNoDuplicateExtensions extensions) :=
  bind (extensionsFrom _ _) fun _ => ensure (by decide)

theorem parseNewSessionTicket (message : TlsHandshakeMessageView) :
    KeepsOpen (parseNewSessionTicket message) := by
  refine bind (ensure (by decide)) fun _ => bind (readUint 4 _) fun (_, _) =>
    bind (readUint 4 _) fun (_, _) => bind (readUint 1 _) fun (_, _) =>
    bind (readBytes _ _) fun (_, _) => bind (readUint 2 _) fun (_, _) =>
    bind (readBytes _ _) fun (_, _) => bind (readUint 2 _) fun (_, _) =>
    bind (readBytes _ _) fun (_, _) => bind (ensure (by decide)) fun _ =>
    bind (validateNoDuplicateExtensions _) fun _ => bind (findExtension _ _) fun extension =>
    bind ?_ fun _ => ok _
  cases extension with
  | none => exact ok 0
  | some data =>
    exact bind (ensure (by decide)) fun _ => bind (readUint 4 _) fun (_, _) => ok _

theorem parseKeyUpdate (message : TlsHandshakeMessageView) :
    KeepsOpen (parseKeyUpdate message) :=
  bind (ensure (by decide)) fun _ => ite (ok _) (ite (ok _) (error (by decide)))

theorem parseCertificateRequest (message : TlsHandshakeMessageView) :
    KeepsOpen (parseCertificateRequest message) :=
  bind (ensure (by decide)) fun _ => bind (readUint 1 _) fun (_, _) =>
    bind (readBytes _ _) fun (_, _) => bind (readUint 2 _) fun (_, _) =>
    bind (readBytes _ _) fun (_, _) => bind (ensure (by decide)) fun _ => ok _

theorem findCertificateRequestSignatureAlgorithms (request : Tls13CertificateRequestView) :
    KeepsOpen (TlsConnection.findCertificateRequestSignatureAlgorithms request) := by
  refine bind (findExtension _ _) fun extension => ?_
  cases extension with
  | none => exact ok []
  | some data =>
    exact bind (readUint 2 _) fun (_, _) => bind (ensure (by decide)) fun _ => ok _

theorem selectClientCredential (E : Environment) (policy : TlsPolicy) (peerSchemes : Bytes) :
    KeepsOpen (TlsConnection.selectClientCredential E policy peerSchemes) := by
  rw [TlsConnection.selectClientCredential]
  split
  · exact ok none
  · exact ite (ok none) (ite (error (by decide)) (ok _))

theorem parseTls12NewSessionTicket (message : TlsHandshakeMessageView) :
    KeepsOpen (TlsConnection.parseTls12NewSessionTicket message) :=
  bind (ensure (by decide)) fun _ => bind (readUint 4 _) fun (_, _) =>
    bind (readUint 2 _) fun (_, _) => bind (ensure (by decide)) fun _ => ok _

theorem encodeCertificate (requestContext certificateList : Bytes) (capacity : ℕ) :
    KeepsOpen (encodeCertificate requestContext certificateList capacity) :=
  bind (ensure (by decide)) fun _ => bind (ensure (by decide)) fun _ =>
    bind (ensure (by decide)) fun _ => ok _

theorem encodeCertificateVerify (scheme : TlsSignatureScheme) (signature : Bytes)
    (capacity : ℕ) : KeepsOpen (encodeCertificateVerify scheme signature capacity) :=
  bind (ensure (by decide)) fun _ => bind (ensure (by decide)) fun _ => ok _

variable (K : KeyFunctions) (context : TlsContext)

theorem hkdfExpandLabel (algorithm : HashAlgorithm) (secret label info : Bytes) (n : ℕ) :
    KeepsOpen (K.hkdfExpandLabel algorithm secret label info n) :=
  bind (bind (ensure (by decide)) fun _ => bind (ensure (by decide)) fun _ =>
    bind (ensure (by decide)) fun _ => ok _) fun _ => ok _

theorem deriveTrafficState (hkdf : HkdfExpandLabel) (suite : TlsCipherSuite) (secret : Bytes) :
    KeepsOpen (deriveTrafficState hkdf suite secret) :=
  ite (error (by decide)) (ok _)

theorem updateTls13ApplicationTrafficSecret (client : Bool) :
    KeepsOpen (context.updateTls13ApplicationTrafficSecret K client) :=
  bind (ensure (by decide)) fun _ => bind (hkdfExpandLabel K _ _ _ _ _) fun _ =>
    bind (deriveTrafficState _ _ _) fun _ => ok _

theorem deriveTls13ResumptionSecret (nonce : Bytes) :
    KeepsOpen (context.deriveTls13ResumptionSecret K nonce) :=
  bind (ensure (by decide)) fun _ => hkdfExpandLabel K _ _ _ _ _

theorem storeTls13Ticket (ticket : Tls13SessionTicket) :
    KeepsOpen (context.storeTls13Ticket ticket) :=
  bind (ensure (by decide)) fun _ => ok _

theorem encodeFinished (clientFinished : Bool) (transcriptHash : Bytes) (capacity : ℕ) :
    KeepsOpen (context.encodeFinished K clientFinished transcriptHash capacity) :=
  bind (ensure (by decide)) fun _ => bind (ensure (by decide)) fun _ =>
    bind (bind (bind (ensure (by decide)) fun _ => hkdfExpandLabel K _ _ _ _ _) fun _ =>
      bind (ensure (by decide)) fun _ => ok _) fun _ => ok _

theorem parseRecord (data : Bytes) : KeepsOpen (parseRecord data) := by
  rw [Tls.parseRecord.eq_def]
  split
  · split
    · exact error (by decide)
    · exact ite (error (by decide)) (ite (error (by decide)) (ite (error (by decide)) (ok _)))
  · exact error (by decide)

theorem parseMessage (data : Bytes) : KeepsOpen (parseMessage data) := by
  rw [Tls.parseMessage.eq_def]
  split
  · exact ite (error (by decide)) (ok _)
  · exact error (by decide)

theorem parseBuffered (s : TlsConnection) : KeepsOpen s.parseBuffered :=
  ite (parseMessage _) (ite (error (by decide)) (error (by decide)))

end KeepsOpen

/-! ## Records -/

variable {status : NTSTATUS} {s s' : TlsConnection}

theorem unlessFailed_open {α : Type} {x : Except FailureStatus α}
    (hs : status ≠ statusConnectionDisconnected) (hx : PlatformKeepsOpen x) :
    PlatformKeepsOpen (unlessFailed status x) := by
  intro failure h
  rw [unlessFailed] at h
  split at h
  · cases h
    exact hs
  · exact hx failure h

theorem finishProtect_open (state : TlsAeadCipherState) (record : Bytes) :
    (finishProtect state record).status ≠ statusConnectionDisconnected := by
  rw [finishProtect, incrementSequence]
  by_cases h : state.sequenceNumber = tlsMaxRecordSequenceNumber
  · rw [if_pos h]
    exact of_decide_eq_true rfl
  · rw [if_neg h]
    exact of_decide_eq_true rfl

theorem finishUnprotect_open (state : TlsAeadCipherState) (output : TlsMutablePlaintextRecord) :
    (finishUnprotect state output).status ≠ statusConnectionDisconnected := by
  rw [finishUnprotect, incrementSequence]
  by_cases h : state.sequenceNumber = tlsMaxRecordSequenceNumber
  · rw [if_pos h]
    exact of_decide_eq_true rfl
  · rw [if_neg h]
    exact of_decide_eq_true rfl

section

variable {E : Environment} (hE : E.PlatformOpen)
include hE

theorem protectAesGcm13_open (n : ℕ) (plaintext : TlsPlaintextRecord)
    (state : TlsAeadCipherState) (scratch capacity : ℕ) :
    (protectAesGcm13 E.cng (E.answers n) plaintext state scratch capacity).status ≠
      statusConnectionDisconnected := by
  simp only [protectAesGcm13]
  split_ifs <;> try exact of_decide_eq_true rfl
  split
  case h_1 failure h => exact unlessFailed_open (hE.answers n).1 (hE.aeadEncrypt _ _ _ _ _) failure h
  case h_2 =>
    split
    · exact of_decide_eq_true rfl
    · exact finishProtect_open _ _

theorem unprotectAesGcm_open (n : ℕ) (view : TlsRecordView) (state : TlsAeadCipherState)
    (capacity : ℕ) : (unprotectAesGcm E.cng (E.answers n) view state capacity).status ≠
      statusConnectionDisconnected := by
  simp only [unprotectAesGcm]
  split_ifs <;> try exact of_decide_eq_true rfl
  split
  case h_1 failure h => exact unlessFailed_open (hE.answers n).1 (hE.aeadDecrypt _ _ _ _ _ _) failure h
  case h_2 =>
    split
    · exact of_decide_eq_true rfl
    · exact finishUnprotect_open _ _

theorem unprotectAesCbc_open (n : ℕ) (view : TlsRecordView) (state : TlsAeadCipherState)
    (capacity : ℕ) :
    (unprotectAesCbcEncryptThenMac E.cng (E.answers n) view state capacity).status ≠
      statusConnectionDisconnected := by
  simp only [unprotectAesCbcEncryptThenMac]
  split_ifs <;> try exact of_decide_eq_true rfl
  split
  case h_1 failure h => exact unlessFailed_open (hE.answers n).2 (hE.hmac _ _ _) failure h
  case h_2 =>
    split_ifs <;> try exact of_decide_eq_true rfl
    split
    case h_1 failure h => exact unlessFailed_open (hE.answers n).1 (hE.aesCbcDecrypt _ _ _) failure h
    case h_2 =>
      split_ifs
      · exact of_decide_eq_true rfl
      split
      · exact of_decide_eq_true rfl
      · exact finishUnprotect_open _ _

theorem unprotectAesGcm13_open (n : ℕ) (view : TlsRecordView) (state : TlsAeadCipherState)
    (capacity : ℕ) : (unprotectAesGcm13 E.cng (E.answers n) view state capacity).status ≠
      statusConnectionDisconnected := by
  simp only [unprotectAesGcm13]
  split_ifs <;> try exact of_decide_eq_true rfl
  split
  case h_1 failure h => exact unlessFailed_open (hE.answers n).1 (hE.aeadDecrypt _ _ _ _ _ _) failure h
  case h_2 =>
    split_ifs
    · exact of_decide_eq_true rfl
    split
    · exact of_decide_eq_true rfl
    split
    · exact of_decide_eq_true rfl
    · exact finishUnprotect_open _ _

theorem unprotect_open (n : ℕ) (view : TlsRecordView) (state : TlsAeadCipherState)
    (capacity : ℕ) (protection : Protection) :
    (protection.unprotect E.cng (E.answers n) view state capacity).status ≠
      statusConnectionDisconnected := by
  cases protection with
  | aesGcm => exact unprotectAesGcm_open hE n view state capacity
  | aesCbcEncryptThenMac => exact unprotectAesCbc_open hE n view state capacity
  | aesGcm13 => exact unprotectAesGcm13_open hE n view state capacity

end

/-! ## Programs that read no record -/

/-- The state after a program that has read no record, and whose transport calls have not
reported the end. -/
structure Quiet (s s' : TlsConnection) : Prop where
  received : s'.history.received = s.history.received
  disconnects : s'.history.disconnects = s.history.disconnects

/-- The state after a failure: no record was read, and the end was reported if the status says
so. -/
structure QuietFailure (status : NTSTATUS) (s s' : TlsConnection) : Prop where
  received : s'.history.received = s.history.received
  disconnects : s'.history.disconnects = s.history.disconnects +
    if status = statusConnectionDisconnected then 1 else 0

theorem quiet_composes : Composes Quiet QuietFailure where
  refl _ := ⟨rfl, rfl⟩
  trans h h' := ⟨h'.received.trans h.received, h'.disconnects.trans h.disconnects⟩
  fails h h' := ⟨h'.received.trans h.received, by rw [h'.disconnects, h.disconnects]⟩

theorem QuietFailure.of_ne (h : status ≠ statusConnectionDisconnected)
    (s : TlsConnection) : QuietFailure status s s :=
  ⟨rfl, by rw [if_neg h, Nat.add_zero]⟩

abbrev IsQuiet {α : Type} (p : TlsProgram α) : Prop := Ends Quiet QuietFailure p

namespace IsQuiet

open TlsConnection

variable {α β : Type}

theorem bind {p : TlsProgram α} {f : α → TlsProgram β} (hp : IsQuiet p)
    (hf : ∀ a, IsQuiet (f a)) : IsQuiet (p >>= f) :=
  fun s => quiet_composes.bind (hp s) fun a t _ => hf a t

theorem get_bind {f : TlsConnection → TlsProgram α} (h : ∀ s, EndsAt Quiet QuietFailure s (f s)) :
    IsQuiet (get >>= f) := h

/-- The state that is read is any. -/
theorem read {f : TlsConnection → TlsProgram α} (h : ∀ s, IsQuiet (f s)) :
    IsQuiet (get >>= f) := fun s => h s s

theorem set_bind {s t : TlsConnection} {p : TlsProgram α} (h : Quiet s t) (hp : IsQuiet p) :
    EndsAt Quiet QuietFailure s (set t >>= fun _ => p) :=
  quiet_composes.bind (EndsAt.set h) fun _ t' _ => hp t'

theorem pure (a : α) : IsQuiet (Pure.pure a) := fun _ => quiet_composes.pure a

theorem throw {status : NTSTATUS} (h : status ≠ statusConnectionDisconnected) :
    IsQuiet (throw status : TlsProgram α) := fun s => EndsAt.throw (QuietFailure.of_ne h s)

theorem ofExcept {x : Except NTSTATUS α} (h : KeepsOpen x) : IsQuiet (ofExcept x) :=
  fun s => quiet_composes.ofExcept fun status hx => QuietFailure.of_ne (h status hx) s

theorem ofFailure {x : Except FailureStatus α} (h : PlatformKeepsOpen x) :
    IsQuiet (ofFailure x) := by
  cases x with
  | ok a => exact pure a
  | error failure => exact throw (h failure rfl)

theorem require {c : Prop} [Decidable c] {status : NTSTATUS}
    (h : status ≠ statusConnectionDisconnected) : IsQuiet (require c status) :=
  fun s => quiet_composes.require (QuietFailure.of_ne h s)

theorem when {c : Prop} [Decidable c] {p : TlsProgram Unit} (h : IsQuiet p) :
    IsQuiet (when c p) := fun s => quiet_composes.when fun _ => h s

theorem ite {c : Prop} [Decidable c] {p q : TlsProgram α} (hp : IsQuiet p) (hq : IsQuiet q) :
    IsQuiet (if c then p else q) := fun s => EndsAt.ite (fun _ => hp s) fun _ => hq s

theorem modify {f : TlsConnection → TlsConnection} (h : ∀ s, Quiet s (f s)) :
    IsQuiet (modify f) := fun s => EndsAt.modify (h s)

theorem transportFailed (status : NTSTATUS) : IsQuiet (transportFailed status : TlsProgram α) :=
  fun _ => ⟨rfl, rfl⟩

theorem readExact (n : ℕ) : IsQuiet (readExact n) := by
  refine get_bind fun s => set_bind ⟨rfl, rfl⟩ ?_
  split
  · exact pure _
  · exact transportFailed _

theorem recordReceivedTlsRecord : IsQuiet recordReceivedTlsRecord :=
  get_bind fun s => quiet_composes.bind (require (by decide) s) fun _ t ht => by
    obtain ⟨-, rfl⟩ := require_eq_ok ht
    exact EndsAt.set ⟨rfl, rfl⟩

theorem readRecordHeader : IsQuiet readRecordHeader :=
  bind (get_bind fun s => quiet_composes.pure s) fun _ =>
    when (bind (readExact _) fun _ => modify fun _ => ⟨rfl, rfl⟩)

theorem readFragment : IsQuiet readFragment :=
  bind (get_bind fun s => quiet_composes.pure s) fun _ =>
    bind (readExact _) fun _ => modify fun _ => ⟨rfl, rfl⟩

theorem readRecordFragment : IsQuiet readRecordFragment := by
  refine get_bind fun s => ?_
  cases h : parseRecord s.inputBuffer with
  | ok view => exact quiet_composes.pure ()
  | error status =>
    exact bind (require (KeepsOpen.parseRecord _ _ h)) (fun _ => bind (require (by decide)) fun _ =>
      bind (require (by decide)) fun _ => bind recordReceivedTlsRecord fun _ => readFragment) s

theorem plainRecord (view : TlsRecordView) : IsQuiet (plainRecord view) :=
  bind (require (by decide)) fun _ => bind (require (by decide)) fun _ =>
    bind (modify fun _ => ⟨rfl, rfl⟩) fun _ => pure _

theorem appendTranscript (data : Bytes) : IsQuiet (appendTranscript data) :=
  modify fun _ => ⟨rfl, rfl⟩

theorem recordMessage (entry : HandshakeEntry) : IsQuiet (recordMessage entry) :=
  modify fun _ => ⟨rfl, rfl⟩

theorem recordSent (record : SentRecord) : IsQuiet (recordSent record) :=
  modify fun _ => ⟨rfl, rfl⟩

theorem recordKeyChange : IsQuiet recordKeyChange :=
  modify fun _ => ⟨rfl, rfl⟩

variable {E : Environment}

theorem sendAll : IsQuiet (sendAll E) :=
  get_bind fun _ => set_bind ⟨rfl, rfl⟩ (ite (pure ()) (transportFailed _))

theorem finishTranscript : IsQuiet (finishTranscript E) :=
  get_bind fun _ => quiet_composes.pure _

theorem storeTls13Ticket (ticket : Tls13NewSessionTicketView) :
    IsQuiet (storeTls13Ticket E ticket) :=
  bind (require (by decide)) fun _ => get_bind fun s => quiet_composes.when fun _ =>
    quiet_composes.bind (ofExcept (KeepsOpen.deriveTls13ResumptionSecret _ _ _) s) fun _ t ht => by
      obtain ⟨-, rfl⟩ := ofExcept_eq_ok ht
      refine quiet_composes.bind (ofExcept (KeepsOpen.storeTls13Ticket _ _) s) fun _ t ht => ?_
      obtain ⟨-, rfl⟩ := ofExcept_eq_ok ht
      exact EndsAt.set ⟨rfl, rfl⟩

theorem updateServerTrafficSecret : IsQuiet (updateServerTrafficSecret E) :=
  get_bind fun s => quiet_composes.bind
    (ofExcept (KeepsOpen.updateTls13ApplicationTrafficSecret _ _ _) s) fun (_, _) t ht => by
      obtain ⟨-, rfl⟩ := ofExcept_eq_ok ht
      exact set_bind ⟨rfl, rfl⟩ recordKeyChange

variable (hE : E.PlatformOpen)
include hE

theorem unprotectRecord (view : TlsRecordView) : IsQuiet (unprotectRecord E view) :=
  get_bind fun _ => set_bind ⟨rfl, rfl⟩ (bind (require (unprotect_open hE _ _ _ _ _)) fun _ =>
    bind (modify fun _ => ⟨rfl, rfl⟩) fun _ => pure _)

theorem openRecord (view : TlsRecordView) : IsQuiet (openRecord E view) :=
  get_bind fun s => EndsAt.ite (fun _ => unprotectRecord hE view s) fun _ => plainRecord view s

theorem sendRecord13 (plaintext : TlsPlaintextRecord) :
    IsQuiet (sendRecord E .aesGcm13 plaintext) :=
  get_bind fun s => set_bind ⟨rfl, rfl⟩
    (bind (require (protectAesGcm13_open hE s.calls plaintext s.clientWriteState _ _)) fun _ =>
      bind (recordSent _) fun _ => sendAll)

theorem sendProtectedRecord13 (contentType : TlsContentType) (fragment : Bytes) :
    IsQuiet (sendProtectedRecord13 E contentType fragment) :=
  get_bind fun s => sendRecord13 hE _ s

theorem sendHandshake13 (message : Bytes) : IsQuiet (sendHandshake13 E message) :=
  bind (appendTranscript _) fun _ => bind (recordMessage _) fun _ =>
    sendProtectedRecord13 hE _ _

theorem sendClientCertificateVerify {credential : TlsClientCredential}
    (hmem : credential ∈ E.clientCredential) (scheme : TlsSignatureScheme) (capacity : ℕ) :
    IsQuiet (sendClientCertificateVerify E credential scheme capacity) :=
  bind finishTranscript fun _ => bind (ofFailure (hE.sign credential hmem _ _)) fun _ =>
    bind (ofExcept (KeepsOpen.encodeCertificateVerify _ _ _)) fun _ => sendHandshake13 hE _

theorem sendClientCertificate (context : Bytes)
    {selected : Option (TlsClientCredential × TlsSignatureScheme)}
    (hmem : ∀ pair ∈ selected, pair.1 ∈ E.clientCredential) (capacity : ℕ) :
    IsQuiet (sendClientCertificate E context selected capacity) := by
  cases selected with
  | none => exact bind (ofExcept (KeepsOpen.encodeCertificate _ _ _)) fun _ => sendHandshake13 hE _
  | some pair =>
    exact bind (ofExcept (KeepsOpen.encodeCertificate _ _ _)) fun _ =>
      bind (sendHandshake13 hE _) fun _ =>
        sendClientCertificateVerify hE (hmem pair rfl) _ _

theorem sendClientFinished (capacity : ℕ) : IsQuiet (sendClientFinished E capacity) :=
  bind finishTranscript fun _ => bind (get_bind fun s => quiet_composes.pure s) fun _ =>
    bind (ofExcept (KeepsOpen.encodeFinished _ _ _ _ _)) fun _ => sendHandshake13 hE _

/-! ### Post-handshake records -/

omit hE in
theorem processNewSessionTicket (message : TlsHandshakeMessageView) :
    IsQuiet (processNewSessionTicket E message) :=
  bind (ofExcept (KeepsOpen.parseNewSessionTicket _)) fun _ => storeTls13Ticket _

omit hE in
theorem processKeyUpdate (message : TlsHandshakeMessageView) (keyUpdated : Bool) :
    IsQuiet (processKeyUpdate E message keyUpdated) :=
  bind (ofExcept (KeepsOpen.parseKeyUpdate _)) fun _ =>
    bind (when updateServerTrafficSecret) fun _ => pure _

omit hE in
theorem selectClientCredential_mem {policy : TlsPolicy} {peerSchemes : Bytes}
    {selected : Option (TlsClientCredential × TlsSignatureScheme)}
    (h : selectClientCredential E policy peerSchemes = .ok selected) :
    ∀ pair ∈ selected, pair.1 ∈ E.clientCredential := by
  rw [selectClientCredential] at h
  intro pair hpair
  split at h
  · cases h
    cases hpair
  case h_2 credential hc =>
    split_ifs at h
    · cases h
      cases hpair
    · cases h
      obtain ⟨scheme, -, rfl⟩ := Option.map_eq_some_iff.1 hpair
      exact hc

theorem processCertificateRequest (message : TlsHandshakeMessageView) (octets : Bytes) :
    IsQuiet (processCertificateRequest E message octets) :=
  read fun s => bind (require (by decide)) fun _ =>
    bind (ofExcept (KeepsOpen.parseCertificateRequest _)) fun request =>
    bind (require (by decide)) fun _ =>
    bind (ofExcept (KeepsOpen.findCertificateRequestSignatureAlgorithms _)) fun peerSchemes t =>
    quiet_composes.bind (ofExcept (KeepsOpen.selectClientCredential E s.policy peerSchemes) t)
      fun selected t' ht => by
        obtain ⟨hselected, rfl⟩ := ofExcept_eq_ok ht
        exact bind (appendTranscript _) (fun _ =>
          bind (sendClientCertificate hE _ (selectClientCredential_mem hselected) _) fun _ =>
            sendClientFinished hE _) t

theorem processPostHandshakeMessage (message : TlsHandshakeMessageView) (octets : Bytes)
    (flags : PostHandshakeFlags) :
    IsQuiet (processPostHandshakeMessage E message octets flags) :=
  ite (bind (processNewSessionTicket _) fun _ => pure _)
    (ite (bind (processKeyUpdate _ _) fun _ => pure _)
      (ite (bind (processCertificateRequest hE _ _) fun _ => pure _) (throw (by decide))))

theorem consumePostHandshakeMessages : ∀ (messages : ℕ) (fragment : Bytes)
    (flags : PostHandshakeFlags), IsQuiet (consumePostHandshakeMessages E messages fragment flags)
  | 0, [], flags => pure flags
  | _ + 1, [], flags => pure flags
  | 0, _ :: _, _ => throw (by decide)
  | messages + 1, c :: fragment, flags => by
    rw [TlsConnection.consumePostHandshakeMessages.eq_3 _ _ _ _ (List.cons_ne_nil _ _)]
    split
    · exact throw (by decide)
    · exact bind (modify fun _ => ⟨rfl, rfl⟩) fun _ =>
        bind (processPostHandshakeMessage hE _ _ _) fun _ =>
          consumePostHandshakeMessages messages _ _

theorem consumeTls13PostHandshakeRecord (fragment : Bytes) :
    IsQuiet (consumeTls13PostHandshakeRecord E fragment) :=
  bind (require (by decide)) fun _ => bind (modify fun _ => ⟨rfl, rfl⟩) fun _ =>
    bind (consumePostHandshakeMessages hE _ _ _) fun _ => when (modify fun _ => ⟨rfl, rfl⟩)

end IsQuiet

/-! ### Handshake records of TLS 1.2 -/

namespace IsQuiet

open TlsConnection

theorem takePlainHandshakeMessage (parsed : TlsHandshakeMessageView) :
    IsQuiet (takePlainHandshakeMessage parsed) := by
  refine bind (ofExcept (KeepsOpen.parseTls12NewSessionTicket _)) fun _ =>
    bind (when (modify fun _ => ⟨rfl, rfl⟩)) fun _ => get_bind fun s =>
    bind (appendTranscript _) (fun _ => bind (recordMessage _) fun _ => modify fun t => ?_) s
  rw [consume]
  split
  · exact ⟨rfl, rfl⟩
  · exact ⟨rfl, rfl⟩

theorem keepIncomplete {status : NTSTATUS} (h : status ≠ statusConnectionDisconnected) :
    IsQuiet (keepIncomplete status) :=
  bind (require h) fun _ => modify fun _ => ⟨rfl, rfl⟩

theorem consumePlainHandshakeMessages : ∀ messages : ℕ,
    IsQuiet (consumePlainHandshakeMessages messages)
  | 0 => read fun s => by
    cases h : TlsConnection.parseBuffered s with
    | error status => exact keepIncomplete (KeepsOpen.parseBuffered s _ h)
    | ok parsed => exact throw (by decide)
  | messages + 1 => read fun s => by
    cases h : TlsConnection.parseBuffered s with
    | error status => exact keepIncomplete (KeepsOpen.parseBuffered s _ h)
    | ok parsed =>
      exact bind (takePlainHandshakeMessage parsed) fun _ => read fun t =>
        when (consumePlainHandshakeMessages messages)

theorem consumeOptionalPlainHandshakeRecord (fragment : Bytes) :
    IsQuiet (consumeOptionalPlainHandshakeRecord fragment) :=
  read fun _ => bind (require (by decide)) fun _ => bind (require (by decide)) fun _ =>
    bind (modify fun _ => ⟨rfl, rfl⟩) fun _ => consumePlainHandshakeMessages _

end IsQuiet

/-! ## Reading a record -/

/-- The state after a program that has read the records `new`. -/
structure HasRead (new : List TlsMutablePlaintextRecord) (s s' : TlsConnection) : Prop where
  received : s'.history.received = s.history.received ++ new
  disconnects : s'.history.disconnects = s.history.disconnects

namespace TlsConnection

variable {E : Environment} (hE : E.PlatformOpen) {s s' : TlsConnection}
  {record : TlsMutablePlaintextRecord}
include hE

theorem takeRecord_ok (h : takeRecord E s = .ok record s') : HasRead [record] s s' := by
  obtain ⟨t, t', ht, h⟩ := bind_eq_ok h
  cases ht
  obtain ⟨view, t, ht, h⟩ := bind_eq_ok h
  obtain ⟨-, rfl⟩ := ofExcept_eq_ok ht
  obtain ⟨record', t, ht, h⟩ := bind_eq_ok h
  have hquiet := (IsQuiet.openRecord hE view _).ok ht
  cases h
  exact ⟨congrArg (· ++ [record]) hquiet.received, hquiet.disconnects⟩

variable {status : NTSTATUS}

theorem takeRecord_error (h : takeRecord E s = .error status s') :
    QuietFailure status s s' := by
  obtain h | ⟨t, t', ht, h⟩ := bind_eq_error h
  · cases h
  cases ht
  obtain h | ⟨view, t, ht, h⟩ := bind_eq_error h
  · exact (IsQuiet.ofExcept (KeepsOpen.parseRecord _) _).error h
  obtain ⟨-, rfl⟩ := ofExcept_eq_ok ht
  obtain h | ⟨record, t, -, h⟩ := bind_eq_error h
  · exact (IsQuiet.openRecord hE view _).error h
  · cases h

theorem readRecord_ok (h : readRecord E s = .ok record s') : HasRead [record] s s' := by
  obtain ⟨_, t, ht, h⟩ := bind_eq_ok h
  obtain ⟨_, t', ht', h⟩ := bind_eq_ok h
  have hquiet := quiet_composes.trans (IsQuiet.readRecordHeader _ |>.ok ht)
    (IsQuiet.readRecordFragment _ |>.ok ht')
  have hreads := takeRecord_ok hE h
  exact ⟨by rw [hreads.received, hquiet.received], hreads.disconnects.trans hquiet.disconnects⟩

theorem readRecord_error (h : readRecord E s = .error status s') :
    QuietFailure status s s' := by
  obtain h | ⟨_, t, ht, h⟩ := bind_eq_error h
  · exact (IsQuiet.readRecordHeader _).error h
  have hquiet := (IsQuiet.readRecordHeader _).ok ht
  obtain h | ⟨_, t', ht', h⟩ := bind_eq_error h
  · exact quiet_composes.fails hquiet ((IsQuiet.readRecordFragment _).error h)
  · exact quiet_composes.fails
      (quiet_composes.trans hquiet ((IsQuiet.readRecordFragment _).ok ht')) (takeRecord_error hE h)

end TlsConnection

/-! ## `Receive` -/

def IsCloseNotify (record : TlsMutablePlaintextRecord) : Prop :=
  record.contentType = .alert ∧
    ∃ level : UInt8, (level = 1 ∨ level = 2) ∧ record.fragment = [level, 0]

/-- The state after a program that has read no close_notify, and has not seen the transport's
end. -/
structure StaysOpen (s s' : TlsConnection) : Prop where
  received : ∃ new, s'.history.received = s.history.received ++ new ∧ ∀ record ∈ new,
    ¬ IsCloseNotify record
  disconnects : s'.history.disconnects = s.history.disconnects

/-- The two ways in which a connection is closed: the transport has reported the end, and no
close_notify was read; or a close_notify is the last record that was read. -/
inductive Closes (s s' : TlsConnection) : Prop where
  | transport (new : List TlsMutablePlaintextRecord)
      (received : s'.history.received = s.history.received ++ new)
      (open_ : ∀ record ∈ new, ¬ IsCloseNotify record)
      (disconnects : s'.history.disconnects = s.history.disconnects + 1)
  | peer (new : List TlsMutablePlaintextRecord) (alert : TlsMutablePlaintextRecord)
      (received : s'.history.received = s.history.received ++ new ++ [alert])
      (closeNotify : IsCloseNotify alert)
      (disconnects : s'.history.disconnects = s.history.disconnects)

def ClosesIf (status : NTSTATUS) (s s' : TlsConnection) : Prop :=
  status = statusConnectionDisconnected → Closes s s'

theorem StaysOpen.trans_closes {t u : TlsConnection} (h : StaysOpen s t) (h' : Closes t u) :
    Closes s u := by
  obtain ⟨⟨new, hnew, hopen⟩, hd⟩ := h
  cases h' with
  | transport new' hnew' hopen' hd' =>
    refine .transport (new ++ new') (by rw [hnew', hnew, List.append_assoc]) ?_ (by rw [hd', hd])
    intro record hmem
    rcases List.mem_append.1 hmem with hmem | hmem
    · exact hopen record hmem
    · exact hopen' record hmem
  | peer new' alert hnew' halert hd' =>
    exact .peer (new ++ new') alert (by rw [hnew', hnew, List.append_assoc s.history.received])
      halert (hd'.trans hd)

theorem staysOpen_composes : Composes StaysOpen ClosesIf where
  refl s := ⟨⟨[], (List.append_nil _).symm, nofun⟩, rfl⟩
  trans := by
    rintro s t u ⟨⟨new, hnew, hopen⟩, hd⟩ ⟨⟨new', hnew', hopen'⟩, hd'⟩
    refine ⟨⟨new ++ new', by rw [hnew', hnew, List.append_assoc], ?_⟩, hd'.trans hd⟩
    intro record hmem
    rcases List.mem_append.1 hmem with hmem | hmem
    · exact hopen record hmem
    · exact hopen' record hmem
  fails h h' hstatus := h.trans_closes (h' hstatus)

theorem Quiet.staysOpen (h : Quiet s s') : StaysOpen s s' :=
  ⟨⟨[], by rw [h.received, List.append_nil], nofun⟩, h.disconnects⟩

theorem QuietFailure.closesIf (h : QuietFailure status s s') : ClosesIf status s s' := by
  rintro rfl
  exact .transport [] (by rw [h.received, List.append_nil]) nofun h.disconnects

theorem IsQuiet.staysOpen {α : Type} {p : TlsProgram α} (h : IsQuiet p) :
    Ends StaysOpen ClosesIf p :=
  fun s => (h s).mono (fun _ => Quiet.staysOpen) fun _ _ => QuietFailure.closesIf

namespace TlsConnection

variable {data : Bytes} {s s' : TlsConnection} {record : TlsMutablePlaintextRecord} {length : ℕ}

theorem isCloseNotify_of_alertStatus (hc : record.contentType = .alert)
    (h : alertStatus record.fragment = statusConnectionDisconnected) : IsCloseNotify record := by
  have hne : statusInvalidNetworkResponse ≠ statusConnectionDisconnected := by decide
  refine ⟨hc, ?_⟩
  rw [alertStatus.eq_def] at h
  split at h
  case h_1 level description hfragment =>
    split_ifs at h with hlevel hdescription
    · exact absurd h hne
    · refine ⟨level, ?_, by rw [hfragment, hdescription]⟩
      by_contra hn
      exact hlevel ⟨fun h1 => hn (.inl h1), fun h2 => hn (.inr h2)⟩
    · exact absurd h hne
  case h_2 => exact absurd h hne

/-- A record of another kind than an alert keeps the connection open. -/
theorem HasRead.staysOpen
    (h : HasRead [record] s s') (hc : record.contentType ≠ .alert) : StaysOpen s s' :=
  ⟨⟨[record], h.received, fun _ hmem => by
    obtain rfl := List.mem_singleton.1 hmem
    exact fun hn => hc hn.1⟩, h.disconnects⟩

variable {E : Environment} (hE : E.PlatformOpen)
include hE

theorem receiveFrom_ends (length : ℕ) : ∀ (turns emptyRecords postHandshakeRecords : ℕ),
    Ends StaysOpen ClosesIf (receiveFrom E length turns emptyRecords postHandshakeRecords)
  | 0, _, _ => fun s => EndsAt.throw fun h => absurd h (by decide)
  | turns + 1, emptyRecords, postHandshakeRecords => fun s => by
    have hnot : ∀ s, ClosesIf statusInvalidNetworkResponse s s := fun s h => absurd h (by decide)
    have hrest : ∀ (c : Prop) [Decidable c] (p : TlsProgram Unit) (n m : ℕ), IsQuiet p →
        Ends StaysOpen ClosesIf (do
          require c statusInvalidNetworkResponse
          p
          receiveFrom E length turns n m) := fun c _ p n m hp t =>
      staysOpen_composes.bind (staysOpen_composes.require (hnot t)) fun _ t _ =>
        staysOpen_composes.bind (hp.staysOpen t) fun _ t _ => receiveFrom_ends length turns n m t
    refine EndsAt.bind (fun _ _ he => (readRecord_error hE he).closesIf) fun record t ht => ?_
    have hreads := readRecord_ok hE ht
    refine EndsAt.get_bind ?_
    by_cases hc : record.contentType = .alert
    · rw [if_neg (by simp [hc]), if_neg (by simp [hc]), if_pos hc]
      refine EndsAt.throw fun hstatus => ?_
      exact .peer [] record (by rw [hreads.received, List.append_nil])
        (isCloseNotify_of_alertStatus hc hstatus) hreads.disconnects
    · have hst := HasRead.staysOpen hreads hc
      refine EndsAt.mono ?_ (fun _ => staysOpen_composes.trans hst)
        fun _ _ => staysOpen_composes.fails hst
      refine EndsAt.ite (fun _ => hrest _ _ _ _ (IsQuiet.consumeTls13PostHandshakeRecord hE _) t)
        fun _ => EndsAt.ite
          (fun _ => hrest _ _ _ _ (IsQuiet.consumeOptionalPlainHandshakeRecord _) t) fun _ => ?_
      rw [if_neg hc]
      refine EndsAt.ite (fun _ => EndsAt.throw (hnot t)) fun _ =>
        EndsAt.ite (fun _ => EndsAt.throw (hnot t)) fun _ => EndsAt.ite (fun _ => ?_) fun _ => ?_
      · exact staysOpen_composes.bind (staysOpen_composes.require (hnot t)) fun _ t _ =>
          receiveFrom_ends length turns _ _ t
      · exact staysOpen_composes.bind (EndsAt.modify (Quiet.staysOpen ⟨rfl, rfl⟩)) fun _ t _ =>
          staysOpen_composes.pure _

theorem receive_ends (length : ℕ) : Ends StaysOpen ClosesIf (receive E length) := fun s =>
  EndsAt.get_bind (staysOpen_composes.bind
    (staysOpen_composes.require fun h => absurd h (by decide)) fun _ t ht =>
      EndsAt.ite
        (fun _ => staysOpen_composes.bind
          (EndsAt.set (Quiet.staysOpen ⟨by rw [(require_eq_ok ht).2], by rw [(require_eq_ok ht).2]⟩))
          fun _ _ _ => staysOpen_composes.pure _)
        fun _ => receiveFrom_ends hE length _ _ _ t)

omit hE in
theorem receiveFrom_ne_nil (hlength : length ≠ 0) {turns n m : ℕ}
    (h : receiveFrom E length turns n m s = .ok data s') : data ≠ [] := by
  induction turns generalizing n m s with
  | zero => cases h
  | succ turns ih =>
    obtain ⟨record, t, -, h⟩ := bind_eq_ok h
    obtain ⟨t, _, -, h⟩ := bind_eq_ok h
    split at h
    · obtain ⟨_, _, -, h⟩ := bind_eq_ok h
      obtain ⟨_, _, -, h⟩ := bind_eq_ok h
      exact ih h
    split at h
    · obtain ⟨_, _, -, h⟩ := bind_eq_ok h
      obtain ⟨_, _, -, h⟩ := bind_eq_ok h
      exact ih h
    split at h
    · cases h
    split at h
    · cases h
    split at h
    · cases h
    split at h
    · obtain ⟨_, _, -, h⟩ := bind_eq_ok h
      exact ih h
    · case isFalse hne =>
      obtain ⟨_, _, -, h⟩ := bind_eq_ok h
      cases h
      simp [hlength, hne]

omit hE in
theorem receive_ne_nil (h : receive E length s = .ok data s') : data ≠ [] := by
  obtain ⟨t, _, ht, h⟩ := bind_eq_ok h
  obtain ⟨_, _, hr, h⟩ := bind_eq_ok h
  obtain ⟨⟨-, hlength⟩, -⟩ := require_eq_ok hr
  split at h
  · case isTrue hne =>
    obtain ⟨_, _, -, h⟩ := bind_eq_ok h
    cases h
    simp [hlength, hne]
  · exact receiveFrom_ne_nil hlength h

end TlsConnection

end KernelHttp.Tls
