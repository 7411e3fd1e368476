/-
  The authentication of the server in TLS 1.3 (RFC 8446, section 4.4).

  A handshake that succeeds has read a certificate that is accepted, a signature under its key,
  and a MAC, each over all messages before it.
-/
import KernelHttp.Tls.KeyUpdates

namespace KernelHttp.Tls.TlsConnection

open Program

variable {E : Environment} {options : TlsClientConnectionOptions} {s s' t v : TlsConnection}
  {x : Unit} {entries hellos : List HandshakeEntry}

/-- What three messages of the server prove behind the messages `before`. -/
structure Authenticates (E : Environment) (options : TlsClientConnectionOptions)
    (context : TlsContext) (algorithm : HashAlgorithm) (before : List HandshakeEntry)
    (certificate verify finished : HandshakeEntry) : Prop where
  sender : certificate.sender = .server ∧ verify.sender = .server ∧ finished.sender = .server
  signed : ∃ message view publicKey message' signature,
    parseMessage certificate.octets = .ok message ∧ parseTls13Certificate message = .ok view ∧
    E.validateTls13Certificate options view = .ok publicKey ∧
    parseMessage verify.octets = .ok message' ∧ parseCertificateVerify message' = .ok signature ∧
    E.verifySignature publicKey signature.signatureScheme
      (buildCertificateVerifyInput true (E.keys.hash algorithm
        (transcriptOf E.keys algorithm (octetsOf (before ++ [certificate])))))
      signature.signature = .ok ()
  mac : ∃ message, parseMessage finished.octets = .ok message ∧
    context.verifyFinished E.keys false (E.keys.hash algorithm
      (transcriptOf E.keys algorithm (octetsOf (before ++ [certificate, verify])))) message.body =
        .ok ()

theorem authenticateServer_verifies {certificateMessage : TlsHandshakeMessageView}
    (h : authenticateServer E options certificateMessage s = .ok x s') :
    ∃ view publicKey message signature entry,
      parseTls13Certificate certificateMessage = .ok view ∧
      E.validateTls13Certificate options view = .ok publicKey ∧
      parseMessage entry.octets = .ok message ∧ parseCertificateVerify message = .ok signature ∧
      E.verifySignature publicKey signature.signatureScheme
        (buildCertificateVerifyInput true (E.keys.hash s.transcriptAlgorithm s.transcript))
        signature.signature = .ok () ∧ Hears [entry] s s' := by
  obtain ⟨view, t, ht, h⟩ := bind_eq_ok h
  obtain ⟨hview, rfl⟩ := ofExcept_eq_ok ht
  obtain ⟨publicKey, t, ht, h⟩ := bind_eq_ok h
  obtain ⟨hkey, rfl⟩ := ofFailure_eq_ok ht
  obtain ⟨_, t, ht, h⟩ := bind_eq_ok h
  cases ht
  obtain ⟨message, t, ht, h⟩ := bind_eq_ok h
  obtain ⟨signature, w, hw, h⟩ := bind_eq_ok h
  obtain ⟨hsignature, rfl⟩ := ofExcept_eq_ok hw
  obtain ⟨_, w, hw, h⟩ := bind_eq_ok h
  obtain ⟨hverify, rfl⟩ := ofFailure_eq_ok hw
  obtain ⟨entry, hparsed, hhears⟩ := (readHandshakeMessage_heard ht).hears_appended h
  exact ⟨view, publicKey, message, signature, entry, hview, hkey, hparsed, hsignature, hverify,
    hhears⟩

/-- The transcript behind messages of the server under the handshake keys. -/
theorem HandshakeKeys.heard {agreement : Tls13Agreement} (hkeys : HandshakeKeys E agreement s t)
    (hsaid : SaidHellos E s.lastHandshake agreement hellos) (h : Hears entries t v) :
    v.transcriptAlgorithm = s.context.algorithm ∧
      v.transcript = transcriptOf E.keys s.context.algorithm (octetsOf (hellos ++ entries)) := by
  refine ⟨(congrArg Dialogue.transcriptAlgorithm h.dialogue).trans (by rw [hkeys.dialogue]; rfl), ?_⟩
  rw [octetsOf, List.map_append, transcriptOf_append _ _
    (by rw [List.length_map]; exact hsaid.two_le_length)]
  refine (congrArg Dialogue.transcript h.dialogue).trans ?_
  rw [hkeys.dialogue, hsaid.transcript]
  rfl

/-- **The server is authenticated**: a handshake that succeeds has read, behind the ServerHello and
what follows it, a Certificate that is accepted, a CertificateVerify under its key and a Finished,
each over the transcript of the messages before it, and nothing else from the server. -/
theorem connectTls13_authenticates (hs : s.history.messages = [])
    (h : connectTls13 E options s = .ok x s') :
    ∃ hello before certificate verify finished messages,
      serverHelloIn s'.history.messages = some hello ∧
      s'.history.messages =
        before ++ [certificate, verify, finished] ++ List.map clientEntry messages ∧
      Authenticates E options s'.context (hashForCipherSuite hello.cipherSuite) before certificate
        verify finished := by
  obtain ⟨agreement, t, ht, h⟩ := bind_eq_ok h
  obtain ⟨_, u, hu, h⟩ := bind_eq_ok h
  obtain ⟨_, v, hv, h⟩ := bind_eq_ok h
  obtain ⟨-, hdialogue⟩ := configureApplicationStates_ok h
  obtain ⟨hellos, hsaid, ht'⟩ := (negotiate_ok ht).messages
  rw [hs, List.nil_append] at ht'
  have hkeys := deriveHandshakeKeys_ok hu
  obtain ⟨_, t₀, ht₀, hv⟩ := bind_eq_ok hv
  have hsilent : t₀.dialogue = u.dialogue :=
    Silent.ok (readOptionalCompatibilityChangeCipherSpec_makes dialogue_ignoresReading) ht₀
  obtain ⟨_, t₁, ht₁, hv⟩ := bind_eq_ok hv
  obtain ⟨-, -, first, -, -, hfirst⟩ := readEncryptedExtensions_ok ht₁
  obtain ⟨answer, t₂, ht₂, hv⟩ := bind_eq_ok hv
  obtain ⟨requests, certificate, hcertificate, hrequests, -, -⟩ := readCertificateMessage_ok ht₂
  obtain ⟨_, t₃, ht₃, hv⟩ := bind_eq_ok hv
  obtain ⟨view, publicKey, message, signature, verify, hview, hkey, hparsed, hsignature, hverifies,
    hverify⟩ := authenticateServer_verifies ht₃
  obtain ⟨_, t₄, ht₄, hv⟩ := bind_eq_ok hv
  obtain ⟨body, finished, hbody, hmac, hfinished⟩ := readServerFinished_ok ht₄
  obtain ⟨_, t₅, ht₅, hv⟩ := bind_eq_ok hv
  obtain ⟨hsecrets, hderived⟩ := deriveApplicationSecrets_ok ht₅
  obtain ⟨messages, hsays⟩ := sendClientFlight_ok hv
  -- What has been heard behind the hellos, up to each of the three messages.
  have hto₂ := hfirst.append hrequests
  have hto₂ : Hears ([first] ++ (requests ++ [certificate])) u t₂ := ⟨hto₂.sender,
    hsilent ▸ hto₂.dialogue⟩
  have hto₃ := hto₂.append hverify
  have hto₄ := hto₃.append hfinished
  obtain ⟨halgorithm₂, htranscript₂⟩ := hkeys.heard hsaid hto₂
  obtain ⟨halgorithm₃, htranscript₃⟩ := hkeys.heard hsaid hto₃
  rw [halgorithm₂, htranscript₂] at hverifies
  rw [halgorithm₃, htranscript₃] at hmac
  have hmessages : s'.history.messages =
      (hellos ++ [first] ++ requests) ++ [certificate, verify, finished] ++
        messages.map clientEntry := by
    refine (congrArg Dialogue.messages hdialogue).trans ?_
    refine (congrArg Dialogue.messages hsays).trans ((Dialogue.saidAll_messages _).trans ?_)
    rw [hderived]
    refine congrArg (· ++ _) ((congrArg Dialogue.messages hto₄.dialogue).trans ?_)
    rw [hkeys.dialogue]
    refine (congrArg (· ++ _) ht').trans ?_
    simp only [List.append_assoc, List.cons_append, List.nil_append]
  have hcontext : s'.context = { t₅.context with established := true } := by
    rw [← show v.context = t₅.context from
      (congrArg Dialogue.context hsays).trans (Dialogue.saidAll_context _)]
    exact congrArg Dialogue.context hdialogue
  have hkept : ∀ hash data, s'.context.verifyFinished E.keys false hash data =
      t₃.context.verifyFinished E.keys false hash data := by
    rw [hcontext, ← show t₄.context = t₃.context from
      congrArg Dialogue.context hfinished.dialogue]
    obtain ⟨_, -, hsecrets⟩ := Incremental.bind_eq_ok hsecrets
    obtain ⟨_, -, hsecrets⟩ := Incremental.bind_eq_ok hsecrets
    obtain ⟨_, -, hsecrets⟩ := Incremental.bind_eq_ok hsecrets
    obtain ⟨_, -, hsecrets⟩ := Incremental.bind_eq_ok hsecrets
    obtain ⟨_, -, hsecrets⟩ := Incremental.bind_eq_ok hsecrets
    obtain ⟨_, -, hsecrets⟩ := Incremental.bind_eq_ok hsecrets
    rw [← Except.ok.inj hsecrets]
    exact fun _ _ => rfl
  refine ⟨agreement.serverHello, _, certificate, verify, finished, messages, ?_, hmessages, ?_, ?_, ?_⟩
  · rw [hmessages]
    simp only [List.append_assoc]
    exact hsaid.serverHelloIn_append _
  · exact ⟨hrequests.sender _ (by simp), hverify.sender _ (by simp), hfinished.sender _ (by simp)⟩
  · rw [← (negotiate_ok ht).context.cipherSuite]
    refine ⟨answer.2, view, publicKey, message, signature, hcertificate, hview, hkey, hparsed,
      hsignature, ?_⟩
    simp only [List.append_assoc] at hverifies ⊢
    exact hverifies
  · rw [← (negotiate_ok ht).context.cipherSuite]
    refine ⟨body, hbody, (hkept _ _).trans ?_⟩
    simp only [List.append_assoc, List.cons_append, List.nil_append] at hmac ⊢
    exact hmac

theorem connectTls13_authenticates_separated :
    ∃ hello before certificate verify finished messages,
      serverHelloIn separatedConnection.history.messages = some hello ∧
      separatedConnection.history.messages =
        before ++ [certificate, verify, finished] ++ List.map clientEntry messages ∧
      Authenticates plainEnvironment plainOptions separatedConnection.context
        (hashForCipherSuite hello.cipherSuite) before certificate verify finished :=
  connectTls13_authenticates rfl separatedServer_connects

end KernelHttp.Tls.TlsConnection
