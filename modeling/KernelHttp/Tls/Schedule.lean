/-
  The key schedule of RFC 8446, section 7.1.

  Secrets are derived from a schedule and from the messages up to some point (`transcriptOf`).
-/
import KernelHttp.Tls.Connect13

namespace KernelHttp.Tls

open BigEndian

/-! ## The transcript -/

def serverHelloOf (octets : Bytes) : Option Tls13ServerHelloView :=
  (do parseServerHello (← parseMessage octets)).toOption

/-- Whether a message is a HelloRetryRequest. -/
def isHelloRetryRequest (octets : Bytes) : Bool :=
  (serverHelloOf octets).any (·.isHelloRetryRequest)

/-- What the transcript hash is taken of (section 4.4.1): behind a HelloRetryRequest, a
message_hash stands for the first ClientHello. -/
def transcriptOf (K : KeyFunctions) (algorithm : HashAlgorithm) : List Bytes → Bytes
  | clientHello :: answer :: rest =>
    (if isHelloRetryRequest answer then messageHash K algorithm clientHello else clientHello) ++
      answer ++ rest.flatten
  | messages => messages.flatten

theorem transcriptOf_append (K : KeyFunctions) (algorithm : HashAlgorithm) {messages : List Bytes}
    (h : 2 ≤ messages.length) (more : List Bytes) :
    transcriptOf K algorithm (messages ++ more) =
      transcriptOf K algorithm messages ++ more.flatten := by
  match messages, h with
  | clientHello :: answer :: rest, _ =>
    simp only [List.cons_append, transcriptOf, List.flatten_append, List.append_assoc]

/-! ## The secrets -/

/-- What the secrets are extracted from. -/
structure Schedule where
  algorithm : HashAlgorithm
  psk : Option Bytes
  sharedSecret : Bytes

namespace Schedule

variable (K : KeyFunctions) (schedule : Schedule)

/-- `Hash.length`. -/
def hashLength : ℕ := hashDigestLength schedule.algorithm

def deriveSecret (secret label messages : Bytes) : Bytes :=
  K.expandLabel schedule.algorithm secret label (K.hash schedule.algorithm messages)
    schedule.hashLength

def earlySecret : Bytes :=
  K.hkdfExtract schedule.algorithm (zeros schedule.algorithm)
    (schedule.psk.getD (zeros schedule.algorithm))

def handshakeSecret : Bytes :=
  K.hkdfExtract schedule.algorithm
    (schedule.deriveSecret K (schedule.earlySecret K) (text "derived") []) schedule.sharedSecret

def masterSecret : Bytes :=
  K.hkdfExtract schedule.algorithm
    (schedule.deriveSecret K (schedule.handshakeSecret K) (text "derived") [])
    (zeros schedule.algorithm)

def ofHandshake (label messages : Bytes) : Bytes :=
  schedule.deriveSecret K (schedule.handshakeSecret K) label messages

/-- A secret of the application data, by its label. -/
def ofMaster (label messages : Bytes) : Bytes :=
  schedule.deriveSecret K (schedule.masterSecret K) label messages

def clientHandshakeTrafficSecret (messages : Bytes) : Bytes :=
  schedule.ofHandshake K (text "c hs traffic") messages

def serverHandshakeTrafficSecret (messages : Bytes) : Bytes :=
  schedule.ofHandshake K (text "s hs traffic") messages

def clientApplicationTrafficSecret (messages : Bytes) : Bytes :=
  schedule.ofMaster K (text "c ap traffic") messages

def serverApplicationTrafficSecret (messages : Bytes) : Bytes :=
  schedule.ofMaster K (text "s ap traffic") messages

def exporterMasterSecret (messages : Bytes) : Bytes :=
  schedule.ofMaster K (text "exp master") messages

def resumptionMasterSecret (messages : Bytes) : Bytes :=
  schedule.ofMaster K (text "res master") messages

/-- The PSK of a ticket (section 4.6.1). -/
def ticketSecret (messages nonce : Bytes) : Bytes :=
  K.expandLabel schedule.algorithm (schedule.resumptionMasterSecret K messages)
    (text "resumption") nonce schedule.hashLength

/-! ## What a context holds -/

/-- The context holds the early secret, for the hash of its suite. -/
structure EarlySecret (context : TlsContext) : Prop where
  algorithm : context.algorithm = schedule.algorithm
  earlySecret : context.secrets.earlySecret = schedule.earlySecret K
  secretLength : context.secrets.secretLength = schedule.hashLength

/-- The context holds the secrets of the handshake; `hellos` are the messages up to the
ServerHello. -/
structure HandshakeSecrets (hellos : Bytes) (context : TlsContext) : Prop where
  algorithm : context.algorithm = schedule.algorithm
  handshakeSecret : context.secrets.handshakeSecret = schedule.handshakeSecret K
  client : context.secrets.clientHandshakeTrafficSecret =
    schedule.clientHandshakeTrafficSecret K hellos
  server : context.secrets.serverHandshakeTrafficSecret =
    schedule.serverHandshakeTrafficSecret K hellos
  secretLength : context.secrets.secretLength = schedule.hashLength

/-- The context holds the secrets of the application data; all of them are of one transcript,
that of the server's Finished. -/
structure ApplicationSecrets (messages : Bytes) (context : TlsContext) : Prop where
  client : context.secrets.clientApplicationTrafficSecret =
    schedule.clientApplicationTrafficSecret K messages
  server : context.secrets.serverApplicationTrafficSecret =
    schedule.serverApplicationTrafficSecret K messages
  exporter : context.secrets.exporterMasterSecret = schedule.exporterMasterSecret K messages
  resumption : context.secrets.resumptionMasterSecret =
    schedule.resumptionMasterSecret K messages

/-! ## The derivations of `TlsContext` -/

variable {K schedule} {context context' : TlsContext}

open Incremental

variable {messages hellos : Bytes}

/-- `DeriveSecret` of the sources, for the hash of a transcript. -/
theorem deriveSecret_eq_ok {secret label derived : Bytes} {n : ℕ} (hn : n = schedule.hashLength)
    (h : K.deriveSecret schedule.algorithm secret label (K.hash schedule.algorithm messages) n =
      .ok derived) : derived = schedule.deriveSecret K secret label messages := by
  rw [hkdfExpandLabel_eq_ok h, hn]
  rfl

/-- Only the secrets are changed. -/
def SameButSecrets (context context' : TlsContext) : Prop :=
  context' = { context with secrets := context'.secrets }

theorem derivesEarlySecret {psk : Bytes} (halgorithm : context.algorithm = schedule.algorithm)
    (hpsk : psk = schedule.psk.getD []) (hne : ∀ p ∈ schedule.psk, p ≠ [])
    (h : context.deriveTls13EarlySecret K psk = .ok context') :
    schedule.EarlySecret K context' ∧ SameButSecrets context context' := by
  obtain ⟨_, _, h⟩ := bind_eq_ok h
  cases h
  refine ⟨⟨halgorithm, ?_, congrArg hashDigestLength halgorithm⟩, rfl⟩
  simp only [earlySecret, ← halgorithm, hpsk]
  cases hp : schedule.psk with
  | none => rw [Option.getD_none, if_pos rfl, Option.getD_none]
  | some p => rw [Option.getD_some, if_neg (hne p hp), Option.getD_some]

theorem derivesHandshakeSecrets {sharedSecret : Bytes}
    (hearly : schedule.EarlySecret K context) (hshared : sharedSecret = schedule.sharedSecret)
    (h : context.deriveTls13HandshakeSecrets K sharedSecret
      (K.hash schedule.algorithm hellos) = .ok context') :
    schedule.HandshakeSecrets K hellos context' ∧ SameButSecrets context context' := by
  obtain ⟨halgorithm, hsecret, hlength⟩ := hearly
  have hdigest : context.digestLength = schedule.hashLength :=
    congrArg hashDigestLength halgorithm
  have hne : context.secrets.secretLength ≠ 0 := by
    rw [hlength, ← hdigest]
    have := context.digestLength_cases
    omega
  obtain ⟨_, _, h⟩ := bind_eq_ok h
  rw [if_neg hne] at h
  obtain ⟨derived, hderived, h⟩ := bind_eq_ok h
  obtain ⟨client, hclient, h⟩ := bind_eq_ok h
  obtain ⟨server, hserver, h⟩ := bind_eq_ok h
  cases h
  rw [halgorithm] at hderived hclient hserver
  rw [deriveSecret_eq_ok hdigest hderived, hsecret, hshared] at hclient hserver
  have hhandshake : K.hkdfExtract context.algorithm derived sharedSecret =
      schedule.handshakeSecret K := by
    rw [halgorithm, deriveSecret_eq_ok hdigest hderived, hsecret, hshared]
    rfl
  exact ⟨⟨halgorithm, hhandshake, deriveSecret_eq_ok hdigest hclient,
    deriveSecret_eq_ok hdigest hserver, hdigest⟩, rfl⟩

theorem derivesApplicationSecrets (hhandshake : schedule.HandshakeSecrets K hellos context)
    (h : context.deriveTls13ApplicationSecrets K (K.hash schedule.algorithm messages) =
      .ok context') :
    schedule.HandshakeSecrets K hellos context' ∧ schedule.ApplicationSecrets K messages context' ∧
      SameButSecrets context context' := by
  obtain ⟨halgorithm, hsecret, hclientHandshake, hserverHandshake, hlength⟩ := hhandshake
  have hdigest : context.digestLength = schedule.hashLength :=
    congrArg hashDigestLength halgorithm
  obtain ⟨_, _, h⟩ := bind_eq_ok h
  obtain ⟨derived, hderived, h⟩ := bind_eq_ok h
  obtain ⟨client, hclient, h⟩ := bind_eq_ok h
  obtain ⟨server, hserver, h⟩ := bind_eq_ok h
  obtain ⟨exporter, hexporter, h⟩ := bind_eq_ok h
  obtain ⟨resumption, hresumption, h⟩ := bind_eq_ok h
  cases h
  rw [halgorithm] at hderived hclient hserver hexporter hresumption
  have hmaster : K.hkdfExtract schedule.algorithm derived (zeros schedule.algorithm) =
      schedule.masterSecret K := by
    rw [deriveSecret_eq_ok hdigest hderived, hsecret]
    rfl
  rw [hmaster] at hclient hserver hexporter hresumption
  exact ⟨⟨halgorithm, hsecret, hclientHandshake, hserverHandshake, hlength⟩,
    ⟨deriveSecret_eq_ok hdigest hclient, deriveSecret_eq_ok hdigest hserver,
      deriveSecret_eq_ok hdigest hexporter, deriveSecret_eq_ok hdigest hresumption⟩, rfl⟩

end Schedule

/-! ## Binders -/

/-- The binder of a PSK of an earlier connection (section 4.2.11.2). -/
def pskBinder (K : KeyFunctions) (algorithm : HashAlgorithm) (psk messages : Bytes) : Bytes :=
  let n := hashDigestLength algorithm
  let earlySecret := K.hkdfExtract algorithm (zeros algorithm) psk
  let binderKey := K.expandLabel algorithm earlySecret (text "res binder") (K.hash algorithm []) n
  let finishedKey := K.expandLabel algorithm binderKey (text "finished") [] n
  K.hmac algorithm finishedKey (K.hash algorithm messages)

theorem computePskBinder_eq_ok {K : KeyFunctions} {context : TlsContext}
    {psk messages binder : Bytes} (h : context.computePskBinder K psk
      (K.hash context.algorithm messages) = .ok binder) :
    binder = pskBinder K context.algorithm psk messages := by
  obtain ⟨_, _, h⟩ := Incremental.bind_eq_ok h
  obtain ⟨_, _, h⟩ := Incremental.bind_eq_ok h
  obtain ⟨binderKey, hbinderKey, h⟩ := Incremental.bind_eq_ok h
  obtain ⟨finishedKey, hfinishedKey, h⟩ := Incremental.bind_eq_ok h
  cases h
  rw [hkdfExpandLabel_eq_ok hfinishedKey, hkdfExpandLabel_eq_ok hbinderKey]
  rfl

end KernelHttp.Tls
