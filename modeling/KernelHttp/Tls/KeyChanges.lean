/-
  Handshake messages and changes of the read key.

  The handshake buffer and the post-handshake loop keep what is left across a change of the key.
-/
import KernelHttp.Tls.CloseNotify
import KernelHttp.Tls.Steps

namespace KernelHttp.Tls

open Program Relation

/-- Every octet of the message has arrived under the key under which it was processed. -/
def HandshakeEntry.OneEpoch (entry : HandshakeEntry) : Prop :=
  ∀ epoch ∈ entry.octetEpochs, epoch = entry.readEpoch

/-- The unread handshake octets have arrived under the current key, and so have those of all
messages, unless a change of the key has left octets unread. -/
def Core.Tagged (c : Core) : Prop :=
  (∀ n ∈ c.leftovers, n = 0) →
    (∀ entry ∈ c.messages, entry.OneEpoch) ∧
    (∀ epoch ∈ c.bufferEpochs.drop c.handshakeConsumed, epoch = c.readEpoch) ∧
    ∀ epoch ∈ c.recordEpochs, epoch = c.readEpoch

namespace Core

variable {c : Core}

theorem Tagged.keyChanged (h : c.Tagged) : c.keyChanged.Tagged := by
  intro hleft
  have hlast : (c.bufferEpochs.drop c.handshakeConsumed ++ c.recordEpochs).length = 0 :=
    hleft _ (List.mem_append_right _ (List.mem_singleton_self _))
  have hnil := List.length_eq_zero_iff.1 hlast
  obtain ⟨hbuffer, hrecord⟩ := List.append_eq_nil_iff.1 hnil
  obtain ⟨hmessages, -, -⟩ := h fun n hn => hleft n (List.mem_append_left _ hn)
  refine ⟨hmessages, ?_, ?_⟩
  · rw [Core.keyChanged, hbuffer]
    nofun
  · rw [Core.keyChanged, hrecord]
    nofun

theorem Tagged.message {entry : HandshakeEntry} (h : c.Tagged)
    (hentry : (∀ n ∈ c.leftovers, n = 0) → entry.OneEpoch) :
    Tagged { c with messages := c.messages ++ [entry] } := by
  intro hleft
  obtain ⟨hmessages, hunread⟩ := h hleft
  refine ⟨fun e he => ?_, hunread⟩
  rcases List.mem_append.1 he with he | he
  · exact hmessages e he
  · obtain rfl := List.mem_singleton.1 he
    exact hentry hleft

theorem Tagged.consumed (h : c.Tagged) (n : ℕ) : (c.consumed n).Tagged := by
  rw [Core.consumed]
  split
  · intro hleft
    obtain ⟨hmessages, -, hrecord⟩ := h hleft
    exact ⟨hmessages, fun _ he => (by cases he), hrecord⟩
  · intro hleft
    obtain ⟨hmessages, hbuffer, hrecord⟩ := h hleft
    refine ⟨hmessages, fun epoch he => hbuffer epoch ?_, hrecord⟩
    rw [← List.drop_drop] at he
    exact List.mem_of_mem_drop he

theorem Tagged.buffered (h : c.Tagged) (fragment : Bytes) : (c.buffered fragment).Tagged := by
  intro hleft
  obtain ⟨hmessages, hbuffer, hrecord⟩ := h hleft
  refine ⟨hmessages, fun epoch he => ?_, hrecord⟩
  rw [Core.buffered, List.drop_append] at he
  rcases List.mem_append.1 he with he | he
  · exact hbuffer epoch he
  · exact List.eq_of_mem_replicate (List.mem_of_mem_drop he)

theorem Tagged.recordMessage (h : c.Tagged) (octets : Bytes) :
    (c.recordMessage octets).Tagged := by
  let entry : HandshakeEntry :=
    { sender := .server
      octets := octets
      octetEpochs := c.recordEpochs.take octets.length
      readEpoch := c.readEpoch }
  have hentry : Tagged { c with messages := c.messages ++ [entry] } :=
    h.message fun hleft epoch he => (h hleft).2.2 epoch (List.mem_of_mem_take he)
  intro hleft
  obtain ⟨hmessages, hbuffer, hrecord⟩ := hentry hleft
  exact ⟨hmessages, hbuffer, fun epoch he => hrecord epoch (List.mem_of_mem_drop he)⟩

variable {d : Core} {E : Environment}

theorem Tagged.step (hstep : Step E c d) (h : c.Tagged) :
    d.Tagged := by
  cases hstep with
  | sent => exact h
  | transcript => exact h
  | clientMessage octets => exact h.message fun _ => nofun
  | bufferedMessage n =>
    exact h.message fun hleft epoch he => (h hleft).2.1 epoch (List.mem_of_mem_take he)
  | recordMessage octets => exact h.recordMessage octets
  | buffered fragment => exact h.buffered fragment
  | compacted =>
    intro hleft
    obtain ⟨hmessages, hbuffer, hrecord⟩ := h hleft
    exact ⟨hmessages, fun epoch he => hbuffer epoch (List.mem_of_mem_drop he), hrecord⟩
  | consumed n => exact h.consumed n
  | recordArrived n =>
    intro hleft
    obtain ⟨hmessages, hbuffer, -⟩ := h hleft
    exact ⟨hmessages, hbuffer, fun _ he => List.eq_of_mem_replicate he⟩
  | ticketStored => exact h
  | clientUpdated => exact h
  | serverUpdated context => exact Tagged.keyChanged (c := { c with context := context }) h

theorem Tagged.handshakeStep (hstep : HandshakeStep E c d) (h : c.Tagged) : d.Tagged := by
  cases hstep with
  | step hstep => exact h.step hstep
  | derived => exact h
  | sentPlain => exact h
  | keyChanged context state =>
    exact Tagged.keyChanged (c := { c with context := context, clientWriteState := state }) h

end Core

namespace TlsConnection

variable (E : Environment) (options : TlsClientConnectionOptions)

/-- In a run of `Connect` and of the calls behind it in which no change of the read key has
left a handshake octet unread, no octet is processed under another key than the one that it
has arrived under. -/
theorem session_oneEpoch (calls : List Call) (s : TlsConnection)
    (h : ∀ n ∈ (session E options calls s).history.leftovers, n = 0) :
    ∀ entry ∈ (session E options calls s).history.messages, entry.OneEpoch := by
  have hstart : (prepared options s).core.Tagged := fun _ => ⟨nofun, nofun, nofun⟩
  exact (invariant_of_steps (fun _ _ hstep => Core.Tagged.handshakeStep hstep)
    (session_steps E options calls s) hstart h).1

end TlsConnection

/-! ## A server -/

def plaintextRecord (contentType : UInt8) (fragment : Bytes) : Bytes :=
  [contentType, 3, 3] ++ BigEndian.bigEndian 2 fragment.length ++ fragment

/-- A ServerHello with TLS_AES_128_GCM_SHA256, with a share of x25519 and further
extensions. -/
def plainServerHello (random extensions : Bytes) : Bytes :=
  let extensions := extensionOctets extensionSupportedVersions [3, 4] ++
    extensionOctets extensionKeyShare [0, 29, 0, 2, 5, 6] ++ extensions
  handshakeMessage .serverHello ([3, 3] ++ random ++ [0, 0x13, 1, 0] ++
    BigEndian.bigEndian 2 extensions.length ++ extensions)

def plainEncryptedExtensions : Bytes := handshakeMessage .encryptedExtensions [0, 0]

/-- A list of one certificate, and a signature; `plainEnvironment` accepts any. -/
def plainCertificate : Bytes := handshakeMessage .certificate [0, 0, 0, 6, 0, 0, 1, 9, 0, 0]

def plainCertificateVerify : Bytes := handshakeMessage .certificateVerify [8, 4, 0, 1, 1]

def plainFinished (psk hellos messages : Bytes) : Bytes :=
  let context : TlsContext := { protocol := .tls13, cipherSuite := .tlsAes128GcmSha256 }
  let verifyData : Except NTSTATUS Bytes := do
    let context ← context.deriveTls13EarlySecret summingKeys psk
    let context ← context.deriveTls13HandshakeSecrets summingKeys [1, 2, 3]
      (summingKeys.hash .sha256 hellos)
    context.computeFinishedData summingKeys false (summingKeys.hash .sha256 (hellos ++ messages)) 32
  handshakeMessage .finished (verifyData.toOption.getD [])

def plainOptions : TlsClientConnectionOptions := { serverName := text "a.b" }

namespace TlsConnection

/-- The ClientHello that `plainEnvironment` makes. -/
def plainClientHello (options : TlsClientConnectionOptions) : Bytes :=
  match (do initializeTls13 plainEnvironment options; offerHello plainEnvironment options)
      (prepared options {}) with
  | .ok offer _ => offer.message
  | .error _ _ => []

/-- The server's messages of a full handshake. -/
def plainFlight : Bytes :=
  plainEncryptedExtensions ++ plainCertificate ++ plainCertificateVerify

def plainHellos : Bytes :=
  plainClientHello plainOptions ++ plainServerHello (List.replicate 32 1) []

/-- The messages behind the ServerHello come in a record of their own. -/
def separatedServer : TlsConnection where
  incoming :=
    [.octets (plaintextRecord 22 (plainServerHello (List.replicate 32 1) []) ++
      plainTls13Record 22 (plainFlight ++ plainFinished [] plainHellos plainFlight))]

/-- EncryptedExtensions comes in the record of the ServerHello, which is not protected. -/
def packingServer : TlsConnection where
  incoming :=
    [.octets (plaintextRecord 22
        (plainServerHello (List.replicate 32 1) [] ++ plainEncryptedExtensions) ++
      plainTls13Record 22 (plainCertificate ++ plainCertificateVerify ++
        plainFinished [] plainHellos plainFlight))]

example : (parseMessage plainEncryptedExtensions).toOption.map (·.type) =
    some .encryptedExtensions := by decide +kernel

theorem session_oneEpoch_separated :
    (∀ n ∈ (session plainEnvironment plainOptions [] separatedServer).history.leftovers, n = 0) ∧
    ∀ entry ∈ (session plainEnvironment plainOptions [] separatedServer).history.messages,
      entry.OneEpoch :=
  have h : ∀ n ∈ (session plainEnvironment plainOptions [] separatedServer).history.leftovers,
      n = 0 := by decide +kernel
  ⟨h, session_oneEpoch plainEnvironment plainOptions [] separatedServer h⟩

/-- The handshake succeeds, with an EncryptedExtensions that was not protected. -/
theorem packingServer_crosses :
    (session plainEnvironment plainOptions [] packingServer).context.established = true ∧
    ∃ entry ∈ (session plainEnvironment plainOptions [] packingServer).history.messages,
      entry.octets = plainEncryptedExtensions ∧ ¬ entry.OneEpoch := by
  refine ⟨by decide +kernel, ⟨.server, plainEncryptedExtensions, List.replicate 6 0, 1⟩,
    by decide +kernel, rfl, fun h => ?_⟩
  cases h 0 (by decide)

end TlsConnection

end KernelHttp.Tls
