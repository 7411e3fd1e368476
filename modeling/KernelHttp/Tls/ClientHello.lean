/-
  The ClientHello as it is encoded.

  A parser of RFC 8446 reads back what `EncodeClientHello` writes.
-/
import KernelHttp.Tls.Schedule

namespace KernelHttp.Tls

open BigEndian Incremental

/-! ## Reading what was written -/

variable {data octets clientRandom message : Bytes} {entries : List (ℕ × Bytes)}
    {pskIdentities : List Tls13PskIdentity} {options : Tls13ClientHelloOptions}
    {n v type capacity : ℕ}

theorem readBytes_append (h : data.length = n) (rest : Bytes) :
    readBytes n (data ++ rest) = .ok (data, rest) := by
  subst h
  rw [readBytes, if_neg (by rw [List.length_append]; omega), List.take_left, List.drop_left]

/-- A number, by the octets that spell it. -/
theorem readUint_octets (h : data.length = n) (hv : ofBigEndian data = v)
    (rest : Bytes) : readUint n (data ++ rest) = .ok (v, rest) := by
  subst hv
  exact bind_of_ok (readBytes_append h rest) _

theorem readUint_append (h : v < 256 ^ n) (rest : Bytes) :
    readUint n (bigEndian n v ++ rest) = .ok (v, rest) := by
  exact readUint_octets (bigEndian_length n v) (ofBigEndian_bigEndian h) rest

theorem readUint16_append (h : v < 65536) (rest : Bytes) :
    readUint16 (bigEndian 2 v ++ rest) = .ok (v, rest) := readUint_append h rest

theorem parseMessage_handshakeMessage {type : TlsHandshakeType} {body : Bytes}
    (h : body.length < 2 ^ 24) : parseMessage (handshakeMessage type body) = .ok ⟨type, body⟩ := by
  obtain ⟨l₁, l₂, l₃, hlength⟩ : ∃ l₁ l₂ l₃, bigEndian 3 body.length = [l₁, l₂, l₃] :=
    ⟨_, _, _, rfl⟩
  have hvalue : ofBigEndian [l₁, l₂, l₃] = body.length := by
    rw [← hlength]
    exact ofBigEndian_bigEndian h
  rw [handshakeMessage, hlength]
  simp only [List.cons_append, List.nil_append, parseMessage, hvalue, lt_irrefl, if_false,
    List.take_length]

/-! ## Extension blocks -/

def extensionBlock (entries : List (ℕ × Bytes)) : Bytes :=
  entries.flatMap fun entry => extensionOctets entry.1 entry.2

theorem extensionBlock_append (entries more : List (ℕ × Bytes)) :
    extensionBlock (entries ++ more) = extensionBlock entries ++ extensionBlock more :=
  List.flatMap_append

theorem extensionBlock_singleton (type : ℕ) (data : Bytes) :
    extensionBlock [(type, data)] = extensionOctets type data := List.flatMap_singleton ..

theorem extensionBlock_cons (entry : ℕ × Bytes) (entries : List (ℕ × Bytes)) :
    extensionBlock (entry :: entries) =
      extensionOctets entry.1 entry.2 ++ extensionBlock entries := List.flatMap_cons ..

theorem extensionOctets_length (type : ℕ) (data : Bytes) :
    (extensionOctets type data).length = 4 + data.length := by
  simp only [extensionOctets, List.length_append, bigEndian_length]

/-- The types and the lengths fit their fields. -/
def Encodable (entries : List (ℕ × Bytes)) : Prop :=
  ∀ entry ∈ entries, entry.1 < 65536 ∧ entry.2.length < 65536

theorem encodable_of_block_length
    (htypes : ∀ entry ∈ entries, entry.1 < 65536) (h : (extensionBlock entries).length < 65536) :
    Encodable entries := by
  intro entry hentry
  obtain ⟨before, behind, rfl⟩ := List.append_of_mem hentry
  rw [extensionBlock_append, extensionBlock_cons, List.length_append, List.length_append,
    extensionOctets_length] at h
  exact ⟨htypes entry hentry, by omega⟩

theorem length_le_extensionBlock (entries : List (ℕ × Bytes)) :
    entries.length ≤ (extensionBlock entries).length := by
  induction entries with
  | nil => exact Nat.zero_le _
  | cons entry entries ih =>
    rw [extensionBlock_cons, List.length_append, extensionOctets_length, List.length_cons]
    omega

theorem extensionOctets_ne_nil (type : ℕ) (data rest : Bytes) :
    extensionOctets type data ++ rest ≠ [] := by
  intro h
  have hlength := congrArg List.length h
  rw [List.length_append, extensionOctets_length, List.length_nil] at hlength
  omega

theorem extensionOctets_append (type : ℕ) (data rest : Bytes) :
    extensionOctets type data ++ rest =
      bigEndian 2 type ++ (bigEndian 2 data.length ++ (data ++ rest)) := by
  simp only [extensionOctets, List.append_assoc]

theorem extensionsFrom_block (h : Encodable entries) :
    ∀ fuel, entries.length ≤ fuel → extensionsFrom fuel (extensionBlock entries) = .ok entries := by
  induction entries with
  | nil =>
    intro fuel _
    cases fuel with
    | zero => rfl
    | succ fuel => rfl
  | cons entry entries ih =>
    intro fuel hfuel
    obtain ⟨type, data⟩ := entry
    obtain ⟨htype, hdata⟩ := h _ List.mem_cons_self
    obtain ⟨fuel, rfl⟩ : ∃ k, fuel = k + 1 := ⟨fuel - 1, by rw [List.length_cons] at hfuel; omega⟩
    have hrest := ih (fun e he => h e (List.mem_cons_of_mem _ he)) fuel
      (by rw [List.length_cons] at hfuel; omega)
    rw [extensionBlock_cons, extensionsFrom.eq_3 _ _ (extensionOctets_ne_nil _ _ _),
      extensionOctets_append]
    refine (bind_of_ok (readUint16_append htype _) _).trans ?_
    refine (bind_of_ok (readUint16_append hdata _) _).trans ?_
    refine (bind_of_ok (readBytes_append rfl _) _).trans ?_
    exact bind_of_ok hrest _

theorem extensionsOf_block (h : Encodable entries) :
    extensionsOf (extensionBlock entries) = .ok entries :=
  extensionsFrom_block h _ (length_le_extensionBlock entries)

/-! ## What is encoded -/

def serverNameEntries (serverName : Bytes) : List (ℕ × Bytes) :=
  if serverName = [] then []
  else [(extensionServerName,
    bigEndian 2 (serverName.length + 3) ++ [0] ++ bigEndian 2 serverName.length ++ serverName)]

def uint16VectorEntry (type : ℕ) (values : List ℕ) : ℕ × Bytes :=
  (type, bigEndian 2 (values.length * 2) ++ values.flatMap (bigEndian 2))

/-- The extensions that do not depend on the options. -/
def constantEntries : List (ℕ × Bytes) :=
  [(extensionSupportedVersions, [2] ++ bigEndian 2 tls13Version),
   uint16VectorEntry extensionSupportedGroups (defaultNamedGroups.map (·.value)),
   uint16VectorEntry extensionSignatureAlgorithms (defaultSignatureSchemes.map (·.value)),
   uint16VectorEntry extensionSignatureAlgorithmsCert (defaultSignatureSchemes.map (·.value))]

def keyShareEntries (keyShares : List Tls13KeyShareEntry) : List (ℕ × Bytes) :=
  if keyShares = [] then []
  else [(extensionKeyShare, bigEndian 2 (keyShares.flatMap keyShareOctets).length ++
    keyShares.flatMap keyShareOctets)]

def alpnOctets (alpnProtocols : List Bytes) : Bytes :=
  alpnProtocols.flatMap fun name => UInt8.ofNat name.length :: name

def alpnEntries (alpnProtocols : List Bytes) : List (ℕ × Bytes) :=
  if alpnProtocols = [] then []
  else [(extensionAlpn,
    bigEndian 2 (alpnOctets alpnProtocols).length ++ alpnOctets alpnProtocols)]

def earlyDataEntries (enabled : Bool) : List (ℕ × Bytes) :=
  if enabled then [(extensionEarlyData, [])] else []

/-- The identities of a pre_shared_key extension, with their length. -/
def pskIdentitiesOctets (pskIdentities : List Tls13PskIdentity) : Bytes :=
  bigEndian 2 (pskIdentities.flatMap pskIdentityOctets).length ++
    pskIdentities.flatMap pskIdentityOctets

/-- The binders of a pre_shared_key extension, with their length. -/
def pskBindersOctets (pskIdentities : List Tls13PskIdentity) : Bytes :=
  bigEndian 2 (pskIdentities.flatMap pskBinderOctets).length ++
    pskIdentities.flatMap pskBinderOctets

/-- The PSKs; the extension is the last one. -/
def pskEntries (pskIdentities : List Tls13PskIdentity) : List (ℕ × Bytes) :=
  if pskIdentities = [] then []
  else [(extensionPreSharedKey,
    pskIdentitiesOctets pskIdentities ++ pskBindersOctets pskIdentities)]

/-- The extensions in front of the PSKs. -/
def entriesBeforePsk (options : Tls13ClientHelloOptions) : List (ℕ × Bytes) :=
  serverNameEntries options.serverName ++ constantEntries ++ keyShareEntries options.keyShares ++
    [(extensionPskKeyExchangeModes, [1, 1])] ++ alpnEntries options.alpnProtocols ++
    earlyDataEntries options.offerEarlyData

def clientHelloEntries (options : Tls13ClientHelloOptions) : List (ℕ × Bytes) :=
  entriesBeforePsk options ++ pskEntries options.pskIdentities

theorem buildServerNameExtension_eq_ok {serverName : Bytes}
    (h : buildServerNameExtension serverName = .ok octets) :
    octets = extensionBlock (serverNameEntries serverName) := by
  rw [buildServerNameExtension] at h
  rw [serverNameEntries]
  split_ifs at h ⊢ with hnil hvalid
  · exact (Except.ok.inj h).symm
  · rw [extensionBlock_singleton]
    exact (Except.ok.inj h).symm

theorem buildUint16VectorExtension_eq_ok {values : List ℕ}
    (hne : values ≠ []) (h : buildUint16VectorExtension type values = .ok octets) :
    octets = extensionBlock [uint16VectorEntry type values] := by
  rw [buildUint16VectorExtension, if_neg hne] at h
  split_ifs at h
  rw [uint16VectorEntry, extensionBlock_singleton]
  exact (Except.ok.inj h).symm

theorem buildKeyShareExtension_eq_ok {keyShares : List Tls13KeyShareEntry}
    (h : buildKeyShareExtension keyShares = .ok octets) :
    octets = extensionBlock (keyShareEntries keyShares) := by
  rw [buildKeyShareExtension] at h
  dsimp only at h
  rw [keyShareEntries]
  split_ifs at h ⊢
  · exact (Except.ok.inj h).symm
  · rw [extensionBlock_singleton]
    exact (Except.ok.inj h).symm

theorem buildAlpnExtension_eq_ok {alpnProtocols : List Bytes}
    (h : buildAlpnExtension alpnProtocols = .ok octets) :
    octets = extensionBlock (alpnEntries alpnProtocols) := by
  rw [buildAlpnExtension] at h
  dsimp only at h
  rw [alpnEntries]
  split_ifs at h ⊢
  · exact (Except.ok.inj h).symm
  · rw [extensionBlock_singleton]
    exact (Except.ok.inj h).symm

theorem buildEarlyDataExtension_eq (enabled : Bool) :
    buildEarlyDataExtension enabled = extensionBlock (earlyDataEntries enabled) := by
  cases enabled with
  | true => exact (extensionBlock_singleton _ _).symm
  | false => rfl

theorem buildPreSharedKeyExtension_eq_ok
    (h : buildPreSharedKeyExtension pskIdentities = .ok octets) :
    octets = extensionBlock (pskEntries pskIdentities) := by
  rw [buildPreSharedKeyExtension] at h
  dsimp only at h
  rw [pskEntries]
  split_ifs at h ⊢
  · exact (Except.ok.inj h).symm
  · rw [extensionBlock_singleton, pskIdentitiesOctets, pskBindersOctets, ← List.append_assoc]
    exact (Except.ok.inj h).symm

theorem clientHelloExtensions_eq_ok (h : clientHelloExtensions options = .ok octets) :
    octets = extensionBlock (clientHelloEntries options) := by
  obtain ⟨serverName, hserverName, h⟩ := bind_eq_ok h
  obtain ⟨groups, hgroups, h⟩ := bind_eq_ok h
  obtain ⟨schemes, hschemes, h⟩ := bind_eq_ok h
  obtain ⟨certSchemes, hcertSchemes, h⟩ := bind_eq_ok h
  obtain ⟨keyShare, hkeyShare, h⟩ := bind_eq_ok h
  obtain ⟨alpn, halpn, h⟩ := bind_eq_ok h
  obtain ⟨preSharedKey, hpreSharedKey, h⟩ := bind_eq_ok h
  cases h
  rw [buildServerNameExtension_eq_ok hserverName, buildKeyShareExtension_eq_ok hkeyShare,
    buildUint16VectorExtension_eq_ok (by decide) hgroups,
    buildUint16VectorExtension_eq_ok (by decide) hschemes,
    buildUint16VectorExtension_eq_ok (by decide) hcertSchemes, buildAlpnExtension_eq_ok halpn,
    buildPreSharedKeyExtension_eq_ok hpreSharedKey, buildEarlyDataExtension_eq,
    buildSupportedVersionsExtension, buildPskModesExtension, ← extensionBlock_singleton,
    ← extensionBlock_singleton]
  simp only [← extensionBlock_append]
  congr 1
  simp only [clientHelloEntries, entriesBeforePsk, constantEntries, List.append_assoc,
    List.cons_append, List.nil_append]

/-- What is encoded, and that its lengths fit. -/
theorem encodeClientHello_eq_ok
    (h : encodeClientHello clientRandom options capacity = .ok message) :
    message = handshakeMessage .clientHello (clientHelloFields clientRandom ++
      bigEndian 2 (extensionBlock (clientHelloEntries options)).length ++
        extensionBlock (clientHelloEntries options)) ∧
    (extensionBlock (clientHelloEntries options)).length ≤ 4096 ∧
    (clientHelloFields clientRandom ++
      bigEndian 2 (extensionBlock (clientHelloEntries options)).length ++
        extensionBlock (clientHelloEntries options)).length ≤ 4096 := by
  obtain ⟨extensions, hextensions, h⟩ := bind_eq_ok h
  obtain rfl := clientHelloExtensions_eq_ok hextensions
  obtain ⟨_, hlength, h⟩ := bind_eq_ok h
  obtain ⟨_, hbody, h⟩ := bind_eq_ok h
  obtain ⟨_, _, h⟩ := bind_eq_ok h
  cases h
  exact ⟨rfl, ensure_eq_ok hlength, ensure_eq_ok hbody⟩

/-! ## The types of the extensions -/

def OfType (type : ℕ) (entries : List (ℕ × Bytes)) : Prop := ∀ entry ∈ entries, entry.1 = type

theorem ofType_nil (type : ℕ) : OfType type [] := nofun

theorem ofType_singleton (type : ℕ) (data : Bytes) : OfType type [(type, data)] := by
  intro entry hentry
  rw [List.mem_singleton.1 hentry]

theorem serverNameEntries_ofType (serverName : Bytes) :
    OfType extensionServerName (serverNameEntries serverName) := by
  rw [serverNameEntries]
  split
  · exact ofType_nil _
  · exact ofType_singleton _ _

theorem keyShareEntries_ofType (keyShares : List Tls13KeyShareEntry) :
    OfType extensionKeyShare (keyShareEntries keyShares) := by
  rw [keyShareEntries]
  split
  · exact ofType_nil _
  · exact ofType_singleton _ _

theorem alpnEntries_ofType (alpnProtocols : List Bytes) :
    OfType extensionAlpn (alpnEntries alpnProtocols) := by
  rw [alpnEntries]
  split
  · exact ofType_nil _
  · exact ofType_singleton _ _

theorem earlyDataEntries_ofType (enabled : Bool) :
    OfType extensionEarlyData (earlyDataEntries enabled) := by
  rw [earlyDataEntries]
  split
  · exact ofType_singleton _ _
  · exact ofType_nil _

theorem pskEntries_ofType (pskIdentities : List Tls13PskIdentity) :
    OfType extensionPreSharedKey (pskEntries pskIdentities) := by
  rw [pskEntries]
  split
  · exact ofType_nil _
  · exact ofType_singleton _ _

/-- What an extension type carries in a list of extensions. -/
def dataOf (type : ℕ) (entries : List (ℕ × Bytes)) : List Bytes :=
  (entries.filter (·.1 = type)).map (·.2)

theorem dataOf_append (type : ℕ) (entries more : List (ℕ × Bytes)) :
    dataOf type (entries ++ more) = dataOf type entries ++ dataOf type more := by
  rw [dataOf, List.filter_append, List.map_append]
  rfl

theorem dataOf_eq_nil (h : ∀ entry ∈ entries, entry.1 ≠ type) : dataOf type entries = [] := by
  rw [dataOf, List.filter_eq_nil_iff.2 fun entry hentry => by simpa using h entry hentry,
    List.map_nil]

theorem OfType.dataOf_ne {type' : ℕ} (h : OfType type entries)
    (hne : type ≠ type') : dataOf type' entries = [] :=
  dataOf_eq_nil fun entry hentry => by rw [h entry hentry]; exact hne

theorem OfType.dataOf_eq (h : OfType type entries) :
    dataOf type entries = entries.map (·.2) := by
  rw [dataOf, List.filter_eq_self.2 fun entry hentry => by simpa using h entry hentry]

/-- The extensions in front of the PSKs, one of their parts at a time. -/
theorem entriesBeforePsk_forall {P : ℕ → Prop} (options : Tls13ClientHelloOptions)
    (hserverName : P extensionServerName) (hconstant : ∀ entry ∈ constantEntries, P entry.1)
    (hkeyShare : P extensionKeyShare) (hmodes : P extensionPskKeyExchangeModes)
    (halpn : P extensionAlpn) (hearly : P extensionEarlyData) :
    ∀ entry ∈ entriesBeforePsk options, P entry.1 := by
  intro entry hentry
  simp only [entriesBeforePsk, List.mem_append, List.mem_singleton] at hentry
  rcases hentry with ((((hentry | hentry) | hentry) | rfl) | hentry) | hentry
  · rwa [serverNameEntries_ofType _ entry hentry]
  · exact hconstant entry hentry
  · rwa [keyShareEntries_ofType _ entry hentry]
  · exact hmodes
  · rwa [alpnEntries_ofType _ entry hentry]
  · rwa [earlyDataEntries_ofType _ entry hentry]

theorem clientHelloEntries_encodable
    (h : (extensionBlock (clientHelloEntries options)).length ≤ 4096) :
    Encodable (clientHelloEntries options) := by
  refine encodable_of_block_length (fun entry hentry => ?_) (by omega)
  rcases List.mem_append.1 hentry with hentry | hentry
  · exact entriesBeforePsk_forall (P := (· < 65536)) options (by decide) (by decide) (by decide)
      (by decide) (by decide) (by decide) entry hentry
  · rw [pskEntries_ofType _ entry hentry]
    decide

/-! ## A parser of RFC 8446 -/

/-- A ClientHello (section 4.1.2). -/
structure ClientHelloView where
  legacyVersion : Bytes
  random : Bytes
  sessionId : Bytes
  cipherSuites : Bytes
  compressionMethods : Bytes
  extensions : List (ℕ × Bytes)

def parseClientHello (message : TlsHandshakeMessageView) : Except NTSTATUS ClientHelloView := do
  ensure (message.type = .clientHello) statusInvalidNetworkResponse
  let (legacyVersion, rest) ← readBytes 2 message.body
  let (random, rest) ← readBytes tlsRandomLength rest
  let (sessionIdLength, rest) ← readByte rest
  let (sessionId, rest) ← readBytes sessionIdLength rest
  let (cipherSuitesLength, rest) ← readUint16 rest
  let (cipherSuites, rest) ← readBytes cipherSuitesLength rest
  let (compressionMethodsLength, rest) ← readByte rest
  let (compressionMethods, rest) ← readBytes compressionMethodsLength rest
  let (extensionsLength, rest) ← readUint16 rest
  ensure (extensionsLength = rest.length) statusInvalidNetworkResponse
  let extensions ← extensionsOf rest
  return { legacyVersion, random, sessionId, cipherSuites, compressionMethods, extensions }

def clientHelloOf (octets : Bytes) : Option ClientHelloView :=
  (do parseClientHello (← parseMessage octets)).toOption

def encodedClientHello (clientRandom : Bytes) (options : Tls13ClientHelloOptions) :
    ClientHelloView where
  legacyVersion := [3, 3]
  random := clientRandom
  sessionId := []
  cipherSuites := defaultCipherSuites.flatMap fun suite => bigEndian 2 (tls13CipherSuiteValue suite)
  compressionMethods := [0]
  extensions := clientHelloEntries options

/-- The fields in front of the extensions, with what follows them. -/
theorem clientHelloFields_append (clientRandom rest : Bytes) :
    clientHelloFields clientRandom ++ rest =
      [3, 3] ++ (clientRandom ++ ([0] ++ ([0, 6] ++ ([19, 1, 19, 2, 19, 3] ++ ([1] ++
        ([0] ++ rest)))))) := by
  simp only [clientHelloFields, List.append_assoc]
  rfl

theorem clientHelloOf_encoded (hrandom : clientRandom.length = tlsRandomLength)
    (h : encodeClientHello clientRandom options capacity = .ok message) :
    clientHelloOf message = some (encodedClientHello clientRandom options) := by
  obtain ⟨rfl, hblock, hbody⟩ := encodeClientHello_eq_ok h
  have hextensions := extensionsOf_block (clientHelloEntries_encodable hblock)
  have hlength : (extensionBlock (clientHelloEntries options)).length < 65536 := by omega
  generalize hE : extensionBlock (clientHelloEntries options) = block at *
  have hparse : parseClientHello ⟨.clientHello, clientHelloFields clientRandom ++
      (bigEndian 2 block.length ++ block)⟩ = .ok (encodedClientHello clientRandom options) := by
    refine (bind_of_ok (ensure_of rfl _) _).trans ?_
    dsimp only
    rw [clientHelloFields_append]
    refine (bind_of_ok (readBytes_append rfl _) _).trans ?_
    refine (bind_of_ok (readBytes_append hrandom _) _).trans ?_
    refine (bind_of_ok (readUint_octets rfl (by decide : ofBigEndian [0] = 0) _) _).trans ?_
    refine (bind_of_ok (readBytes_append (List.length_nil (α := UInt8)) _) _).trans ?_
    refine (bind_of_ok (readUint_octets rfl (by decide : ofBigEndian [0, 6] = 6) _) _).trans ?_
    refine (bind_of_ok (readBytes_append (by decide : [19, 1, 19, 2, 19, 3].length = 6) _) _).trans ?_
    refine (bind_of_ok (readUint_octets rfl (by decide : ofBigEndian [1] = 1) _) _).trans ?_
    refine (bind_of_ok (readBytes_append (by decide : [0].length = 1) _) _).trans ?_
    refine (bind_of_ok (readUint16_append hlength _) _).trans ?_
    refine (bind_of_ok (ensure_of rfl _) _).trans ?_
    exact bind_of_ok hextensions _
  rw [List.append_assoc] at hbody ⊢
  refine congrArg Except.toOption ((bind_of_ok (parseMessage_handshakeMessage ?_) _).trans hparse)
  omega

/-! ## The binders -/

/-- What stands before the binders of a ClientHello. -/
def truncatedClientHello (clientRandom : Bytes) (options : Tls13ClientHelloOptions) : Bytes :=
  let extensionsLength := (extensionBlock (clientHelloEntries options)).length
  TlsHandshakeType.clientHello.octet ::
      bigEndian 3 ((clientHelloFields clientRandom).length + 2 + extensionsLength) ++
    clientHelloFields clientRandom ++ bigEndian 2 extensionsLength ++
    extensionBlock (entriesBeforePsk options) ++ bigEndian 2 extensionPreSharedKey ++
    bigEndian 2 ((pskIdentitiesOctets options.pskIdentities).length +
      (pskBindersOctets options.pskIdentities).length) ++
    pskIdentitiesOctets options.pskIdentities

theorem truncatedClientHello_withBinder {binder : Bytes}
    (h : ∀ psk ∈ options.pskIdentities, psk.binder.length = binder.length) :
    truncatedClientHello clientRandom (options.withBinder binder) =
      truncatedClientHello clientRandom options := by
  have hidentities : pskIdentitiesOctets (options.withBinder binder).pskIdentities =
      pskIdentitiesOctets options.pskIdentities := by
    simp only [pskIdentitiesOctets, Tls13ClientHelloOptions.withBinder, List.flatMap_map]
    rfl
  have hbinders : (pskBindersOctets (options.withBinder binder).pskIdentities).length =
      (pskBindersOctets options.pskIdentities).length := by
    simp only [pskBindersOctets, Tls13ClientHelloOptions.withBinder, List.flatMap_map,
      List.length_append, bigEndian_length, List.length_flatMap]
    congr 2
    refine List.map_congr_left fun psk hpsk => ?_
    simp only [pskBinderOctets, List.length_cons, h psk hpsk]
  have hblock : (extensionBlock (clientHelloEntries (options.withBinder binder))).length =
      (extensionBlock (clientHelloEntries options)).length := by
    have hnil : (options.withBinder binder).pskIdentities = [] ↔ options.pskIdentities = [] :=
      List.map_eq_nil_iff
    have hbefore : entriesBeforePsk (options.withBinder binder) = entriesBeforePsk options := rfl
    simp only [clientHelloEntries, extensionBlock_append, List.length_append, hbefore, pskEntries,
      hnil]
    split
    · rfl
    · simp only [extensionBlock_singleton, extensionOctets_length, List.length_append, hidentities,
        hbinders]
  simp only [truncatedClientHello, hidentities, hbinders, hblock]
  rfl

theorem encodeClientHello_truncated (hpsk : options.pskIdentities ≠ [])
    (h : encodeClientHello clientRandom options capacity = .ok message) :
    message =
      truncatedClientHello clientRandom options ++ pskBindersOctets options.pskIdentities := by
  obtain ⟨rfl, -, -⟩ := encodeClientHello_eq_ok h
  have hblock : extensionBlock (clientHelloEntries options) =
      extensionBlock (entriesBeforePsk options) ++ extensionOctets extensionPreSharedKey
        (pskIdentitiesOctets options.pskIdentities ++ pskBindersOctets options.pskIdentities) := by
    rw [clientHelloEntries, extensionBlock_append, pskEntries, if_neg hpsk,
      extensionBlock_singleton]
  simp only [handshakeMessage, truncatedClientHello, List.length_append, bigEndian_length]
  nth_rewrite 3 [hblock]
  simp only [extensionOctets, List.length_append, List.append_assoc, List.cons_append]

theorem findPskBinders_block
    (hne : ∀ entry ∈ entries, entry.1 ≠ extensionPreSharedKey) (hencodable : Encodable entries)
    (hlength : data.length < 65536) (hoffset : pskBinderOffset data = .ok n) :
    ∀ fuel offset, entries.length < fuel →
      findPskBinders fuel offset (extensionBlock (entries ++ [(extensionPreSharedKey, data)])) =
        .ok (offset + (extensionBlock entries).length + 4 + n) := by
  induction entries with
  | nil =>
    intro fuel offset hfuel
    obtain ⟨fuel, rfl⟩ : ∃ k, fuel = k + 1 := ⟨fuel - 1, by omega⟩
    rw [List.nil_append, extensionBlock_cons,
      findPskBinders.eq_3 _ _ _ (extensionOctets_ne_nil _ _ _), extensionOctets_append]
    have htype : extensionPreSharedKey < 65536 := by decide
    refine (bind_of_ok (readUint16_append htype _) _).trans ?_
    refine (bind_of_ok (readUint16_append hlength _) _).trans ?_
    refine (bind_of_ok (readBytes_append rfl _) _).trans ?_
    dsimp only
    rw [if_neg (not_not.2 rfl)]
    refine (bind_of_ok (ensure_of rfl _) _).trans ?_
    exact bind_of_ok hoffset _
  | cons entry entries ih =>
    intro fuel offset hfuel
    obtain ⟨type, extension⟩ := entry
    obtain ⟨htype, hextension⟩ := hencodable _ List.mem_cons_self
    obtain ⟨fuel, rfl⟩ : ∃ k, fuel = k + 1 := ⟨fuel - 1, by omega⟩
    have hrest := ih (fun e he => hne e (List.mem_cons_of_mem _ he))
      (fun e he => hencodable e (List.mem_cons_of_mem _ he)) fuel (offset + 4 + extension.length)
      (by rw [List.length_cons] at hfuel; omega)
    rw [List.cons_append, extensionBlock_cons,
      findPskBinders.eq_3 _ _ _ (extensionOctets_ne_nil _ _ _), extensionOctets_append]
    refine (bind_of_ok (readUint16_append htype _) _).trans ?_
    refine (bind_of_ok (readUint16_append hextension _) _).trans ?_
    refine (bind_of_ok (readBytes_append rfl _) _).trans ?_
    dsimp only
    rw [if_pos (hne _ List.mem_cons_self), hrest, extensionBlock_cons, List.length_append,
      extensionOctets_length]
    dsimp only
    congr 1
    omega

theorem pskBinderOffset_octets (hne : pskIdentities ≠ [])
    (hlength : (pskIdentitiesOctets pskIdentities ++ pskBindersOctets pskIdentities).length < 65536) :
    pskBinderOffset (pskIdentitiesOctets pskIdentities ++ pskBindersOctets pskIdentities) =
      .ok (pskIdentitiesOctets pskIdentities).length := by
  obtain ⟨psk, rest, rfl⟩ := List.exists_cons_of_ne_nil hne
  have hidentity : 0 < (pskIdentityOctets psk).length := by
    simp only [pskIdentityOctets, List.length_append, bigEndian_length]
    omega
  have hbinder : 0 < (pskBinderOctets psk).length := Nat.succ_pos _
  have hidentities : ((psk :: rest).flatMap pskIdentityOctets).length ≠ 0 := by
    rw [List.flatMap_cons, List.length_append]
    omega
  have hbinders : ((psk :: rest).flatMap pskBinderOctets).length ≠ 0 := by
    rw [List.flatMap_cons, List.length_append]
    omega
  simp only [pskIdentitiesOctets, pskBindersOctets] at hlength ⊢
  generalize (psk :: rest).flatMap pskIdentityOctets = identities at *
  generalize (psk :: rest).flatMap pskBinderOctets = binders at *
  simp only [List.length_append, bigEndian_length] at hlength
  have htotal : (bigEndian 2 identities.length ++ identities ++
      (bigEndian 2 binders.length ++ binders)).length =
        2 + identities.length + (2 + binders.length) := by
    simp only [List.length_append, bigEndian_length]
  have hbound : identities.length ≤ (bigEndian 2 identities.length ++ identities ++
      (bigEndian 2 binders.length ++ binders)).length - 2 := by omega
  refine (bind_of_ok (ensure_of (by omega) _) _).trans ?_
  rw [List.append_assoc] at hbound ⊢
  refine (bind_of_ok (readUint16_append (by omega) _) _).trans ?_
  refine (bind_of_ok (ensure_of ⟨hidentities, hbound⟩ _) _).trans ?_
  refine (bind_of_ok (readBytes_append rfl _) _).trans ?_
  refine (bind_of_ok (readUint16_append (by omega) _) _).trans ?_
  refine (bind_of_ok (ensure_of ⟨hbinders, rfl⟩ _) _).trans ?_
  rw [List.length_append, bigEndian_length]
  rfl

theorem truncatedClientHello_length (clientRandom : Bytes) (options : Tls13ClientHelloOptions) :
    (truncatedClientHello clientRandom options).length =
      4 + (clientHelloFields clientRandom).length + 2 +
        (extensionBlock (entriesBeforePsk options)).length + 4 +
        (pskIdentitiesOctets options.pskIdentities).length := by
  simp only [truncatedClientHello, List.length_append, List.length_cons, bigEndian_length]

theorem findPskBinderTranscriptLength_encoded
    (hrandom : clientRandom.length = tlsRandomLength) (hpsk : options.pskIdentities ≠ [])
    (h : encodeClientHello clientRandom options capacity = .ok message) :
    findPskBinderTranscriptLength message =
      .ok (truncatedClientHello clientRandom options).length := by
  obtain ⟨hmessage, hblock, hbody⟩ := encodeClientHello_eq_ok h
  have hencodable := clientHelloEntries_encodable hblock
  have hentries : clientHelloEntries options = entriesBeforePsk options ++
      [(extensionPreSharedKey, pskIdentitiesOctets options.pskIdentities ++
        pskBindersOctets options.pskIdentities)] := by
    rw [clientHelloEntries, pskEntries, if_neg hpsk]
  have hdata := (hencodable (extensionPreSharedKey, pskIdentitiesOctets options.pskIdentities ++
    pskBindersOctets options.pskIdentities) (by rw [hentries]; simp)).2
  have hbefore : Encodable (entriesBeforePsk options) := fun entry hentry =>
    hencodable entry (List.mem_append_left _ hentry)
  have htypes : ∀ entry ∈ entriesBeforePsk options, entry.1 ≠ extensionPreSharedKey :=
    entriesBeforePsk_forall (P := (· ≠ extensionPreSharedKey)) options (by decide) (by decide)
      (by decide) (by decide) (by decide) (by decide)
  have hfields : (clientHelloFields clientRandom).length = 45 := by
    have h := congrArg List.length (clientHelloFields_append clientRandom [])
    simp only [List.append_nil, List.length_append, List.length_cons, List.length_nil, hrandom,
      tlsRandomLength] at h
    omega
  have hwalk := findPskBinders_block htypes hbefore hdata
    (pskBinderOffset_octets hpsk hdata) (extensionBlock (clientHelloEntries options)).length
    (message.length - (extensionBlock (clientHelloEntries options)).length) (by
      have h := length_le_extensionBlock (clientHelloEntries options)
      rw [hentries, List.length_append, List.length_singleton] at h
      rw [hentries]
      omega)
  rw [← hentries] at hwalk
  have hoffset : message.length - (extensionBlock (clientHelloEntries options)).length =
      4 + (clientHelloFields clientRandom).length + 2 := by
    rw [hmessage]
    simp only [handshakeMessage, List.length_append, List.length_cons, bigEndian_length]
    omega
  rw [truncatedClientHello_length, ← hoffset]
  generalize hE : extensionBlock (clientHelloEntries options) = block at *
  rw [List.append_assoc] at hmessage hbody
  have hparse : parseMessage message = .ok ⟨.clientHello, clientHelloFields clientRandom ++
      (bigEndian 2 block.length ++ block)⟩ := by
    rw [hmessage]
    exact parseMessage_handshakeMessage (by omega)
  have hconsumed : TlsHandshakeMessageView.bytesConsumed ⟨.clientHello,
      clientHelloFields clientRandom ++ (bigEndian 2 block.length ++ block)⟩ = message.length := by
    rw [hmessage]
    simp only [TlsHandshakeMessageView.bytesConsumed, tlsHandshakeHeaderLength, handshakeMessage,
      List.length_append, List.length_cons, bigEndian_length]
  have hbodyLength : 42 ≤ (clientHelloFields clientRandom ++
      (bigEndian 2 block.length ++ block)).length := by
    rw [List.length_append]
    omega
  refine (bind_of_ok (ensure_of ?_ _) _).trans ?_
  · rw [← hconsumed]
    exact Nat.le_add_right _ _
  refine (bind_of_ok hparse _).trans ?_
  refine (bind_of_ok (ensure_of ⟨rfl, hconsumed, hbodyLength⟩ _) _).trans ?_
  dsimp only
  rw [clientHelloFields_append, ← List.append_assoc]
  have hfront : ([3, 3] ++ clientRandom).length = 34 := by
    rw [List.length_append, hrandom]
    rfl
  refine (bind_of_ok (readBytes_append hfront _) _).trans ?_
  refine (bind_of_ok (readUint_octets rfl (by decide : ofBigEndian [0] = 0) _) _).trans ?_
  refine (bind_of_ok (readBytes_append (List.length_nil (α := UInt8)) _) _).trans ?_
  refine (bind_of_ok (readUint_octets rfl (by decide : ofBigEndian [0, 6] = 6) _) _).trans ?_
  refine (bind_of_ok (readBytes_append (by decide : [19, 1, 19, 2, 19, 3].length = 6) _) _).trans ?_
  refine (bind_of_ok (readUint_octets rfl (by decide : ofBigEndian [1] = 1) _) _).trans ?_
  refine (bind_of_ok (readBytes_append (by decide : [0].length = 1) _) _).trans ?_
  refine (bind_of_ok (readUint16_append (by omega) _) _).trans ?_
  refine (bind_of_ok (ensure_of rfl _) _).trans ?_
  exact hwalk

theorem pskBindersOctets_length (pskIdentities : List Tls13PskIdentity) :
    (pskBindersOctets pskIdentities).length =
      2 + (pskIdentities.map fun psk => 1 + psk.binder.length).sum := by
  rw [pskBindersOctets, List.length_append, bigEndian_length, List.length_flatMap]
  simp only [pskBinderOctets, List.length_cons, Nat.add_comm]

/-- **A binder may be computed before it is known**: the octets that `FindPskBinderTranscriptLength`
finds are all but the binders and their length, and no other binders of the same length change them. -/
theorem encodeClientHello_anyBinder (hrandom : clientRandom.length = tlsRandomLength)
    (hpsk : options.pskIdentities ≠ [])
    (h : encodeClientHello clientRandom options capacity = .ok message) :
    ∃ before, findPskBinderTranscriptLength message = .ok before.length ∧
      message = before ++ pskBindersOctets options.pskIdentities ∧
      message.length = before.length + 2 +
        (options.pskIdentities.map fun psk => 1 + psk.binder.length).sum ∧
      ∀ binder capacity' message', (∀ psk ∈ options.pskIdentities, psk.binder.length = binder.length) →
        encodeClientHello clientRandom (options.withBinder binder) capacity' = .ok message' →
        findPskBinderTranscriptLength message' = .ok before.length ∧
          message' = before ++ pskBindersOctets (options.withBinder binder).pskIdentities := by
  have hmessage := encodeClientHello_truncated hpsk h
  refine ⟨truncatedClientHello clientRandom options,
    findPskBinderTranscriptLength_encoded hrandom hpsk h, hmessage, ?_, ?_⟩
  · rw [hmessage, List.length_append, pskBindersOctets_length, Nat.add_assoc]
  · intro binder capacity' message' hbinder h'
    have hpsk' : (options.withBinder binder).pskIdentities ≠ [] := by
      simpa [Tls13ClientHelloOptions.withBinder] using hpsk
    rw [← truncatedClientHello_withBinder hbinder]
    exact ⟨findPskBinderTranscriptLength_encoded hrandom hpsk' h',
      encodeClientHello_truncated hpsk' h'⟩

/-- An offer with a PSK. -/
def resumingOptions : Tls13ClientHelloOptions :=
  ⟨text "a.example", [], [⟨.x25519, [9]⟩], [⟨[1, 2], 3, List.replicate 32 0⟩], false⟩

theorem encodeClientHello_anyBinder_resuming : ∃ message before,
    findPskBinderTranscriptLength message = .ok before.length ∧
      message = before ++ pskBindersOctets resumingOptions.pskIdentities := by
  have hreturns : (encodeClientHello (List.replicate 32 7) resumingOptions 4096).toOption.isSome =
      true := by decide +kernel
  cases h : encodeClientHello (List.replicate 32 7) resumingOptions 4096 with
  | error status =>
    rw [h] at hreturns
    cases hreturns
  | ok message =>
    obtain ⟨before, hlength, heq, -⟩ := encodeClientHello_anyBinder (by decide) (by decide) h
    exact ⟨message, before, hlength, heq⟩

end KernelHttp.Tls
