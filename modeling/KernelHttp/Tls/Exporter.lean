/-
  The exporter of TLS 1.3 against RFC 8446, section 7.5.

  `DeriveTls13Exporter` hashes the context for the first expansion and gives the second one none.
-/
import KernelHttp.Tls.CloseNotify

namespace KernelHttp.Tls

/-- The exporter: `HKDF-Expand-Label(Derive-Secret(Secret, label, ""), "exporter",
Hash(context_value), key_length)`. -/
def exporter (K : KeyFunctions) (algorithm : HashAlgorithm) (secret label contextValue : Bytes)
    (keyLength : ℕ) : Bytes :=
  let derived := K.expandLabel algorithm secret label (K.hash algorithm [])
    (hashDigestLength algorithm)
  K.expandLabel algorithm derived (text "exporter") (K.hash algorithm contextValue) keyLength

namespace TlsContext

variable (K : KeyFunctions) (context : TlsContext)

/-- The two expansions, with the hashes where the code has them. -/
def deriveTls13Exporter (label contextValue : Bytes) (outputLength : ℕ) :
    Except NTSTATUS Bytes := do
  ensure (context.protocol = .tls13 ∧ context.secrets.secretLength ≠ 0 ∧ outputLength ≠ 0)
    statusInvalidParameter
  ensure (outputLength ≤ context.digestLength * 255) statusInvalidParameter
  let contextHash := K.hash context.algorithm contextValue
  ensure (contextHash.length = context.digestLength) statusInvalidNetworkResponse
  let derivedSecret ← K.deriveSecret context.algorithm context.secrets.exporterMasterSecret label
    contextHash context.secrets.secretLength
  K.hkdfExpandLabel context.algorithm derivedSecret (text "exporter") [] outputLength

/-- The inputs that `DeriveTls13Exporter` admits: the label has to fit its buffer. -/
structure AdmitsExport (label : Bytes) (outputLength : ℕ) : Prop where
  protocol : context.protocol = .tls13
  secretLength : context.secrets.secretLength ≠ 0 ∧ context.secrets.secretLength ≤ 0xffff
  outputLength : outputLength ≠ 0 ∧ outputLength ≤ context.digestLength * 255
  label : 10 + label.length + context.digestLength ≤ 128

end TlsContext

variable {K : KeyFunctions} {context : TlsContext} {label contextValue : Bytes} {n : ℕ}

theorem hkdfExpandLabel_of_fits {algorithm : HashAlgorithm} {secret label context : Bytes}
    (hn : n ≤ 0xffff) (hfits : 10 + label.length + context.length ≤ 128) :
    K.hkdfExpandLabel algorithm secret label context n =
      .ok (K.expandLabel algorithm secret label context n) := by
  rw [KeyFunctions.hkdfExpandLabel, buildHkdfLabel, ensure_of (by omega), ensure_of (by omega),
    ensure_of (by omega)]
  rfl

namespace TlsContext

/-- What is derived: the hash of the context is in the first expansion. -/
theorem deriveTls13Exporter_eq (h : context.AdmitsExport label n) :
    context.deriveTls13Exporter K label contextValue n =
      .ok (K.expandLabel context.algorithm
        (K.expandLabel context.algorithm context.secrets.exporterMasterSecret label
          (K.hash context.algorithm contextValue) context.secrets.secretLength)
        (text "exporter") [] n) := by
  have hhash : (K.hash context.algorithm contextValue).length = context.digestLength :=
    K.hash_length _ _
  have hdigest : context.digestLength ≤ 64 := hashDigestLength_le _
  have hn := h.outputLength.2
  have hfits : 10 + label.length + (K.hash context.algorithm contextValue).length ≤ 128 := by
    rw [hhash]
    exact h.label
  rw [deriveTls13Exporter, ensure_of ⟨h.protocol, h.secretLength.1, h.outputLength.1⟩,
    ensure_of hn]
  change (ensure _ _ >>= fun _ => _) = _
  rw [ensure_of hhash]
  change (K.hkdfExpandLabel _ _ _ _ _ >>= fun _ => _) = _
  rw [hkdfExpandLabel_of_fits h.secretLength.2 hfits]
  exact hkdfExpandLabel_of_fits (by omega) (by decide)

end TlsContext

theorem zeros_length (algorithm : HashAlgorithm) :
    (zeros algorithm).length = hashDigestLength algorithm := List.length_replicate

/-- Functions with which HKDF-Expand tells one label from all others. -/
def markingKeys (info : Bytes) : KeyFunctions where
  hash algorithm _ := zeros algorithm
  hmac algorithm _ _ := zeros algorithm
  hkdfExtract algorithm _ _ := zeros algorithm
  hkdfExpand _ _ info' n := List.replicate n (if info' = info then 1 else 0)
  hash_length algorithm _ := zeros_length algorithm
  hmac_length algorithm _ _ := zeros_length algorithm
  hkdfExtract_length algorithm _ _ := zeros_length algorithm
  hkdfExpand_length _ _ _ _ := List.length_replicate

theorem exporterLabel_ne {algorithm : HashAlgorithm} (n : ℕ) :
    hkdfLabel (text "exporter") (K.hash algorithm contextValue) n ≠
      hkdfLabel (text "exporter") [] n := by
  intro h
  have hlength := congrArg List.length h
  have hhash := K.hash_length algorithm contextValue
  simp only [hkdfLabel, List.length_append, hhash, List.length_nil] at hlength
  cases algorithm <;> simp [hashDigestLength] at hlength

/-- **What `DeriveTls13Exporter` derives is not the exporter**, for any input that it admits:
there are hash functions for which the two differ. -/
theorem deriveTls13Exporter_ne_exporter (context : TlsContext) (label contextValue : Bytes)
    (n : ℕ) (h : context.AdmitsExport label n) :
    ¬ ∀ K : KeyFunctions, context.deriveTls13Exporter K label contextValue n =
      .ok (exporter K context.algorithm context.secrets.exporterMasterSecret label contextValue
        n) := by
  intro hall
  have heq := hall (markingKeys (hkdfLabel (text "exporter") [] n))
  rw [TlsContext.deriveTls13Exporter_eq h] at heq
  have houtput := Except.ok.inj heq
  simp only [exporter, KeyFunctions.expandLabel, markingKeys, if_true] at houtput
  have hne : hkdfLabel (text "exporter") (zeros context.algorithm) n ≠
      hkdfLabel (text "exporter") [] n :=
    @exporterLabel_ne (markingKeys []) contextValue context.algorithm n
  rw [if_neg hne] at houtput
  have hpos : 0 < n := Nat.pos_of_ne_zero h.outputLength.1
  have hmem : (1 : UInt8) ∈ List.replicate n (0 : UInt8) :=
    houtput ▸ List.mem_replicate.2 ⟨hpos.ne', rfl⟩
  exact absurd (List.eq_of_mem_replicate hmem) (by decide)

/-- A context of TLS 1.3 behind its handshake. -/
def exportingContext : TlsContext where
  protocol := .tls13
  established := true
  cipherSuite := .tlsAes128GcmSha256
  secrets := { exporterMasterSecret := List.replicate 32 5, secretLength := 32 }

example : exportingContext.algorithm = .sha256 := by decide +kernel

theorem deriveTls13Exporter_ne_exporter_exportingContext :
    ¬ ∀ K : KeyFunctions, exportingContext.deriveTls13Exporter K (text "EXPORTER-test") [1, 2, 3]
        32 =
      .ok (exporter K exportingContext.algorithm exportingContext.secrets.exporterMasterSecret
        (text "EXPORTER-test") [1, 2, 3] 32) :=
  deriveTls13Exporter_ne_exporter exportingContext (text "EXPORTER-test") [1, 2, 3] 32
    ⟨rfl, by decide, by decide, by decide⟩

/-- With functions that sum up octets, too, the two differ. -/
theorem deriveTls13Exporter_differs :
    let output := exportingContext.deriveTls13Exporter summingKeys (text "EXPORTER-test") [1, 2, 3]
      32
    output.toOption.isSome = true ∧
      output.toOption ≠ some (exporter summingKeys exportingContext.algorithm
        exportingContext.secrets.exporterMasterSecret (text "EXPORTER-test") [1, 2, 3] 32) := by
  decide +kernel

end KernelHttp.Tls
