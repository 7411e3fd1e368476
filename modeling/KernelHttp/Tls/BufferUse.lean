/-
  The handshake buffer in use.

  `InUse` says that the buffer is there, that its members are within its bounds, and that its
  memory holds the octets that they delimit.
-/
import KernelHttp.Tls.BufferSteps

namespace KernelHttp.Tls

open Program Relation

/-! ## The buffer in use -/

/-- The access is made while the buffer is there, within its bounds. -/
structure BufferAccess.Sound (access : BufferAccess) : Prop where
  present : access.present = true
  consumed_le : access.consumed ≤ access.length
  length_le : access.length ≤ tlsHandshakeBufferLength
  within : access.first + access.count ≤ tlsHandshakeBufferLength

namespace ConnectionMemory

/-- The buffer is there, its members are within its bounds, its memory holds what it holds, and
the accesses have been sound. -/
structure InUse (m : ConnectionMemory) : Prop where
  present : m.connection.handshakeBufferPresent = true
  consumed_le : m.connection.handshakeConsumed ≤ m.connection.handshakeBuffer.length
  length_le : m.connection.handshakeBuffer.length ≤ tlsHandshakeBufferLength
  holds : Overwriting.Holds m.memory 0 m.connection.handshakeBuffer
  accesses : ∀ access ∈ m.accesses, access.Sound

variable {α : Type} {m m' : ConnectionMemory}

theorem InUse.of_scratch (hm : InUse m) (hscratch : m'.connection.scratch = m.connection.scratch)
    (hmemory : m'.memory = m.memory) (haccesses : m'.accesses = m.accesses) : InUse m' := by
  obtain ⟨hpresent, hoctets, hconsumed⟩ := HandshakeScratch.mk.inj hscratch
  refine ⟨?_, ?_, ?_, ?_, ?_⟩
  · rw [hpresent]
    exact hm.present
  · rw [hconsumed, hoctets]
    exact hm.consumed_le
  · rw [hoctets]
    exact hm.length_le
  · rw [hmemory, hoctets]
    exact hm.holds
  · rw [haccesses]
    exact hm.accesses

/-- An access within the bounds is sound. -/
theorem InUse.accesses_append (hm : InUse m) (kind : AccessKind) {first count : ℕ}
    (h : first + count ≤ tlsHandshakeBufferLength) :
    ∀ access ∈ m.accesses ++ [m.accessOf kind first count], access.Sound := by
  intro access ha
  rcases List.mem_append.1 ha with ha | ha
  · exact hm.accesses access ha
  · rw [List.mem_singleton.1 ha]
    exact ⟨hm.present, hm.consumed_le, hm.length_le, h⟩

theorem InUse.unread_length (hm : InUse m) :
    m.connection.handshakeConsumed + m.connection.unread.length =
      m.connection.handshakeBuffer.length := by
  rw [TlsConnection.unread, List.length_drop]
  exact Nat.add_sub_cancel' hm.consumed_le

theorem InUse.unread_le (hm : InUse m) :
    m.connection.unread.length ≤ tlsHandshakeBufferLength :=
  (Nat.le_add_left _ _).trans (hm.unread_length.trans_le hm.length_le)

/-- The unread octets move to the front. -/
theorem InUse.moved (hm : InUse m) :
    InUse { m with
      connection := m.connection.compact
      memory := Overwriting.write m.memory 0 m.connection.unread
      accesses := m.accesses ++ [m.accessOf .move 0 m.connection.unread.length] } := by
  have haccesses := hm.accesses_append .move (hm.unread_le.trans_eq' (Nat.zero_add _).symm)
  have hholds : Overwriting.Holds (Overwriting.write m.memory 0 m.connection.unread) 0
      m.connection.unread := .write_self _
  exact ⟨hm.present, Nat.zero_le _, hm.unread_le, hholds, haccesses⟩

/-- The unread octets are at the front. -/
theorem InUse.compacted (hm : InUse m)
    (h : ¬ (m.connection.handshakeConsumed ≠ 0 ∧ m.connection.unread ≠ [])) :
    InUse { m with connection := m.connection.compact } := by
  have hholds : Overwriting.Holds m.memory 0 m.connection.unread := by
    rcases not_and_or.1 h with hzero | hnil
    · rw [TlsConnection.unread, not_not.1 hzero, List.drop_zero]
      exact hm.holds
    · rw [not_not.1 hnil]
      exact .nil
  exact ⟨hm.present, Nat.zero_le _, hm.unread_le, hholds, hm.accesses⟩

/-- A record is copied behind the octets that are there. -/
theorem InUse.copied (hm : InUse m) {fragment : Bytes}
    (h : fragment.length ≤ tlsHandshakeBufferLength - m.connection.handshakeBuffer.length) :
    InUse { m with
      connection := m.connection.buffer fragment
      memory := Overwriting.write m.memory m.connection.handshakeBuffer.length fragment
      accesses := m.accesses ++
        [m.accessOf .copy m.connection.handshakeBuffer.length fragment.length] } := by
  have hlength := hm.length_le
  have hholds := hm.holds.write_append fragment
  rw [Nat.zero_add] at hholds
  refine ⟨hm.present, ?_, ?_, hholds, hm.accesses_append .copy (by omega)⟩
  · exact hm.consumed_le.trans (List.length_append ▸ Nat.le_add_right _ _)
  · refine (List.length_append.trans_le ?_ : (m.connection.handshakeBuffer ++ fragment).length ≤ _)
    omega

/-- A message is taken. -/
theorem InUse.consumed (hm : InUse m) {n : ℕ} (hn : n ≤ m.connection.unread.length) :
    InUse { m with connection := m.connection.consume n } := by
  have hunread := hm.unread_length
  rw [TlsConnection.consume]
  split
  · exact ⟨hm.present, le_rfl, Nat.zero_le _, .nil, hm.accesses⟩
  · exact ⟨hm.present, by dsimp only; omega, hm.length_le, hm.holds, hm.accesses⟩

/-- **Every step keeps the buffer in use.** -/
theorem InUse.step (hm : InUse m) (h : BufferStep SameScratch m m') : InUse m' := by
  cases h with
  | lifted h => exact hm.of_scratch h rfl rfl
  | aside => exact hm.of_scratch rfl rfl rfl
  | looked kind hkind hn =>
    have hunread := hm.unread_length
    have hlength := hm.length_le
    exact ⟨hm.present, hm.consumed_le, hm.length_le, hm.holds,
      hm.accesses_append kind (by omega)⟩
  | moved => exact hm.moved
  | compacted h => exact hm.compacted h
  | copied fragment h => exact hm.copied h
  | lost fragment h => cases h.symm.trans hm.present
  | consumed hn hscratch hears => exact (hm.consumed hn).of_scratch hscratch rfl rfl

theorem Uses.keeps {p : MemoryProgram α} (hp : Uses SameScratch p) : Keeps InUse p := fun m =>
  (hp m).mono (fun _ h => invariant_of_steps (fun _ _ hstep hm => hm.step hstep) h)
    fun _ _ h => invariant_of_steps (fun _ _ hstep hm => hm.step hstep) h

section

variable (E : Tls12Environment) (options : TlsConnectOptions)

theorem storeTls12SessionFromHandshake_keeps (agreement : Tls12Agreement) :
    Keeps InUse (storeTls12SessionFromHandshake E options agreement) := by
  refine Keeps.get_bind fun m hm => ?_
  have hestablished : Keeps InUse (lift (modify fun s : TlsConnection =>
      { s with context := { s.context with established := true } })) :=
    Uses.keeps (by exact LeavesScratch.uses (Makes.modify_aside fun _ => rfl))
  dsimp only
  rw [Program.when]
  split
  · exact hestablished.endsAt (hm.of_scratch rfl rfl rfl)
  · exact hestablished.endsAt hm

theorem connectTls12_keeps : Keeps InUse (connectTls12 E options) := by
  refine Keeps.bind (negotiate12_uses E options).keeps fun agreement => ?_
  dsimp only
  split
  · exact Keeps.bind (resume_uses E agreement _).scratch.keeps fun _ =>
      storeTls12SessionFromHandshake_keeps E options agreement
  · exact Keeps.bind (handshakeInFull_uses E options agreement).scratch.keeps fun _ =>
      storeTls12SessionFromHandshake_keeps E options agreement

/-- **A handshake uses the buffer while it is there, and within its bounds.** -/
theorem handshake_keeps : Keeps InUse (handshake E options) := by
  rw [handshake]
  exact Keeps.ite (connectTls13_uses _ _).keeps
    (Keeps.ite (connectTls12_keeps E options) (Keeps.throw _))

theorem prepared_inUse (m : ConnectionMemory) : InUse (prepared options m) where
  present := rfl
  consumed_le := le_rfl
  length_le := Nat.zero_le _
  holds := .nil
  accesses := nofun

end

end ConnectionMemory

end KernelHttp.Tls
