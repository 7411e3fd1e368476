/-
  What holds of the connection pool in every run.
-/
import KernelHttp.Engine.ConnectionPool

namespace KernelHttp.Engine

/-! ## The statement -/

/-- The users of an entry: one per stream lease, or the one that has it in use. -/
def KhPooledConnection.holderCount (c : KhPooledConnection) : ℕ :=
  if c.http2StreamLeases ≠ 0 then c.http2StreamLeases else if c.inUse then 1 else 0

/-- The counters, the holders and the quotas agree. -/
structure Accounted (w : PoolWorld) : Prop where
  active : w.pool.activeCount = w.pool.entries.countP (·.connected)
  holders : ∀ i, w.holders i = (w.pool.entry i).holderCount
  leases : ∀ i, (w.pool.entry i).http2StreamLeases ≤ (w.pool.entry i).http2MaxStreamLeases
  quota : ∀ key, w.pool.countConnectionsForHostQuota key ≤ w.pool.maxConnectionsPerHost

/-- What is left of a key without the ALPN, and without the proxy if there is none. -/
def KhConnectionPoolKey.essential (key : KhConnectionPoolKey) : KhConnectionPoolKey :=
  { key with
    alpn := []
    proxyAddress := if key.proxyEnabled then
      ⟨key.proxyAddress.family, key.proxyAddress.data.take key.proxyAddress.compareLength⟩ else {}
    proxyAuthority := if key.proxyEnabled then key.proxyAuthority else [] }

def KeysMatch (requested carried : KhConnectionPoolKey) : Prop :=
  requested.essential = carried.essential ∧
    (requested.alpn ≠ carried.alpn →
      requested.automaticAlpn = true ∧ carried.automaticAlpn = true)

def SameConnection (c c' : KhPooledConnection) : Prop :=
  c'.connected = true ∧ c'.inUse = true ∧ c'.id = c.id ∧ c'.key = c.key ∧
    c'.resources = c.resources

/-- A call leaves the connections of others alone: it keeps every connection that
    someone holds besides the caller, hands out one that is held only to share its
    streams, and reuses one only for its key. -/
structure Respects (w : PoolWorld) (call : PoolCall) : Prop where
  kept : ∀ i, 0 < w.holders i →
    (∀ reusable now, call = .release i reusable now → 1 < w.holders i) →
    (∀ alpn resources tunnel, call ≠ .configure i alpn resources tunnel) →
    SameConnection (w.pool.entry i) ((w.call call).pool.entry i)
  shared : ∀ key policy now status pool i reused, call = .acquire key policy now →
    acquire w.pool key policy now = (status, pool, some (i, reused)) →
    0 < w.holders i → (w.pool.entry i).canShareHttp2Connection key = true
  reused : ∀ key policy now status pool i, call = .acquire key policy now →
    acquire w.pool key policy now = (status, pool, some (i, true)) →
    KeysMatch key (pool.entry i).key

/-! ## Keys -/

theorem SockaddrStorage.equals_iff {left right : SockaddrStorage} :
    left.equals right = true ↔ left.family = right.family ∧
      left.data.take left.compareLength = right.data.take left.compareLength := by
  simp [SockaddrStorage.equals]

variable {p : KhConnectionPool} {left right key : KhConnectionPoolKey} {c : KhPooledConnection}
    {w : PoolWorld}

theorem proxyIdentityEquals_spec (h : proxyIdentityEquals left right = true) :
    left.proxyEnabled = right.proxyEnabled ∧
      left.essential.proxyAddress = right.essential.proxyAddress ∧
      left.essential.proxyAuthority = right.essential.proxyAuthority := by
  unfold proxyIdentityEquals at h
  split_ifs at h with h1 h2
  · have h1 : left.proxyEnabled = right.proxyEnabled := not_not.1 h1
    have h2 : left.proxyEnabled = true := by simpa using h2
    rw [Bool.and_eq_true, SockaddrStorage.equals_iff, beq_iff_eq] at h
    obtain ⟨⟨hf, hd⟩, ha⟩ := h
    have hlen : right.proxyAddress.compareLength = left.proxyAddress.compareLength := by
      simp only [SockaddrStorage.compareLength, hf]
    refine ⟨h1, ?_, ?_⟩
    · simp only [KhConnectionPoolKey.essential, ← h1, h2, if_true, hlen, hf, hd]
    · simp only [KhConnectionPoolKey.essential, ← h1, h2, if_true, ha]
  · have h1 : left.proxyEnabled = right.proxyEnabled := not_not.1 h1
    have h2 : left.proxyEnabled = false := by simpa using h2
    refine ⟨h1, ?_, ?_⟩ <;> simp [KhConnectionPoolKey.essential, ← h1, h2]

theorem keysEqualExceptAlpn_essential (h : keysEqualExceptAlpn left right = true) :
    left.essential = right.essential ∧ left.automaticAlpn = right.automaticAlpn := by
  simp only [keysEqualExceptAlpn, Bool.and_eq_true, beq_iff_eq] at h
  obtain ⟨⟨⟨⟨⟨⟨⟨⟨⟨⟨⟨⟨h1, h2⟩, h3⟩, h4⟩, h5⟩, h6⟩, h7⟩, h8⟩, h9⟩, h10⟩, h11⟩, h12⟩, h13⟩ := h
  obtain ⟨p1, p2, p3⟩ := proxyIdentityEquals_spec h10
  refine ⟨?_, h9⟩
  cases left
  cases right
  simp only [KhConnectionPoolKey.essential] at *
  simp only [KhConnectionPoolKey.mk.injEq]
  exact ⟨h11, h12, h1, h2, h3, h4, h5, h6, h7, h8, h13, trivial, h9, p1, p2, p3⟩

theorem keysEqual_match (h : keysEqual left right = true) :
    KeysMatch left right := by
  simp only [keysEqual, Bool.and_eq_true, beq_iff_eq] at h
  exact ⟨(keysEqualExceptAlpn_essential h.1).1, fun hne => absurd h.2 hne⟩

theorem keysEqualForAutoAlpnAcquire_match {requested carried : KhConnectionPoolKey}
    (h : keysEqualForAutoAlpnAcquire requested carried = true) : KeysMatch requested carried := by
  unfold keysEqualForAutoAlpnAcquire at h
  split_ifs at h with h1 h2
  · exact keysEqual_match h
  · exact keysEqual_match h
  · refine ⟨(keysEqualExceptAlpn_essential h).1, fun _ => ?_⟩
    simpa using h2

/-! ## Entries -/

section Entries

variable {p p' : KhConnectionPool} {i j : ℕ} {c : KhPooledConnection}

theorem entry_eq_getElem (h : i < p.entries.length) : p.entry i = p.entries[i] := by
  simp [KhConnectionPool.entry, List.getD_eq_getElem?_getD, h]

/-- One entry is replaced, and `ActiveCount` follows. -/
structure Replaces (p p' : KhConnectionPool) (i : ℕ) (c : KhPooledConnection) : Prop where
  lt : i < p.entries.length
  entries : p'.entries = p.entries.set i c
  active : p.activeCount = p.entries.countP (·.connected) →
    p'.activeCount + (if (p.entry i).connected then 1 else 0) =
      p.activeCount + (if c.connected then 1 else 0)
  max : p'.maxConnectionsPerHost = p.maxConnectionsPerHost

theorem Replaces.entry_self (h : Replaces p p' i c) : p'.entry i = c := by
  simp only [KhConnectionPool.entry, h.entries, List.getD_eq_getElem?_getD]
  rw [List.getElem?_set_self h.lt]
  rfl

theorem Replaces.entry_ne (h : Replaces p p' i c) (hj : j ≠ i) : p'.entry j = p.entry j := by
  simp only [KhConnectionPool.entry, h.entries, List.getD_eq_getElem?_getD]
  rw [List.getElem?_set_ne (Ne.symm hj)]

/-- Counting entries when one is replaced. -/
theorem Replaces.countP (h : Replaces p p' i c) (P : KhPooledConnection → Bool) :
    p'.entries.countP P + (if P (p.entry i) then 1 else 0) =
      p.entries.countP P + (if P c then 1 else 0) := by
  have hlt := h.lt
  rw [h.entries, List.countP_set hlt, entry_eq_getElem hlt]
  by_cases hp : P p.entries[i] = true
  · have hpos : 0 < p.entries.countP P := List.countP_pos_iff.2 ⟨_, List.getElem_mem h.lt, hp⟩
    rw [if_pos hp]
    omega
  · rw [if_neg hp]
    omega

theorem replaces_setEntry (hi : i < p.entries.length) (hc : c.connected = (p.entry i).connected) :
    Replaces p (p.setEntry i c) i c :=
  ⟨hi, rfl, fun _ => by rw [hc]; rfl, rfl⟩

theorem entry_setEntry_self (hi : i < p.entries.length) : (p.setEntry i c).entry i = c := by
  simp only [KhConnectionPool.entry, KhConnectionPool.setEntry, List.getD_eq_getElem?_getD]
  rw [List.getElem?_set_self hi]
  rfl

theorem replaces_detach (hi : i < p.entries.length) : Replaces p (p.detach i) i {} := by
  refine ⟨hi, rfl, fun hactive => ?_, rfl⟩
  cases hc : (p.entry i).connected with
  | false => simp [KhConnectionPool.detach, hc]
  | true =>
    have hpos : 0 < p.entries.countP (·.connected) :=
      List.countP_pos_iff.2 ⟨_, List.getElem_mem hi, by rw [← entry_eq_getElem hi]; exact hc⟩
    simp only [KhConnectionPool.detach, hc, if_true, Bool.false_eq_true, if_false]
    omega

theorem findIdx?_entry {P : KhPooledConnection → Bool} (h : p.entries.findIdx? P = some i) :
    i < p.entries.length ∧ P (p.entry i) = true := by
  obtain ⟨hi, hp, -⟩ := List.findIdx?_eq_some_iff_getElem.1 h
  refine ⟨hi, ?_⟩
  rw [entry_eq_getElem hi]
  exact hp

/-- Nobody holds the entry. -/
def Unheld (c : KhPooledConnection) : Prop := c.inUse = false ∧ c.http2StreamLeases = 0

theorem Unheld.holderCount (h : Unheld c) : c.holderCount = 0 := by
  simp [KhPooledConnection.holderCount, h.1, h.2]

end Entries

/-! ## The invariant -/

/-- What holds in every reachable state: beside the accounting, entries in use are
    connected and entries with leases are in use. -/
structure PoolInvariant (w : PoolWorld) : Prop extends Accounted w where
  connected : ∀ i, (w.pool.entry i).inUse = true → (w.pool.entry i).connected = true
  inUse : ∀ i, (w.pool.entry i).http2StreamLeases ≠ 0 → (w.pool.entry i).inUse = true

/-- An entry as the invariant has it. -/
structure GoodEntry (c : KhPooledConnection) : Prop where
  leases : c.http2StreamLeases ≤ c.http2MaxStreamLeases
  connected : c.inUse = true → c.connected = true
  inUse : c.http2StreamLeases ≠ 0 → c.inUse = true

namespace PoolInvariant

variable {w : PoolWorld} {p' : KhConnectionPool} {i : ℕ} {c : KhPooledConnection}

theorem good (h : PoolInvariant w) (i : ℕ) : GoodEntry (w.pool.entry i) :=
  ⟨h.leases i, h.connected i, h.inUse i⟩

/-- **Replacing an entry keeps the invariant**, if the new one is good and the quota
    of its host has room for it. -/
theorem replace (h : PoolInvariant w) (hr : Replaces w.pool p' i c) (hc : GoodEntry c)
    (hquota : ∀ key, c.countsFor key = true → (w.pool.entry i).countsFor key = true ∨
      w.pool.countConnectionsForHostQuota key < w.pool.maxConnectionsPerHost) :
    PoolInvariant ⟨p', Function.update w.holders i c.holderCount⟩ := by
  have hentry : ∀ j, p'.entry j = if j = i then c else w.pool.entry j := by
    intro j
    by_cases hj : j = i
    · rw [if_pos hj, hj, hr.entry_self]
    · rw [if_neg hj, hr.entry_ne hj]
  have hgood : ∀ j, GoodEntry (p'.entry j) := by
    intro j
    rw [hentry]
    split
    · exact hc
    · exact h.good j
  refine ⟨⟨?_, ?_, fun j => (hgood j).leases, ?_⟩, fun j => (hgood j).connected,
    fun j => (hgood j).inUse⟩
  · have h1 := hr.active h.active
    have h2 := hr.countP (·.connected)
    have h3 := h.active
    simp only at h2 ⊢
    omega
  · intro j
    simp only [hentry, Function.update_apply]
    split
    · rfl
    · exact h.holders j
  · intro key
    have h1 := hr.countP (KhPooledConnection.countsFor key)
    have h2 := h.quota key
    simp only [KhConnectionPool.countConnectionsForHostQuota] at h2 hquota ⊢
    rw [hr.max]
    by_cases hk : c.countsFor key = true
    · rcases hquota key hk with hold | hroom
      · rw [if_pos hk, if_pos hold] at h1
        omega
      · rw [if_pos hk] at h1
        omega
    · rw [if_neg hk] at h1
      omega

/-- Detaching an entry nobody holds. -/
theorem detach (h : PoolInvariant w) (hi : i < w.pool.entries.length)
    (hu : Unheld (w.pool.entry i)) : PoolInvariant ⟨w.pool.detach i, w.holders⟩ := by
  have := h.replace (replaces_detach hi) ⟨le_rfl, nofun, fun hne => absurd rfl hne⟩
    fun key hk => by cases hk
  have hsame : Function.update w.holders i (KhPooledConnection.holderCount {}) = w.holders := by
    rw [show KhPooledConnection.holderCount {} = w.holders i by
      rw [h.holders i, hu.holderCount]
      rfl]
    exact Function.update_eq_self i w.holders
  rw [hsame] at this
  exact this

end PoolInvariant

/-! ## What `KhConnectionPoolAcquire` can do -/

/-- Entries nobody holds are detached. -/
abbrev Frees : KhConnectionPool → KhConnectionPool → Prop :=
  Relation.ReflTransGen fun p p' =>
    ∃ i, i < p.entries.length ∧ Unheld (p.entry i) ∧ p' = p.detach i

theorem Frees.single {i : ℕ} (hi : i < p.entries.length)
    (hu : Unheld (p.entry i)) : Frees p (p.detach i) :=
  Relation.ReflTransGen.single ⟨i, hi, hu, rfl⟩

/-- The entries somebody holds stay as they are. -/
theorem Frees.entry {p p' : KhConnectionPool} (h : Frees p p') {i : ℕ} (hu : ¬ Unheld (p.entry i)) :
    p'.entry i = p.entry i := by
  induction h with
  | refl => rfl
  | tail _ hs ih =>
    obtain ⟨j, hj, huj, rfl⟩ := hs
    have hij : i ≠ j := by
      rintro rfl
      rw [ih] at huj
      exact hu huj
    rw [(replaces_detach hj).entry_ne hij, ih]

theorem PoolInvariant.frees (h : PoolInvariant w)
    (hf : Frees w.pool p) : PoolInvariant ⟨p, w.holders⟩ := by
  induction hf with
  | refl => exact h
  | tail _ hs ih =>
    obtain ⟨j, hj, huj, rfl⟩ := hs
    exact ih.detach hj huj

/-- Everything `KhConnectionPoolAcquire` can do. -/
inductive AcquireOutcome (p : KhConnectionPool) (key : KhConnectionPoolKey) :
    NTSTATUS × KhConnectionPool × Option (ℕ × Bool) → Prop
  | failed {p' : KhConnectionPool} (h : Frees p p') :
      AcquireOutcome p key (statusInsufficientResources, p', none)
  | shared {i : ℕ} (hi : i < p.entries.length) (hu : (p.entry i).inUse = true)
      (hs : (p.entry i).canShareHttp2Connection key = true) :
      AcquireOutcome p key (statusSuccess, p.setEntry i { p.entry i with
        http2StreamLeases := (p.entry i).http2StreamLeases + 1 }, some (i, true))
  | idle {i : ℕ} (hi : i < p.entries.length) (hm : isIdleMatch key (p.entry i) = true) :
      AcquireOutcome p key (statusSuccess, p.setEntry i { p.entry i with inUse := true },
        some (i, true))
  | fresh {p₁ p' : KhConnectionPool} {i : ℕ} {c : KhPooledConnection} (h : Frees p p₁)
      (hu : Unheld (p₁.entry i)) (hroom : p₁.countConnectionsForHostQuota key < p₁.maxConnectionsPerHost)
      (hr : Replaces p₁ p' i c) (hc : c.inUse = true ∧ c.connected = true ∧ c.key = key ∧
        c.http2StreamLeases = 0) :
      AcquireOutcome p key (statusSuccess, p', some (i, false))

theorem isIdleMatch_spec (h : isIdleMatch key c = true) :
    Unheld c ∧ c.connected = true ∧ keysEqualForAutoAlpnAcquire key c.key = true := by
  simp only [isIdleMatch, Bool.and_eq_true, Bool.not_eq_true', beq_iff_eq] at h
  exact ⟨⟨h.1.1.2, h.1.2⟩, h.1.1.1, h.2⟩

theorem canShareHttp2Connection_spec (h : c.canShareHttp2Connection key = true) :
    c.connected = true ∧ c.http2StreamLeases ≠ 0 ∧
      c.http2StreamLeases < c.http2MaxStreamLeases ∧
      keysEqualForAutoAlpnAcquire key c.key = true := by
  simp only [KhPooledConnection.canShareHttp2Connection, Bool.and_eq_true, Bool.not_eq_true',
    Bool.or_eq_false_iff, beq_eq_false_iff_ne, decide_eq_false_iff_not,
    Bool.not_eq_false'] at h
  obtain ⟨⟨⟨⟨⟨⟨⟨h1, -⟩, h2⟩, -⟩, h3⟩, h4⟩, -⟩, -⟩ := h
  exact ⟨h1, h2, by omega, h4⟩

theorem reuseConnection_spec (p : KhConnectionPool) (key : KhConnectionPoolKey) (now : ℕ) :
    (∃ i, (reuseConnection p key now).selected = some i ∧
      AcquireOutcome p key
        (statusSuccess, (reuseConnection p key now).pool, some (i, (reuseConnection p key now).reused))) ∨
    ((reuseConnection p key now).selected = none ∧ (reuseConnection p key now).reused = false ∧
      Frees p (reuseConnection p key now).pool) := by
  unfold reuseConnection
  split
  · exact .inr ⟨rfl, rfl, .refl⟩
  · next i hfind =>
    obtain ⟨hi, hp⟩ := findIdx?_entry hfind
    simp only
    split
    · next hs =>
      rw [Bool.and_eq_true] at hs
      exact .inl ⟨i, rfl, .shared hi hs.1 hs.2⟩
    · next hs =>
      have hm : isIdleMatch key (p.entry i) = true := by
        rcases Bool.or_eq_true_iff.1 hp with hp | hp
        · exact absurd hp hs
        · exact hp
      split
      · exact .inr ⟨rfl, rfl, .single hi (isIdleMatch_spec hm).1⟩
      · exact .inl ⟨i, rfl, .idle hi hm⟩

theorem makeRoomForHost_spec (s : AcquireState) (key : KhConnectionPoolKey) :
    Frees s.pool (makeRoomForHost s key).2.pool ∧
      (makeRoomForHost s key).2.selected = s.selected ∧
      (makeRoomForHost s key).2.reused = s.reused ∧
      ((makeRoomForHost s key).1 = true →
        (makeRoomForHost s key).2.pool.countConnectionsForHostQuota key <
          (makeRoomForHost s key).2.pool.maxConnectionsPerHost) := by
  unfold makeRoomForHost
  by_cases hfull : s.pool.countConnectionsForHostQuota key ≥ s.pool.maxConnectionsPerHost
  · rw [if_pos hfull]
    by_cases hd : s.detached.any = true
    · rw [if_pos hd]
      refine ⟨.refl, rfl, rfl, fun h => ?_⟩
      simpa using h
    · rw [if_neg hd]
      unfold detachIdleConnectionForHostQuota
      cases hfind : s.pool.entries.findIdx? fun c =>
        c.connected && !c.inUse && c.http2StreamLeases == 0 && hostQuotaKeysEqual c.key key with
      | none => exact ⟨.refl, rfl, rfl, nofun⟩
      | some i =>
        obtain ⟨hi, hp⟩ := findIdx?_entry hfind
        simp only [Bool.and_eq_true, Bool.not_eq_true', beq_iff_eq] at hp
        refine ⟨.single hi ⟨hp.1.1.2, hp.1.2⟩, rfl, rfl, fun h => ?_⟩
        simpa using h
  · rw [if_neg hfull]
    exact ⟨.refl, rfl, rfl, fun _ => not_le.1 hfull⟩

theorem takeEntry_spec {s : AcquireState} {key : KhConnectionPoolKey}
    {free : KhPooledConnection → Bool} (hfree : ∀ c, free c = true → Unheld c) :
    (takeEntry s key free = s) ∨
    ∃ i c, Unheld (s.pool.entry i) ∧ (takeEntry s key free).selected = some i ∧
      (takeEntry s key free).reused = s.reused ∧ Replaces s.pool (takeEntry s key free).pool i c ∧
      c.inUse = true ∧ c.connected = true ∧ c.key = key ∧ c.http2StreamLeases = 0 := by
  unfold takeEntry
  split
  · exact .inl rfl
  · next i hfind =>
    obtain ⟨hi, hp⟩ := findIdx?_entry hfind
    have hu : Unheld (s.pool.entry i) := hfree _ (Bool.and_eq_true_iff.1 hp).1
    refine .inr ⟨i, _, hu, rfl, rfl, ⟨hi, rfl, fun _ => ?_, rfl⟩, rfl, rfl, rfl, ?_⟩
    · cases hc : (s.pool.entry i).connected <;> simp [hc]
    · simp only
      split
      · rfl
      · exact hu.2

theorem isVacant_unheld (h : isVacant c = true) : Unheld c := by
  simp only [isVacant, Bool.and_eq_true, Bool.not_eq_true', beq_iff_eq] at h
  exact ⟨h.1.2, h.2⟩

theorem isUnused_unheld (h : isUnused c = true) : Unheld c := by
  simp only [isUnused, Bool.and_eq_true, Bool.not_eq_true', beq_iff_eq] at h
  exact h

theorem takeFreeEntry_spec {s : AcquireState} {key : KhConnectionPoolKey}
    (policy : KhConnectionPolicy) (hsel : s.selected = none) :
    (takeFreeEntry s key policy).selected = none ∧ (takeFreeEntry s key policy).pool = s.pool ∨
    ∃ i c, Unheld (s.pool.entry i) ∧ (takeFreeEntry s key policy).selected = some i ∧
      (takeFreeEntry s key policy).reused = s.reused ∧
      Replaces s.pool (takeFreeEntry s key policy).pool i c ∧
      c.inUse = true ∧ c.connected = true ∧ c.key = key ∧ c.http2StreamLeases = 0 := by
  unfold takeFreeEntry
  rcases @takeEntry_spec s key isVacant fun _ => isVacant_unheld with heq | hvacant
  · rw [heq]
    simp only
    split
    · rcases @takeEntry_spec s key isUnused fun _ => isUnused_unheld with heq | hunused
      · rw [heq]
        exact .inl ⟨hsel, rfl⟩
      · exact .inr hunused
    · exact .inl ⟨hsel, rfl⟩
  · obtain ⟨i, c, hu, hi, hrest⟩ := hvacant
    simp only
    rw [if_neg (by rw [hi]; simp)]
    exact .inr ⟨i, c, hu, hi, hrest⟩

/-- **What an acquisition does.** -/
theorem acquire_outcome (p : KhConnectionPool) (key : KhConnectionPoolKey)
    (policy : KhConnectionPolicy) (now : ℕ) : AcquireOutcome p key (acquire p key policy now) := by
  unfold acquire
  have hreuse : (∃ i, (tryReuse p key policy now).selected = some i ∧ AcquireOutcome p key
        (statusSuccess, (tryReuse p key policy now).pool,
          some (i, (tryReuse p key policy now).reused))) ∨
      ((tryReuse p key policy now).selected = none ∧ (tryReuse p key policy now).reused = false ∧
        Frees p (tryReuse p key policy now).pool) := by
    unfold tryReuse
    split
    · exact reuseConnection_spec p key now
    · exact .inr ⟨rfl, rfl, .refl⟩
  generalize tryReuse p key policy now = s at hreuse
  rcases hreuse with ⟨i, hsel, hout⟩ | ⟨hsel, hre, hfrees⟩
  · simp only [hsel, Option.isSome_some, if_true, AcquireState.finish]
    exact hout
  · simp only [hsel, Option.isSome_none, Bool.false_eq_true, if_false]
    obtain ⟨hfrees₁, hsel₁, hre₁, hroom⟩ := makeRoomForHost_spec s key
    generalize makeRoomForHost s key = q at hfrees₁ hsel₁ hre₁ hroom
    obtain ⟨room, s₁⟩ := q
    simp only at hfrees₁ hsel₁ hre₁ hroom ⊢
    cases room with
    | false => exact .failed (hfrees.trans hfrees₁)
    | true =>
      simp only [not_true_eq_false, if_false]
      rcases @takeFreeEntry_spec s₁ key policy (hsel₁.trans hsel) with
        ⟨hnone, hpool⟩ | ⟨i, c, hu, hi, hre₂, hr, hc⟩
      · simp only [AcquireState.finish, hnone, hpool]
        exact .failed (hfrees.trans hfrees₁)
      · simp only [AcquireState.finish, hi, hre₂, hre₁, hre]
        exact .fresh (hfrees.trans hfrees₁) hu (hroom rfl) hr hc

/-! ## The calls -/

theorem countsFor_congr {key' : KhConnectionPoolKey} (h : hostQuotaKeysEqual key key' = true)
    (c : KhPooledConnection) : c.countsFor key = c.countsFor key' := by
  simp only [hostQuotaKeysEqual, Bool.and_eq_true, beq_iff_eq] at h
  obtain ⟨⟨⟨h1, h2⟩, h3⟩, h4⟩ := h
  simp only [KhPooledConnection.countsFor, hostQuotaKeysEqual, h1, h2, h3, h4]

/-- An entry that keeps its key is counted for no other host. -/
theorem countsFor_of_key {c' : KhPooledConnection}
    (h : c'.countsFor key = true) (hc : c.connected = true)
    (hk : hostQuotaKeysEqual c'.key key = hostQuotaKeysEqual c.key key) :
    c.countsFor key = true := by
  simp only [KhPooledConnection.countsFor, Bool.and_eq_true, hk] at h ⊢
  exact ⟨by simp [hc], h.2⟩

section Calls

variable {w : PoolWorld} {i : ℕ}

/-- A held entry exists, is connected and in use. -/
theorem PoolInvariant.held (h : PoolInvariant w) (hi : 0 < w.holders i) :
    i < w.pool.entries.length ∧ (w.pool.entry i).connected = true ∧
      (w.pool.entry i).inUse = true ∧ ¬ Unheld (w.pool.entry i) := by
  rw [h.holders i] at hi
  have hu : ¬ Unheld (w.pool.entry i) := by
    intro hu
    rw [hu.holderCount] at hi
    exact absurd hi (lt_irrefl 0)
  have hinUse : (w.pool.entry i).inUse = true := by
    by_contra hn
    have hn : (w.pool.entry i).inUse = false := by simpa using hn
    refine hu ⟨hn, ?_⟩
    by_contra hl
    rw [h.inUse i hl] at hn
    cases hn
  refine ⟨?_, h.connected i hinUse, hinUse, hu⟩
  by_contra hlen
  simp [KhConnectionPool.entry, List.getD_eq_getElem?_getD, List.getElem?_eq_none (not_lt.1 hlen)]
    at hinUse

theorem PoolInvariant.acquire (h : PoolInvariant w) (key : KhConnectionPoolKey)
    (policy : KhConnectionPolicy) (now : ℕ) :
    PoolInvariant (w.call (.acquire key policy now)) := by
  show PoolInvariant (w.acquired (Engine.acquire w.pool key policy now))
  have hout := acquire_outcome w.pool key policy now
  generalize Engine.acquire w.pool key policy now = r at hout
  cases hout with
  | failed hf => exact h.frees hf
  | @shared i hi hu hs =>
    obtain ⟨hconn, hne, hlt, -⟩ := canShareHttp2Connection_spec hs
    have := h.replace (c := { w.pool.entry i with
        http2StreamLeases := (w.pool.entry i).http2StreamLeases + 1 })
      (replaces_setEntry hi rfl) ⟨hlt, fun _ => hconn, fun _ => hu⟩
      fun key hk => .inl (countsFor_of_key hk hconn rfl)
    have hcount : w.holders i + 1 = KhPooledConnection.holderCount { w.pool.entry i with
        http2StreamLeases := (w.pool.entry i).http2StreamLeases + 1 } := by
      rw [h.holders i]
      simp [KhPooledConnection.holderCount, hne]
    unfold PoolWorld.acquired
    simp only [hcount]
    exact this
  | @idle i hi hm =>
    obtain ⟨hu, hconn, -⟩ := isIdleMatch_spec hm
    have := h.replace (c := { w.pool.entry i with inUse := true })
      (replaces_setEntry hi rfl) ⟨h.leases i, fun _ => hconn, fun _ => rfl⟩
      fun key hk => .inl (countsFor_of_key hk hconn rfl)
    have hcount : w.holders i + 1 =
        KhPooledConnection.holderCount { w.pool.entry i with inUse := true } := by
      rw [h.holders i, hu.holderCount]
      simp [KhPooledConnection.holderCount, hu.2]
    unfold PoolWorld.acquired
    simp only [hcount]
    exact this
  | @fresh p₁ p' i c hf hu hroom hr hc =>
    obtain ⟨hinUse, hconn, hkey, hleases⟩ := hc
    have h₁ := h.frees hf
    have := h₁.replace hr ⟨by rw [hleases]; exact Nat.zero_le _, fun _ => hconn, fun _ => hinUse⟩ <| by
      intro key' hk
      refine .inr ?_
      have hq : hostQuotaKeysEqual key key' = true := by
        rw [← hkey]
        exact (Bool.and_eq_true_iff.1 hk).2
      have hfun : KhPooledConnection.countsFor key' = KhPooledConnection.countsFor key :=
        funext fun c => (countsFor_congr hq c).symm
      simp only [KhConnectionPool.countConnectionsForHostQuota] at hroom ⊢
      rw [hfun]
      exact hroom
    have hcount : w.holders i + 1 = c.holderCount := by
      rw [show w.holders i = (p₁.entry i).holderCount from h₁.holders i, hu.holderCount]
      simp [KhPooledConnection.holderCount, hleases, hinUse]
    unfold PoolWorld.acquired
    simp only [hcount]
    exact this

theorem PoolInvariant.promote (h : PoolInvariant w) (hi : w.holders i = 1)
    (maxConcurrentStreams : ℕ) : PoolInvariant (w.call (.promote i maxConcurrentStreams)) := by
  obtain ⟨hlt, hconn, hinUse, -⟩ := h.held (hi.symm ▸ Nat.zero_lt_one)
  unfold PoolWorld.call promoteHttp2StreamLease
  simp only
  split_ifs with h0 hstate hnull
  · exact h
  · exact h
  · exact h
  · have := h.replace (c := { w.pool.entry i with
        http2MaxStreamLeases := maxConcurrentStreams, http2StreamLeases := 1 })
      (replaces_setEntry hlt rfl) ⟨Nat.one_le_iff_ne_zero.2 h0, fun _ => hconn, fun _ => hinUse⟩
      fun key hk => .inl (countsFor_of_key hk hconn rfl)
    have hsame : Function.update w.holders i 1 = w.holders := by
      rw [← hi]
      exact Function.update_eq_self i w.holders
    have hone : KhPooledConnection.holderCount { w.pool.entry i with
        http2MaxStreamLeases := maxConcurrentStreams, http2StreamLeases := 1 } = 1 := rfl
    rw [hone, hsame] at this
    exact this

theorem PoolInvariant.configure (h : PoolInvariant w) (hi : 0 < w.holders i) (alpn : Bytes)
    (resources : KhConnectionResources) (tunnel : Bool) :
    PoolInvariant (w.call (.configure i alpn resources tunnel)) := by
  obtain ⟨hlt, hconn, hinUse, -⟩ := h.held hi
  set c : KhPooledConnection := { w.pool.entry i with
    key := { (w.pool.entry i).key with alpn }, resources, proxyTunnelEstablished := tunnel }
  have := h.replace (c := c) (replaces_setEntry hlt rfl) ⟨h.leases i, h.connected i, h.inUse i⟩
    fun key hk => .inl (countsFor_of_key hk hconn rfl)
  have hcount : c.holderCount = w.holders i := (h.holders i).symm
  rw [hcount, Function.update_eq_self] at this
  exact this

/-- What a release makes of an entry: one user less, or nothing is left of it. -/
structure Released (c c' : KhPooledConnection) : Prop where
  good : GoodEntry c'
  holders : c'.holderCount = c.holderCount - 1
  counts : ∀ key, c'.countsFor key = true → c.countsFor key = true
  kept : 1 < c.holderCount → SameConnection c c'

variable {c : KhPooledConnection}

theorem replaces_setEntry_detach {p : KhConnectionPool}
    (hi : i < p.entries.length) (hc : c.connected = (p.entry i).connected) :
    Replaces p ((p.setEntry i c).detach i) i {} := by
  have h₁ := replaces_setEntry hi hc
  have h₂ : Replaces (p.setEntry i c) ((p.setEntry i c).detach i) i {} :=
    replaces_detach (by rw [h₁.entries, List.length_set]; exact hi)
  refine ⟨hi, by rw [h₂.entries, h₁.entries, List.set_set], fun hactive => ?_, rfl⟩
  have hcount := h₁.countP (·.connected)
  rw [hc] at hcount
  have := h₂.active (show p.activeCount = _ by omega)
  rw [h₁.entry_self, hc] at this
  exact this

theorem released_empty (hone : c.holderCount = 1) : Released c {} := by
  refine ⟨⟨le_rfl, nofun, fun hne => absurd rfl hne⟩, ?_, fun key hk => ?_, fun hgt => ?_⟩
  · rw [hone]
    rfl
  · cases hk
  · omega

theorem released_lease (hc : GoodEntry c) (hl : 1 < c.http2StreamLeases)
    (closeWhenIdle : Bool) : Released c { c with
      http2StreamLeases := c.http2StreamLeases - 1, closeWhenIdle } := by
  have hinUse := hc.inUse (by omega)
  have hconn := hc.connected hinUse
  have hleases := hc.leases
  refine ⟨⟨by simp only; omega, fun _ => hconn, fun _ => hinUse⟩, ?_,
    fun key hk => countsFor_of_key hk hconn rfl, fun _ => ⟨hconn, hinUse, rfl, rfl, rfl⟩⟩
  simp only [KhPooledConnection.holderCount]
  rw [if_pos (by omega), if_pos (by omega)]

theorem released_idle (hconn : c.connected = true)
    (hone : c.holderCount = 1) (now : ℕ) : Released c { c with
      http2StreamLeases := 0, lastUsedTime := now, inUse := false } := by
  refine ⟨⟨Nat.zero_le _, nofun, fun hne => absurd rfl hne⟩, ?_,
    fun key hk => countsFor_of_key hk hconn rfl, fun hgt => ?_⟩
  · rw [hone]
    rfl
  · omega

theorem release_replaces (h : PoolInvariant w) (hi : 0 < w.holders i) (reusable : Bool) (now : ℕ) :
    ∃ c, Replaces w.pool (Engine.release w.pool i reusable now) i c ∧
      Released (w.pool.entry i) c := by
  obtain ⟨hlt, hconn, hinUse, -⟩ := h.held hi
  have hgood := h.good i
  have hset : ∀ c : KhPooledConnection, c.connected = (w.pool.entry i).connected →
      Released (w.pool.entry i) c → ∃ c', Replaces w.pool (w.pool.setEntry i c) i c' ∧
        Released (w.pool.entry i) c' := fun c hc hr => ⟨c, replaces_setEntry hlt hc, hr⟩
  unfold Engine.release
  by_cases hl : (w.pool.entry i).http2StreamLeases = 0
  · have hone : (w.pool.entry i).holderCount = 1 := by
      simp [KhPooledConnection.holderCount, hl, hinUse]
    cases reusable with
    | false =>
      simp only [hl, Bool.false_eq_true, not_false_eq_true, if_true, ne_eq, not_true_eq_false,
        if_false]
      exact ⟨{}, replaces_detach hlt, released_empty hone⟩
    | true =>
      simp only [hl, not_true_eq_false, if_false, ne_eq]
      refine hset _ rfl ?_
      have := released_idle hconn hone now
      rw [← hl] at this
      exact this
  · have hcount : (w.pool.entry i).holderCount = (w.pool.entry i).http2StreamLeases := by
      simp [KhPooledConnection.holderCount, hl]
    by_cases hlast : (w.pool.entry i).http2StreamLeases - 1 = 0
    · -- the last stream lease
      have hone : (w.pool.entry i).holderCount = 1 := by omega
      cases reusable with
      | false =>
        simp only [hl, hlast, Bool.false_eq_true, not_false_eq_true, if_true, ne_eq]
        exact ⟨{}, replaces_setEntry_detach hlt rfl, released_empty hone⟩
      | true =>
        simp only [hl, hlast, not_true_eq_false, if_false, ne_eq, not_false_eq_true, if_true]
        split
        · exact ⟨{}, replaces_setEntry_detach hlt rfl, released_empty hone⟩
        · exact hset _ rfl (released_idle hconn hone now)
    · have hmany : 1 < (w.pool.entry i).http2StreamLeases := by omega
      cases reusable with
      | false =>
        simp only [hl, hlast, Bool.false_eq_true, not_false_eq_true, if_true, ne_eq, if_false]
        exact hset _ rfl (released_lease hgood hmany true)
      | true =>
        simp only [hl, hlast, not_true_eq_false, if_false, ne_eq, not_false_eq_true, if_true]
        exact hset _ rfl (released_lease hgood hmany (w.pool.entry i).closeWhenIdle)

theorem PoolInvariant.release (h : PoolInvariant w) (hi : 0 < w.holders i) (reusable : Bool)
    (now : ℕ) : PoolInvariant (w.call (.release i reusable now)) := by
  obtain ⟨c, hr, hc⟩ := release_replaces h hi reusable now
  have := h.replace hr hc.good fun key hk => .inl (hc.counts key hk)
  rw [hc.holders, ← h.holders i] at this
  exact this

/-- What a call keeps. -/
theorem PoolInvariant.call (h : PoolInvariant w) {call : PoolCall} (ha : w.Allowed call) :
    PoolInvariant (w.call call) := by
  cases call with
  | acquire key policy now => exact h.acquire key policy now
  | promote i maxConcurrentStreams => exact h.promote ha maxConcurrentStreams
  | release i reusable now => exact h.release ha reusable now
  | configure i alpn resources tunnel => exact h.configure ha alpn resources tunnel

/-! ## The connections of others -/

theorem PoolInvariant.sameConnection (h : PoolInvariant w) (hi : 0 < w.holders i)
    (hc : c = w.pool.entry i) : SameConnection (w.pool.entry i) c := by
  obtain ⟨-, hconn, hinUse, -⟩ := h.held hi
  rw [hc]
  exact ⟨hconn, hinUse, rfl, rfl, rfl⟩

theorem PoolInvariant.acquire_kept (h : PoolInvariant w) (hi : 0 < w.holders i)
    (key : KhConnectionPoolKey) (policy : KhConnectionPolicy) (now : ℕ) :
    SameConnection (w.pool.entry i) ((w.call (.acquire key policy now)).pool.entry i) := by
  obtain ⟨-, hconn, hinUse, hu⟩ := h.held hi
  show SameConnection _ ((w.acquired (Engine.acquire w.pool key policy now)).pool.entry i)
  have hout := acquire_outcome w.pool key policy now
  generalize Engine.acquire w.pool key policy now = r at hout
  cases hout with
  | failed hf => exact h.sameConnection hi (hf.entry hu)
  | @shared j hj hu' hs =>
    have hr := replaces_setEntry (c := { w.pool.entry j with
      http2StreamLeases := (w.pool.entry j).http2StreamLeases + 1 }) hj rfl
    by_cases hij : i = j
    · subst hij
      unfold PoolWorld.acquired
      rw [hr.entry_self]
      exact ⟨hconn, hinUse, rfl, rfl, rfl⟩
    · exact h.sameConnection hi (hr.entry_ne hij)
  | @idle j hj hm =>
    have hr := replaces_setEntry (c := { w.pool.entry j with inUse := true }) hj rfl
    have hij : i ≠ j := by
      rintro rfl
      exact hu (isIdleMatch_spec hm).1
    exact h.sameConnection hi (hr.entry_ne hij)
  | @fresh p₁ p' j c hf hu' hroom hr hc =>
    have hentry := hf.entry hu
    have hij : i ≠ j := by
      rintro rfl
      rw [hentry] at hu'
      exact hu hu'
    exact h.sameConnection hi ((hr.entry_ne hij).trans hentry)

theorem PoolInvariant.promote_kept (h : PoolInvariant w) (hi : 0 < w.holders i)
    (j maxConcurrentStreams : ℕ) :
    SameConnection (w.pool.entry i) ((w.call (.promote j maxConcurrentStreams)).pool.entry i) := by
  obtain ⟨-, hconn, hinUse, -⟩ := h.held hi
  unfold PoolWorld.call promoteHttp2StreamLease
  simp only
  split_ifs with h0 hstate hnull
  · exact h.sameConnection hi rfl
  · exact h.sameConnection hi rfl
  · exact h.sameConnection hi rfl
  · have hlt : j < w.pool.entries.length := by
      by_contra hlen
      simp [KhConnectionPool.entry, List.getD_eq_getElem?_getD,
        List.getElem?_eq_none (not_lt.1 hlen)] at hstate
    have hr := replaces_setEntry (c := { w.pool.entry j with
      http2MaxStreamLeases := maxConcurrentStreams, http2StreamLeases := 1 }) hlt rfl
    by_cases hij : i = j
    · subst hij
      rw [hr.entry_self]
      exact ⟨hconn, hinUse, rfl, rfl, rfl⟩
    · exact h.sameConnection hi (hr.entry_ne hij)

/-- **A call leaves the connections of others alone.** -/
theorem PoolInvariant.respects (h : PoolInvariant w) {call : PoolCall} (ha : w.Allowed call) :
    Respects w call := by
  refine ⟨fun i hi hrelease hconfigure => ?_, ?_, ?_⟩
  · cases call with
    | acquire key policy now => exact h.acquire_kept hi key policy now
    | promote j maxConcurrentStreams => exact h.promote_kept hi j maxConcurrentStreams
    | release j reusable now =>
      obtain ⟨c, hr, hc⟩ := release_replaces h ha reusable now
      by_cases hij : i = j
      · subst hij
        show SameConnection _ ((Engine.release w.pool i reusable now).entry i)
        rw [hr.entry_self]
        refine hc.kept ?_
        rw [← h.holders i]
        exact hrelease reusable now rfl
      · exact h.sameConnection hi (hr.entry_ne hij)
    | configure j alpn resources tunnel =>
      have hij : i ≠ j := by
        rintro rfl
        exact hconfigure alpn resources tunnel rfl
      obtain ⟨hlt, -⟩ := h.held ha
      have hr := replaces_setEntry (p := w.pool) (i := j) (c := { w.pool.entry j with
        key := { (w.pool.entry j).key with alpn }, resources, proxyTunnelEstablished := tunnel })
        hlt rfl
      exact h.sameConnection hi (hr.entry_ne hij)
  · intro key policy now status pool i reused _ heq hi
    obtain ⟨-, -, -, hu⟩ := h.held hi
    have hout := acquire_outcome w.pool key policy now
    rw [heq] at hout
    cases hout with
    | shared _ _ hs => exact hs
    | idle _ hm => exact absurd (isIdleMatch_spec hm).1 hu
    | fresh hf hu' _ _ _ =>
      rw [hf.entry hu] at hu'
      exact absurd hu' hu
  · intro key policy now status pool i _ heq
    have hout := acquire_outcome w.pool key policy now
    rw [heq] at hout
    cases hout with
    | shared hj _ hs =>
      have hkey := (canShareHttp2Connection_spec hs).2.2.2
      rw [entry_setEntry_self hj]
      exact keysEqualForAutoAlpnAcquire_match hkey
    | idle hj hm =>
      have hkey := (isIdleMatch_spec hm).2.2
      rw [entry_setEntry_self hj]
      exact keysEqualForAutoAlpnAcquire_match hkey

end Calls

/-! ## Runs -/

theorem initializePool_invariant {capacity maxConnectionsPerHost idleTimeoutMilliseconds : ℕ}
    {pool : KhConnectionPool}
    (h : initializePool capacity maxConnectionsPerHost idleTimeoutMilliseconds = .ok pool) :
    PoolInvariant ⟨pool, fun _ => 0⟩ := by
  unfold initializePool at h
  split_ifs at h
  obtain rfl := Except.ok.inj h
  have hentry : ∀ i, KhConnectionPool.entry
      { entries := List.replicate capacity {}, activeCount := 0, maxConnectionsPerHost,
        nextConnectionId := 1, idleTimeoutMilliseconds } i = {} := by
    intro i
    simp only [KhConnectionPool.entry, List.getD_eq_getElem?_getD, List.getElem?_replicate]
    split <;> rfl
  have hcount : ∀ P : KhPooledConnection → Bool, P {} = false →
      (List.replicate capacity {}).countP P = 0 := by
    intro P hP
    rw [List.countP_eq_zero]
    intro c hc
    rw [List.eq_of_mem_replicate hc, hP]
    exact Bool.false_ne_true
  refine ⟨⟨?_, fun i => ?_, fun i => ?_, fun key => ?_⟩, fun i hu => ?_, fun i hl => ?_⟩
  · exact (hcount _ rfl).symm
  · rw [hentry]
    rfl
  · rw [hentry]
  · simp only [KhConnectionPool.countConnectionsForHostQuota]
    rw [hcount _ rfl]
    exact Nat.zero_le _
  · rw [hentry] at hu
    cases hu
  · rw [hentry] at hl
    exact absurd rfl hl

theorem PoolWorld.Reachable.invariant (h : w.Reachable) : PoolInvariant w := by
  induction h with
  | initial h => exact initializePool_invariant h
  | step _ call ha ih => exact ih.call ha

/-- **The pool in every run**: its counters, holders and quotas agree, and every call
    leaves the connections of others alone. -/
theorem pool_accounted {w : PoolWorld} (h : w.Reachable) :
    Accounted w ∧ ∀ call, w.Allowed call → Respects w call :=
  ⟨h.invariant.toAccounted, fun _ ha => h.invariant.respects ha⟩

def emptyPool : KhConnectionPool :=
  { entries := [{}, {}]
    activeCount := 0
    maxConnectionsPerHost := 2
    nextConnectionId := 1
    idleTimeoutMilliseconds := 0 }

theorem emptyPool_reachable : PoolWorld.Reachable ⟨emptyPool, fun _ => 0⟩ :=
  .initial (show initializePool 2 2 0 = .ok emptyPool from rfl)

/-- A connection that was promoted, with two users. -/
def sharedWorld : PoolWorld :=
  ((((PoolWorld.mk emptyPool fun _ => 0).call (.acquire {} .reuseOrCreate 1)).call
    (.configure 0 (text "h2") ⟨true, true, true, true, true⟩ false)).call (.promote 0 100)).call
    (.acquire { alpn := text "h2" } .reuseOrCreate 2)

theorem sharedWorld_reachable : sharedWorld.Reachable := by
  have h₁ := emptyPool_reachable.step (.acquire {} .reuseOrCreate 1) trivial
  have h₂ := h₁.step (.configure 0 (text "h2") ⟨true, true, true, true, true⟩ false)
    (by unfold PoolWorld.Allowed; decide)
  have h₃ := h₂.step (.promote 0 100) (by unfold PoolWorld.Allowed; decide)
  exact h₃.step (.acquire { alpn := text "h2" } .reuseOrCreate 2) trivial

theorem pool_accounted_shared :
    sharedWorld.holders 0 = 2 ∧ Accounted sharedWorld ∧
      ∀ call, sharedWorld.Allowed call → Respects sharedWorld call :=
  ⟨by decide, pool_accounted sharedWorld_reachable⟩

def disabledProxyKey : KhConnectionPoolKey := { proxyAuthority := text "p" }

/-- A connection is reused for a key with another proxy authority, which neither key
    uses. -/
theorem reused_disabledProxy : ∃ w : PoolWorld, w.Reachable ∧ ∃ pool,
    acquire w.pool disabledProxyKey .reuseOrCreate 3 = (statusSuccess, pool, some (0, true)) ∧
      { (pool.entry 0).key with alpn := disabledProxyKey.alpn } ≠ disabledProxyKey := by
  refine ⟨_, (emptyPool_reachable.step (.acquire {} .reuseOrCreate 1) trivial).step
    (.release 0 true 2) (by unfold PoolWorld.Allowed; decide), _, rfl, by decide⟩

end KernelHttp.Engine
