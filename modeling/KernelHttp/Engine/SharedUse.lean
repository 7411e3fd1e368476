/-
  A shared connection under its users.
-/
import KernelHttp.Engine.Executions
import KernelHttp.Engine.PoolInvariant

namespace KernelHttp.Engine

namespace SessionWorld

/-! ## The statement -/

/-- A step detaches no connection that another execution holds, and what its execution
    holds is the connection it acquired. -/
structure Undisturbed (w : SessionWorld) (e : ℕ) (s : ExecutionStep) : Prop where
  lastHolder : ∀ j, w.Detaches e s j → ∀ e' x, e' ≠ e → w.executions[e']? = some x →
    x.holds j = false
  ownAcquisition : ∀ x h, w.executions[e]? = some x → x.held = some h →
    w.generation h.index = h.generation

/-- A connection that is closed for a retry has at most one stream lease. -/
def ClosesAlone (w : SessionWorld) (e : ℕ) (s : ExecutionStep) : Prop :=
  ∀ i, w.closes e s = some i → (w.pool.entry i).http2StreamLeases ≤ 1

/-- The states of a session whose executions closed connections alone. -/
inductive Reached : SessionWorld → Prop
  | initial {capacity maxConnectionsPerHost idleTimeoutMilliseconds : ℕ} {pool : KhConnectionPool}
      (requests : List PooledRequest)
      (h : initializePool capacity maxConnectionsPerHost idleTimeoutMilliseconds = .ok pool) :
      Reached ⟨pool, requests.map fun request => ⟨request, .start⟩, fun _ => 0⟩
  | step {w : SessionWorld} (h : Reached w) (e : ℕ) (s : ExecutionStep) (hc : w.ClosesAlone e s) :
      Reached (w.step e s)

/-! ## Holders -/

/-- How many executions hold an entry. -/
def holders (w : SessionWorld) (i : ℕ) : ℕ := w.executions.countP (Execution.holds i)

def users (w : SessionWorld) : PoolWorld := ⟨w.pool, w.holders⟩

/-- The pool is in order, and every holder has the connection it acquired. -/
structure SessionInvariant (w : SessionWorld) : Prop where
  pool : PoolInvariant w.users
  own : ∀ x ∈ w.executions, ∀ h, x.held = some h → w.generation h.index = h.generation

variable {w : SessionWorld} {e : ℕ} {x : Execution} {s : ExecutionStep}

variable {h : Holding} {taken : Option ℕ} {phase : Phase} {i j : ℕ}

theorem holds_iff {x : Execution} :
    x.holds i = true ↔ ∃ h, x.held = some h ∧ h.index = i := by
  unfold Execution.holds
  cases x.held <;> simp

theorem holders_pos (hx : w.executions[e]? = some x) (hj : x.holds j = true) :
    0 < w.holders j :=
  List.countP_pos_iff.2 ⟨x, List.mem_of_getElem? hx, hj⟩

/-- The holders when an execution goes on. -/
theorem holders_goOn (hx : w.executions[e]? = some x) (phase : Phase) (pool : KhConnectionPool)
    (taken : Option ℕ) (j : ℕ) :
    (w.goOn e x phase pool taken).holders j + (if x.holds j then 1 else 0) =
      w.holders j + (if Execution.holds j { x with phase } then 1 else 0) := by
  obtain ⟨hlt, hget⟩ := List.getElem?_eq_some_iff.1 hx
  have hset := List.countP_set (p := Execution.holds j) (a := { x with phase }) hlt
  rw [hget] at hset
  show (w.executions.set e { x with phase }).countP _ + _ = w.executions.countP _ + _
  rw [hset]
  by_cases hj : x.holds j = true
  · have := holders_pos hx hj
    unfold holders at this
    rw [if_pos hj]
    omega
  · rw [if_neg hj]
    omega

/-- Another execution holds the entry. -/
def HeldBeside (w : SessionWorld) (e j : ℕ) : Prop :=
  ∃ e' x, e' ≠ e ∧ w.executions[e']? = some x ∧ x.holds j = true

theorem heldBeside_iff (hx : w.executions[e]? = some x) :
    w.HeldBeside e j ↔ (if x.holds j then 1 else 0) < w.holders j := by
  have hcount := holders_goOn hx .finished w.pool none j
  have hnone : Execution.holds j { x with phase := .finished } = false := rfl
  rw [hnone, if_neg Bool.false_ne_true, Nat.add_zero] at hcount
  have hlt := (List.getElem?_eq_some_iff.1 hx).1
  constructor
  · rintro ⟨e', x', hne, hx', hj⟩
    have hget : (w.goOn e x .finished w.pool none).executions[e']? = some x' := by
      show (w.executions.set e _)[e']? = _
      rw [List.getElem?_set_ne (Ne.symm hne), hx']
    have := holders_pos hget hj
    omega
  · intro h
    have hpos : 0 < (w.executions.set e { x with phase := .finished }).countP (Execution.holds j) := by
      have : (w.goOn e x .finished w.pool none).holders j =
        (w.executions.set e { x with phase := .finished }).countP (Execution.holds j) := rfl
      omega
    obtain ⟨x', hmem, hj⟩ := List.countP_pos_iff.1 hpos
    obtain ⟨e', hx'⟩ := List.mem_iff_getElem?.1 hmem
    have hne : e' ≠ e := by
      rintro rfl
      rw [List.getElem?_set_self hlt] at hx'
      obtain rfl := Option.some.inj hx'
      cases hj
    rw [List.getElem?_set_ne (Ne.symm hne)] at hx'
    exact ⟨e', x', hne, hx', hj⟩

theorem HeldBeside.pos (h : w.HeldBeside e j) : 0 < w.holders j := by
  obtain ⟨e', x', -, hx', hj⟩ := h
  exact holders_pos hx' hj

/-! ## What a step does -/

/-- A connection in use is not the cleared entry. -/
theorem not_detached_of_same {before after : KhConnectionPool} {c : KhPooledConnection}
    (h : SameConnection c (after.entry j)) : ¬ Detached before after none j := by
  rintro ⟨-, he | ht⟩
  · have hc := h.1
    rw [he] at hc
    cases hc
  · cases ht

/-- What an execution that goes on leaves in order. -/
structure Keeps (w : SessionWorld) (e : ℕ) (x : Execution) (phase : Phase)
    (pool : KhConnectionPool) (taken : Option ℕ) : Prop where
  invariant : PoolInvariant (w.goOn e x phase pool taken).users
  others : ∀ j, w.HeldBeside e j → ¬ Detached w.pool pool taken j
  own : ∀ h, Execution.held { x with phase } = some h →
    (x.held = some h ∧ ¬ Detached w.pool pool taken h.index) ∨
      h.generation = w.advance pool taken h.index

theorem advance_of_not_detached {pool : KhConnectionPool}
    (h : ¬ Detached w.pool pool taken j) : w.advance pool taken j = w.generation j :=
  if_neg h

/-- **Going on keeps the invariant.** -/
theorem SessionInvariant.goOn (hw : w.SessionInvariant) (hx : w.executions[e]? = some x)
    {pool : KhConnectionPool}
    (hk : w.Keeps e x phase pool taken) : (w.goOn e x phase pool taken).SessionInvariant := by
  have hlt := (List.getElem?_eq_some_iff.1 hx).1
  refine ⟨hk.invariant, fun y hy h hh => ?_⟩
  obtain ⟨e', hy'⟩ := List.mem_iff_getElem?.1 hy
  show w.advance pool taken h.index = h.generation
  by_cases hne : e' = e
  · subst hne
    change (w.executions.set e' { x with phase })[e']? = some y at hy'
    rw [List.getElem?_set_self hlt] at hy'
    obtain rfl := Option.some.inj hy'
    rcases hk.own h hh with ⟨hsame, hnot⟩ | hnew
    · rw [advance_of_not_detached hnot]
      exact hw.own x (List.mem_of_getElem? hx) h hsame
    · exact hnew.symm
  · change (w.executions.set e { x with phase })[e']? = some y at hy'
    rw [List.getElem?_set_ne (Ne.symm hne)] at hy'
    have hj : y.holds h.index = true := holds_iff.2 ⟨h, hh, rfl⟩
    rw [advance_of_not_detached (hk.others h.index ⟨e', y, hne, hy', hj⟩)]
    exact hw.own y (List.mem_of_getElem? hy') h hh

/-- The users when the entry `i` gets one more, or loses one. -/
theorem holders_eq (hx : w.executions[e]? = some x) {pool : KhConnectionPool} {f : ℕ → ℕ}
    (hf : ∀ j, f j + (if x.holds j then 1 else 0) =
      w.holders j + (if Execution.holds j { x with phase } then 1 else 0)) :
    (w.goOn e x phase pool taken).users = ⟨pool, f⟩ := by
  have : (w.goOn e x phase pool taken).holders = f := by
    funext j
    have h₁ := holders_goOn hx phase pool taken j
    have h₂ := hf j
    omega
  unfold users
  rw [this]
  rfl

theorem own_pos (hx : w.executions[e]? = some x) (hh : x.held = some h) :
    0 < w.users.holders h.index :=
  holders_pos hx (holds_iff.2 ⟨h, hh, rfl⟩)

theorem acquire_others (hw : w.SessionInvariant) (key : KhConnectionPoolKey)
    (policy : KhConnectionPolicy) (now j : ℕ) (hj : 0 < w.holders j) :
    ¬ Detached w.pool (acquire w.pool key policy now).2.1
      (takenBy (acquire w.pool key policy now).2.2) j := by
  rintro ⟨-, he | ht⟩
  · have hsame := (hw.pool.acquire_kept hj key policy now).1
    have hpool : (w.users.call (.acquire key policy now)).pool =
        (acquire w.pool key policy now).2.1 := by
      show (w.users.acquired (acquire w.pool key policy now)).pool = _
      rcases acquire w.pool key policy now with ⟨status, pool, _ | ⟨i, reused⟩⟩ <;> rfl
    rw [hpool, he] at hsame
    cases hsame
  · obtain ⟨-, -, -, hu⟩ := hw.pool.held hj
    have hout := acquire_outcome w.pool key policy now
    generalize acquire w.pool key policy now = r at hout ht
    cases hout with
    | failed hf => cases ht
    | shared hi hu' hs => cases ht
    | idle hi hm => cases ht
    | fresh hf hu' hroom hr hc =>
      obtain rfl := Option.some.inj ht
      rw [hf.entry hu] at hu'
      exact hu hu'

theorem keeps_acquire (hw : w.SessionInvariant) (hx : w.executions[e]? = some x)
    (hnone : x.held = none) (key : KhConnectionPoolKey) (policy : KhConnectionPolicy) (now : ℕ)
    (status : NTSTATUS) (pool : KhConnectionPool) :
    (acquire w.pool key policy now = (status, pool, none) → ∀ phase,
      Execution.held { x with phase } = none → w.Keeps e x phase pool none) ∧
    ∀ i reused, acquire w.pool key policy now = (status, pool, some (i, reused)) → ∀ phase,
      Execution.held { x with phase } =
        some ⟨i, w.advance pool (takenBy (some (i, reused))) i⟩ →
      w.Keeps e x phase pool (takenBy (some (i, reused))) := by
  have hinv := hw.pool.acquire key policy now
  have hothers := acquire_others hw key policy now
  have hxj (j : ℕ) : x.holds j = false := by
    unfold Execution.holds
    rw [hnone]
    rfl
  have hcall : w.users.call (.acquire key policy now) =
      w.users.acquired (acquire w.pool key policy now) := rfl
  rw [hcall] at hinv
  refine ⟨fun ha phase hp => ?_, fun i reused ha phase hp => ?_⟩
  · rw [ha] at hinv hothers
    refine ⟨?_, fun j hj => hothers j hj.pos, fun h hh => ?_⟩
    · have hpj (j : ℕ) : Execution.holds j { x with phase } = false := by
        unfold Execution.holds
        rw [hp]
        rfl
      rw [holders_eq hx (f := w.holders) fun j => by rw [hxj j, hpj j]]
      exact hinv
    · rw [hp] at hh
      cases hh
  · rw [ha] at hinv hothers
    refine ⟨?_, fun j hj => hothers j hj.pos, fun h hh => .inr ?_⟩
    · rw [holders_eq hx (f := Function.update w.holders i (w.holders i + 1)) fun j => ?_]
      · exact hinv
      · rw [hxj j, Function.update_apply]
        unfold Execution.holds
        rw [hp]
        by_cases hij : j = i
        · subst hij
          simp
        · simp [hij, Ne.symm hij]
    · rw [hp] at hh
      obtain rfl := Option.some.inj hh
      rfl

/-- A step that changes the connection its execution holds, and who holds it not. -/
theorem keeps_same (hx : w.executions[e]? = some x) {pool : KhConnectionPool}
    (hpool : PoolInvariant ⟨pool, w.holders⟩)
    (hsame : ∀ j, 0 < w.holders j → SameConnection (w.pool.entry j) (pool.entry j) ∨
      (pool.entry j).connected = true) : w.Keeps e x x.phase pool none := by
  have hnot (j : ℕ) (hj : 0 < w.holders j) : ¬ Detached w.pool pool none j := by
    rcases hsame j hj with h | h
    · exact not_detached_of_same h
    · rintro ⟨-, he | ht⟩
      · rw [he] at h
        cases h
      · cases ht
  refine ⟨?_, fun j hj => hnot j hj.pos, fun h hh => .inl ⟨hh, hnot _ (own_pos hx hh)⟩⟩
  rw [holders_eq hx (f := w.holders) fun j => rfl]
  exact hpool

theorem keeps_promote (hw : w.SessionInvariant) (hx : w.executions[e]? = some x)
    (hh : x.held = some h) (m : ℕ) :
    w.Keeps e x x.phase (promoteHttp2StreamLease w.pool h.index m).2 none := by
  have hpos := own_pos hx hh
  refine keeps_same hx ?_ fun j hj => .inl (hw.pool.promote_kept hj h.index m)
  by_cases hl : (w.pool.entry h.index).http2StreamLeases = 0
  · have hone : w.users.holders h.index = 1 := by
      have hcount := hw.pool.holders h.index
      have hinUse := (hw.pool.held hpos).2.2.1
      rw [hcount]
      show KhPooledConnection.holderCount (w.pool.entry h.index) = 1
      change (w.pool.entry h.index).inUse = true at hinUse
      simp [KhPooledConnection.holderCount, hl, hinUse]
    exact hw.pool.promote hone m
  · have hsame : (promoteHttp2StreamLease w.pool h.index m).2 = w.pool := by
      unfold promoteHttp2StreamLease
      dsimp only
      split_ifs with h0 hstate
      · rfl
      · rfl
      · rfl
      · exact absurd (.inr (.inr (.inr hl))) hstate
    rw [hsame]
    exact hw.pool

theorem keeps_configure (hw : w.SessionInvariant) (hx : w.executions[e]? = some x)
    (hh : x.held = some h) (alpn : Bytes) (resources : KhConnectionResources) (tunnel : Bool) :
    w.Keeps e x x.phase (w.configured h alpn resources tunnel) none := by
  have hpos := own_pos hx hh
  obtain ⟨hlt, hconn, -, -⟩ := hw.pool.held hpos
  refine keeps_same hx (hw.pool.configure hpos alpn resources tunnel) fun j hj => .inr ?_
  have hr := replaces_setEntry (p := w.pool) (i := h.index) (c := { w.pool.entry h.index with
    key := { (w.pool.entry h.index).key with alpn }, resources,
    proxyTunnelEstablished := tunnel }) hlt rfl
  by_cases hij : j = h.index
  · subst hij
    exact (congrArg KhPooledConnection.connected hr.entry_self).trans hconn
  · exact (congrArg KhPooledConnection.connected (hr.entry_ne hij)).trans (hw.pool.held hj).2.1

theorem keeps_release (hw : w.SessionInvariant) (hx : w.executions[e]? = some x)
    (hh : x.held = some h) (reusable : Bool) (now : ℕ) (hp : Execution.held { x with phase } = none) :
    w.Keeps e x phase (release w.pool h.index reusable now) none := by
  have hpos := own_pos hx hh
  have hxj (j : ℕ) : x.holds j = decide (h.index = j) := by
    unfold Execution.holds
    rw [hh]
    rfl
  have hpj (j : ℕ) : Execution.holds j { x with phase } = false := by
    unfold Execution.holds
    rw [hp]
    rfl
  refine ⟨?_, fun j hj => ?_, fun g hg => ?_⟩
  · rw [holders_eq hx (f := Function.update w.holders h.index (w.holders h.index - 1)) fun j => ?_]
    · exact hw.pool.release hpos reusable now
    · rw [hxj, hpj, Function.update_apply]
      by_cases hij : j = h.index
      · subst hij
        change 0 < w.holders h.index at hpos
        simp only [if_true, decide_true, Bool.false_eq_true, if_false]
        omega
      · simp [hij, Ne.symm hij]
  · obtain ⟨c, hr, hc⟩ := release_replaces hw.pool hpos reusable now
    by_cases hij : j = h.index
    · subst hij
      have hmany := (heldBeside_iff hx).1 hj
      rw [hxj, decide_eq_true rfl, if_pos rfl] at hmany
      have hkept := hc.kept (by rw [← hw.pool.holders h.index]; exact hmany)
      rw [← hr.entry_self] at hkept
      exact not_detached_of_same hkept
    · have hsame := hw.pool.sameConnection hj.pos (hr.entry_ne hij)
      exact not_detached_of_same hsame
  · rw [hp] at hg
    cases hg

theorem close_eq_release (hw : w.SessionInvariant) (hpos : 0 < w.users.holders h.index)
    (hl : (w.pool.entry h.index).http2StreamLeases ≤ 1) :
    close w.pool h.index = release w.pool h.index false 0 := by
  have hlt : h.index < w.pool.entries.length := (hw.pool.held hpos).1
  unfold close release
  dsimp only
  rw [if_pos Bool.false_ne_true]
  by_cases h0 : (w.pool.entry h.index).http2StreamLeases = 0
  · rw [if_neg (not_not.2 h0)]
  · have h1 : (w.pool.entry h.index).http2StreamLeases - 1 = 0 := by omega
    rw [if_pos h0, if_pos h1]
    unfold KhConnectionPool.detach
    rw [entry_setEntry_self hlt]
    simp only [KhConnectionPool.setEntry, List.set_set]

theorem acquire_forceNew {p pool : KhConnectionPool} {key : KhConnectionPoolKey} {now : ℕ}
    {status : NTSTATUS} {reused : Bool}
    (ha : acquire p key .forceNew now = (status, pool, some (i, reused))) : reused = false := by
  have hnew : tryReuse p key .forceNew now = { pool := p } := rfl
  obtain ⟨-, hsel, hre, -⟩ := makeRoomForHost_spec { pool := p } key
  unfold acquire at ha
  simp only [hnew, Option.isSome_none, Bool.false_eq_true, if_false] at ha
  split at ha
  · simp only [Prod.mk.injEq, reduceCtorEq, and_false] at ha
  · unfold AcquireState.finish at ha
    rcases takeFreeEntry_spec .forceNew hsel with ⟨hnone, -⟩ | ⟨j, c, -, hj, hre', -⟩
    · rw [hnone] at ha
      simp only [Prod.mk.injEq, reduceCtorEq, and_false] at ha
    · rw [hj] at ha
      simp only [Prod.mk.injEq, Option.some.injEq] at ha
      rw [← ha.2.2.2, hre', hre]

/-- **What a step does**: nothing, or its execution goes on and keeps everything in
    order. -/
theorem step_cases (hw : w.SessionInvariant) (hc : w.ClosesAlone e s) :
    (w.step e s = w ∧ w.takes e s = none) ∨
    ∃ x phase pool, w.executions[e]? = some x ∧
      w.step e s = w.goOn e x phase pool (w.takes e s) ∧
      w.Keeps e x phase pool (w.takes e s) := by
  rcases hx : w.executions[e]? with _ | x
  · refine .inl ⟨by unfold step; rw [hx], ?_⟩
    unfold takes
    cases s <;> simp only [hx]
  obtain ⟨request, phase⟩ := x
  have hrelease (h : Holding) (hh : Execution.held ⟨request, phase⟩ = some h) (reusable : Bool)
      (now : ℕ) : ∃ y phase' pool, some (⟨request, phase⟩ : Execution) = some y ∧
        w.goOn e ⟨request, phase⟩ .finished (release w.pool h.index reusable now) none =
          w.goOn e y phase' pool none ∧ w.Keeps e y phase' pool none :=
    ⟨_, _, _, rfl, rfl, keeps_release hw hx hh reusable now rfl⟩
  unfold step
  simp only [hx]
  cases phase with
  | start =>
    cases s with
    | acquire now =>
      right
      simp only [takes, hx]
      obtain ⟨hfail, hok⟩ := keeps_acquire hw hx rfl request.key request.connectionPolicy now
        (acquire w.pool request.key request.connectionPolicy now).1
        (acquire w.pool request.key request.connectionPolicy now).2.1
      rcases ha : acquire w.pool request.key request.connectionPolicy now with
        ⟨status, pool, _ | ⟨i, reused⟩⟩
      · rw [ha] at hfail
        exact ⟨_, _, _, rfl, rfl, hfail rfl .finished rfl⟩
      · rw [ha] at hok
        exact ⟨_, _, _, rfl, rfl, hok i reused rfl _ rfl⟩
    | promote m => exact .inl ⟨rfl, by simp only [takes]⟩
    | configure alpn resources tunnel => exact .inl ⟨rfl, by simp only [takes]⟩
    | finish status reusable now => exact .inl ⟨rfl, by simp only [takes]⟩
  | exchange h reused =>
    cases s with
    | acquire now => exact .inl ⟨rfl, by simp only [takes, hx]⟩
    | promote m => exact .inr ⟨_, _, _, rfl, rfl, keeps_promote hw hx rfl m⟩
    | configure alpn resources tunnel =>
      exact .inr ⟨_, _, _, rfl, rfl, keeps_configure hw hx rfl alpn resources tunnel⟩
    | finish status reusable now =>
      right
      simp only [takes]
      split
      · next hretry =>
        have hl := hc h.index (by simp only [closes, hx, hretry, if_true])
        refine ⟨_, _, _, rfl, rfl, ?_⟩
        rw [close_eq_release hw (own_pos hx rfl) hl]
        exact keeps_release hw hx rfl false 0 rfl
      · exact hrelease h rfl _ now
  | retry =>
    cases s with
    | acquire now =>
      right
      simp only [takes, hx]
      obtain ⟨hfail, hok⟩ := keeps_acquire hw hx rfl request.key .forceNew now
        (acquire w.pool request.key .forceNew now).1
        (acquire w.pool request.key .forceNew now).2.1
      rcases ha : acquire w.pool request.key .forceNew now with
        ⟨status, pool, _ | ⟨i, reused⟩⟩
      · rw [ha] at hfail
        exact ⟨_, _, _, rfl, rfl, hfail rfl .finished rfl⟩
      · rw [ha] at hok
        obtain rfl := acquire_forceNew ha
        exact ⟨_, _, _, rfl, rfl, hok i false rfl _ rfl⟩
    | promote m => exact .inl ⟨rfl, by simp only [takes]⟩
    | configure alpn resources tunnel => exact .inl ⟨rfl, by simp only [takes]⟩
    | finish status reusable now => exact .inl ⟨rfl, by simp only [takes]⟩
  | exchangeAgain h =>
    cases s with
    | acquire now => exact .inl ⟨rfl, by simp only [takes, hx]⟩
    | promote m => exact .inr ⟨_, _, _, rfl, rfl, keeps_promote hw hx rfl m⟩
    | configure alpn resources tunnel =>
      exact .inr ⟨_, _, _, rfl, rfl, keeps_configure hw hx rfl alpn resources tunnel⟩
    | finish status reusable now => exact .inr (hrelease h rfl _ now)
  | finished => cases s <;> exact .inl ⟨rfl, by simp only [takes, hx]⟩

theorem initial_invariant {capacity maxConnectionsPerHost idleTimeoutMilliseconds : ℕ}
    {pool : KhConnectionPool} (requests : List PooledRequest)
    (h : initializePool capacity maxConnectionsPerHost idleTimeoutMilliseconds = .ok pool) :
    SessionInvariant
      ⟨pool, requests.map fun request => ⟨request, .start⟩, fun _ => 0⟩ := by
  have hheld : ∀ x ∈ requests.map fun request => (⟨request, .start⟩ : Execution),
      x.held = none := by
    intro x hx
    obtain ⟨request, -, rfl⟩ := List.mem_map.1 hx
    rfl
  refine ⟨?_, fun x hx g hg => ?_⟩
  · have hnone : holders ⟨pool, requests.map fun request => ⟨request, .start⟩, fun _ => 0⟩ =
        fun _ => 0 := by
      funext i
      refine List.countP_eq_zero.2 fun x hx => ?_
      unfold Execution.holds
      rw [hheld x hx]
      exact Bool.false_ne_true
    unfold users
    rw [hnone]
    exact initializePool_invariant h
  · rw [hheld x hx] at hg
    cases hg

theorem Reached.invariant (h : w.Reached) : w.SessionInvariant := by
  induction h with
  | initial requests h => exact initial_invariant requests h
  | step _ e s hc ih =>
    rcases step_cases ih hc with ⟨hsame, -⟩ | ⟨x, phase, pool, hx, hstep, hk⟩
    · rw [hsame]
      exact ih
    · rw [hstep]
      exact ih.goOn hx hk

theorem closesAlone_of_undisturbed (hw : w.SessionInvariant) (hu : w.Undisturbed e s) :
    w.ClosesAlone e s := by
  intro i hi
  by_contra hl
  rw [not_le] at hl
  rcases s with _ | _ | _ | ⟨status, reusable, now⟩
  · cases hi
  · cases hi
  · cases hi
  rcases hx : w.executions[e]? with _ | ⟨request, phase⟩
  · simp only [closes, hx] at hi
    cases hi
  cases phase with
  | exchange h reused =>
    simp only [closes, hx] at hi
    split_ifs at hi with hretry
    obtain rfl := Option.some.inj hi
    have hcount : w.holders h.index = (w.pool.entry h.index).http2StreamLeases := by
      refine (hw.pool.holders h.index).trans ?_
      exact if_pos (show (w.pool.entry h.index).http2StreamLeases ≠ 0 by omega)
    have hbeside : w.HeldBeside e h.index := by
      rw [heldBeside_iff hx, hcount]
      split <;> omega
    obtain ⟨e', x', hne, hx', hj⟩ := hbeside
    obtain ⟨hlt, -, hinUse, -⟩ := hw.pool.held (own_pos hx rfl)
    have hstep : (w.step e (.finish status reusable now)).pool = w.pool.detach h.index := by
      unfold step
      simp only [hx, hretry, if_true]
      rfl
    have hdetached : w.Detaches e (.finish status reusable now) h.index := by
      refine ⟨?_, .inl ?_⟩
      · change (w.pool.entry h.index).inUse = true at hinUse
        unfold KhPooledConnection.hasConnectionState
        rw [hinUse]
        rfl
      · rw [hstep]
        exact (replaces_detach hlt).entry_self
    have hnot := hu.lastHolder _ hdetached e' x' hne hx'
    rw [hj] at hnot
    cases hnot
  | start => simp only [closes, hx, reduceCtorEq] at hi
  | retry => simp only [closes, hx, reduceCtorEq] at hi
  | exchangeAgain h => simp only [closes, hx, reduceCtorEq] at hi
  | finished => simp only [closes, hx, reduceCtorEq] at hi

/-- **A shared connection under its users**: in a run in which no execution closed a
    connection with more than one stream lease, the next step leaves the connections of
    the others alone, and acts on the connection of its own, exactly if it closes none
    either. -/
theorem sharedConnections_undisturbed (h : w.Reached) (e : ℕ) (s : ExecutionStep) :
    w.Undisturbed e s ↔ w.ClosesAlone e s := by
  have hw := h.invariant
  refine ⟨closesAlone_of_undisturbed hw, fun hc => ⟨fun j hj e' x' hne hx' => ?_, ?_⟩⟩
  · by_contra hheld
    rw [Bool.not_eq_false] at hheld
    rcases step_cases hw hc with ⟨hsame, htakes⟩ | ⟨x, phase, pool, hx, hstep, hk⟩
    · unfold Detaches at hj
      rw [hsame, htakes] at hj
      have hsame := hw.pool.sameConnection (holders_pos hx' hheld) rfl
      exact not_detached_of_same hsame hj
    · unfold Detaches at hj
      rw [hstep] at hj
      exact hk.others j ⟨e', x', hne, hx', hheld⟩ hj
  · intro x g hx hg
    exact hw.own x (List.mem_of_getElem? hx) g hg

/-- Two requests for one server, in an empty pool. -/
def twoRequests : SessionWorld :=
  let request : PooledRequest := ⟨{ alpn := text "h2" }, .reuseOrCreate, .get⟩
  ⟨emptyPool, [request, request].map fun request => ⟨request, .start⟩, fun _ => 0⟩

/-- The first one has set up and promoted a connection, and the second one shares it. -/
def sharedSession : SessionWorld :=
  (((twoRequests.step 0 (.acquire 1)).step 0
    (.configure (text "h2") ⟨true, true, true, true, true⟩ false)).step 0 (.promote 100)).step 1
    (.acquire 2)

theorem sharedSession_reached : sharedSession.Reached := by
  have h₀ : twoRequests.Reached :=
    .initial [_, _] (show initializePool 2 2 0 = .ok emptyPool from rfl)
  have h₁ := h₀.step 0 (.acquire 1) nofun
  have h₂ := h₁.step 0 (.configure (text "h2") ⟨true, true, true, true, true⟩ false) nofun
  have h₃ := h₂.step 0 (.promote 100) nofun
  exact h₃.step 1 (.acquire 2) nofun

theorem sharedConnections_undisturbed_shared :
    sharedSession.holders 0 = 2 ∧
      ∀ e s, sharedSession.Undisturbed e s ↔ sharedSession.ClosesAlone e s :=
  ⟨by decide +kernel, sharedConnections_undisturbed sharedSession_reached⟩

/-- The exchange of the second request ends in a timeout: it closes the connection that the
    first one uses, and takes the entry for a new one; the first one then releases that. -/
theorem retry_destroys_shared :
    ¬ sharedSession.Undisturbed 1 (.finish statusIoTimeout false 3) ∧
      ¬ ((sharedSession.step 1 (.finish statusIoTimeout false 3)).step 1 (.acquire 4)).Undisturbed 0
        (.finish statusConnectionReset false 5) := by
  constructor
  · intro h
    have hd : sharedSession.Detaches 1 (.finish statusIoTimeout false 3) 0 := by
      unfold Detaches
      decide +kernel
    have hfree := h.lastHolder 0 hd 0 _ (by decide) rfl
    revert hfree
    decide +kernel
  · intro h
    have hown := h.ownAcquisition _ ⟨0, 0⟩ rfl (by decide +kernel)
    revert hown
    decide +kernel

end SessionWorld

end KernelHttp.Engine
