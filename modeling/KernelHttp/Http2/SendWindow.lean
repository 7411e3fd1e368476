/-
  The send windows (RFC 9113 Section 5.2).

  A frame of SETTINGS that is refused may still change the initial window size in place.
-/
import KernelHttp.Http2.Runs

namespace KernelHttp.Http2

/-! ## Credit -/

def Http2Frame.dataLength (f : Http2Frame) : ℕ := if f.type = .data then f.payload.length else 0

def Http2Frame.dataFor (streamId : ℕ) (f : Http2Frame) : ℕ :=
  if f.streamId = streamId then f.dataLength else 0

/-- What a call of `Send` hands to the transport, as a count of its frames. -/
def Http2Event.handed (count : Http2Frame → ℕ) : Http2Event → ℕ
  | .sent frames _ => (frames.map count).sum
  | .received _ _ _ => 0

/-- What was handed to the transport. -/
def dataSent (count : Http2Frame → ℕ) (events : List Http2Event) : ℕ :=
  (events.map (Http2Event.handed count)).sum

def Http2Frame.increment (streamId : ℕ) (f : Http2Frame) : ℕ :=
  if f.type = .windowUpdate ∧ f.streamId = streamId then
    match decodeWindowUpdatePayload f.payload with
    | .ok increment => increment
    | .error _ => 0
  else 0

def Http2Event.granted (streamId : ℕ) : Http2Event → ℕ
  | .received f _ _ => f.increment streamId
  | .sent _ _ => 0

def increments (streamId : ℕ) (events : List Http2Event) : ℕ :=
  (events.map (Http2Event.granted streamId)).sum

/-- SETTINGS that carry values. -/
def Http2Frame.isSettings (f : Http2Frame) : Bool :=
  f.type == .settings && !f.ack && f.streamId == 0

/-- The last SETTINGS_INITIAL_WINDOW_SIZE of a payload. -/
def settingsWindow (settings : List (ℕ × ℕ)) (window : ℕ) : ℕ :=
  settings.foldl (fun window s => if s.1 = 4 then s.2 else window) window

def Http2Event.window (window : ℕ) : Http2Event → ℕ
  | .received f _ _ =>
    if f.isSettings then settingsWindow (settingsOf f.payload) window else window
  | .sent _ _ => window

/-- The initial window size the peer has set last. -/
def initialWindow (events : List Http2Event) : ℕ :=
  events.foldl Http2Event.window http2InitialWindowSize

/-- Every call of `Send` keeps the DATA within the credit: of each stream it has
    octets of, and of the connection. -/
def WithinCredit (events : List Http2Event) : Prop :=
  ∀ before frames status after, events = before ++ .sent frames status :: after →
    (∀ streamId, 0 < (frames.map (Http2Frame.dataFor streamId)).sum →
      dataSent (Http2Frame.dataFor streamId) (before ++ [.sent frames status]) ≤
        initialWindow before + increments streamId before) ∧
    dataSent Http2Frame.dataLength (before ++ [.sent frames status]) ≤
      http2InitialWindowSize + increments 0 before

/-- The send windows are `LONG` values, that of the connection is not negative. -/
def WindowsInRange (c : Http2Connection) : Prop :=
  (0 ≤ c.connectionSendWindow ∧ c.connectionSendWindow ≤ http2MaxWindowSize) ∧
    ∀ i, -(http2MaxWindowSize : ℤ) ≤ (c.slot i).stream.remoteWindow ∧
      (c.slot i).stream.remoteWindow ≤ http2MaxWindowSize

/-! ## SETTINGS that are refused -/

/-- The reader passes SETTINGS on. -/
def Http2Reader.admits (reader : Http2Reader) (c : Http2Connection) (f : Http2Frame) : Bool :=
  match reader with
  | .dispatch => !breaksContinuation c f
  | .single a => !breaksSingleContinuation a.responseState f
  | .tunnel _ _ _ => true

/-- The change of the initial window size. -/
def windowDelta (c : Http2Connection) (f : Http2Frame) : ℤ :=
  ((decodeSettingsPayload f.payload c.peerSettings).2.initialWindowSize : ℤ) -
    c.peerSettings.initialWindowSize

/-- The checks on SETTINGS in `HandleConnectionFrame`. -/
def settingsAccepted (c : Http2Connection) (f : Http2Frame) : Bool :=
  c.connectionControlSignals < maxConnectionControlSignals &&
    f.payload.length % 6 == 0 &&
    ntSuccess (decodeSettingsPayload f.payload c.peerSettings).1 &&
    (decodeSettingsPayload f.payload c.peerSettings).2.enablePush == 0 &&
    ntSuccess (c.adjustActiveStreamRemoteWindows (windowDelta c f)).1

/-- SETTINGS are accepted, or name no other initial window size than the current
    one. -/
def Http2Event.KeepsInitialWindow : Http2Event → Prop
  | .received f reader c => f.isSettings = true →
      (∀ s ∈ settingsOf f.payload, s.1 = 4 → s.2 = c.peerSettings.initialWindowSize) ∨
        (reader.admits c f = true ∧ settingsAccepted c f = true)
  | .sent _ _ => True

instance : ∀ e : Http2Event, Decidable e.KeepsInitialWindow
  | .received f reader c => inferInstanceAs (Decidable (f.isSettings = true →
      (∀ s ∈ settingsOf f.payload, s.1 = 4 → s.2 = c.peerSettings.initialWindowSize) ∨
        (reader.admits c f = true ∧ settingsAccepted c f = true)))
  | .sent _ _ => inferInstanceAs (Decidable True)

/-- A stream id is left for `BeginRequest`, as `IsReusable` tests it. -/
def IdsLeft (c : Http2Connection) : Prop := c.nextStreamId ≤ 0x7ffffffd

instance : DecidablePred IdsLeft := fun c => inferInstanceAs (Decidable (c.nextStreamId ≤ _))

/-! ## What SETTINGS change -/

variable {a a' : Http2ActiveStream} {c : Http2Connection} {f : Http2Frame}
    {settings settings' : Http2Settings} {w w' : Http2World} {t : Touch} {delta : ℤ}

theorem decodeSetting_window {id value : ℕ} (h : decodeSetting settings id value = .ok settings') :
    settings'.initialWindowSize = (if id = 4 then value else settings.initialWindowSize) ∧
      (settings.initialWindowSize ≤ http2MaxWindowSize →
        settings'.initialWindowSize ≤ http2MaxWindowSize) := by
  unfold decodeSetting at h
  split at h
  · cases h
    simp
  · split at h
    · cases h
    · cases h
      simp
  · cases h
    simp
  · split at h
    · cases h
    · cases h
      simp_all
  · split at h
    · cases h
    · cases h
      simp
  · cases h
    simp
  · split at h
    · cases h
    · cases h
      simp
  · cases h
    simp_all

theorem decodeSettingsLoop_window : ∀ {l : List (ℕ × ℕ)} {settings settings' : Http2Settings}
    {status : NTSTATUS}, decodeSettingsLoop l settings = (status, settings') →
      (settings.initialWindowSize ≤ http2MaxWindowSize →
        settings'.initialWindowSize ≤ http2MaxWindowSize) ∧
      (ntSuccess status = true →
        settings'.initialWindowSize = settingsWindow l settings.initialWindowSize) ∧
      ((∀ s ∈ l, s.1 = 4 → s.2 = settings.initialWindowSize) →
        settings'.initialWindowSize = settings.initialWindowSize)
  | [], settings, settings', status, h => by
    simp only [decodeSettingsLoop, Prod.mk.injEq] at h
    obtain ⟨-, rfl⟩ := h
    exact ⟨fun h => h, fun _ => rfl, fun _ => rfl⟩
  | (id, value) :: l, settings, settings', status, h => by
    unfold decodeSettingsLoop at h
    cases hd : decodeSetting settings id value with
    | error status' =>
      rw [hd] at h
      simp only [Prod.mk.injEq] at h
      obtain ⟨rfl, rfl⟩ := h
      refine ⟨fun h => h, fun hs => ?_, fun _ => rfl⟩
      have hfail : ntSuccess status' = false := by
        unfold decodeSetting at hd
        repeat' split at hd
        all_goals first | (cases hd; rfl) | cases hd
      rw [hfail] at hs
      cases hs
    | ok s =>
      rw [hd] at h
      obtain ⟨hw, hmax⟩ := decodeSetting_window hd
      obtain ⟨ih1, ih2, ih3⟩ := decodeSettingsLoop_window h
      refine ⟨fun hle => ih1 (hmax hle), fun hs => ?_, fun hkeep => ?_⟩
      · rw [ih2 hs, hw]
        rfl
      · have hhead : s.initialWindowSize = settings.initialWindowSize := by
          rw [hw]
          split
          · next hid => exact hkeep (id, value) (List.mem_cons_self ..) hid
          · rfl
        rw [ih3 ?_, hhead]
        intro p hp hid
        rw [hhead]
        exact hkeep p (List.mem_cons_of_mem _ hp) hid

theorem decodeSettingsPayload_window {payload : Bytes}
    {status : NTSTATUS} (h : decodeSettingsPayload payload settings = (status, settings')) :
    (settings.initialWindowSize ≤ http2MaxWindowSize →
      settings'.initialWindowSize ≤ http2MaxWindowSize) ∧
    (ntSuccess status = true →
      settings'.initialWindowSize = settingsWindow (settingsOf payload) settings.initialWindowSize) ∧
    ((∀ s ∈ settingsOf payload, s.1 = 4 → s.2 = settings.initialWindowSize) →
      settings'.initialWindowSize = settings.initialWindowSize) := by
  unfold decodeSettingsPayload at h
  split at h
  · simp only [Prod.mk.injEq] at h
    obtain ⟨rfl, rfl⟩ := h
    refine ⟨fun h => h, fun hs => ?_, fun _ => rfl⟩
    cases hs
  · exact decodeSettingsLoop_window h

/-- A stream whose window is shifted within its range. -/
def Shifted (delta : ℤ) (a a' : Http2ActiveStream) : Prop :=
  a'.inUse = a.inUse ∧ a'.stream.streamId = a.stream.streamId ∧
    a'.stream.remoteWindow = a.stream.remoteWindow + (if a.inUse then delta else 0) ∧
    (a.inUse = true → -(http2MaxWindowSize : ℤ) ≤ a'.stream.remoteWindow ∧
      a'.stream.remoteWindow ≤ http2MaxWindowSize)

theorem adjustLoop_shifted {delta : ℤ} : ∀ {l l' : List Http2ActiveStream} {status : NTSTATUS},
    Http2Connection.adjustLoop delta l = (status, l') → ntSuccess status = true →
      List.Forall₂ (Shifted delta) l l'
  | [], l', status, h, _ => by
    simp only [Http2Connection.adjustLoop, Prod.mk.injEq] at h
    rw [← h.2]
    exact .nil
  | a :: l, l', status, h, hs => by
    unfold Http2Connection.adjustLoop at h
    by_cases hu : a.inUse = true
    · rw [if_neg (not_not.2 hu)] at h
      simp only at h
      by_cases hr : ntSuccess (a.stream.adjustRemoteWindow delta).1 = true
      · obtain ⟨heq, hlo, hhi⟩ := Http2Stream.adjustRemoteWindow_success _ hr
        rw [if_neg (not_not.2 hr)] at h
        simp only [Prod.mk.injEq] at h
        obtain ⟨rfl, rfl⟩ := h
        rw [heq]
        exact .cons ⟨rfl, rfl, by simp [hu], fun _ => ⟨hlo, hhi⟩⟩ (adjustLoop_shifted rfl hs)
      · rw [if_pos hr] at h
        rw [← (Prod.mk.inj h).1] at hs
        exact absurd hs hr
    · rw [if_pos hu] at h
      simp only [Prod.mk.injEq] at h
      obtain ⟨rfl, rfl⟩ := h
      exact .cons ⟨rfl, rfl, by simp [hu], fun h => absurd h hu⟩ (adjustLoop_shifted rfl hs)

/-! ## What a frame does to the send side -/

def frameWindow (f : Http2Frame) (window : ℕ) : ℕ :=
  if f.isSettings then settingsWindow (settingsOf f.payload) window else window

/-- A window within the range of `LONG`. -/
def InRange (window : ℤ) : Prop :=
  -(http2MaxWindowSize : ℤ) ≤ window ∧ window ≤ http2MaxWindowSize

/-- What a frame does to a slot: the window grows by the change of the initial
    window size and the increment of the frame, at most. -/
structure SendSlot (f : Http2Frame) (delta : ℤ) (a a' : Http2ActiveStream) : Prop where
  inUse : a'.inUse = a.inUse
  streamId : a'.inUse = true →
    a'.stream.streamId = a.stream.streamId ∨ a'.stream.streamId = 0
  window : a'.inUse = true → a'.stream.streamId ≠ 0 →
    a'.stream.remoteWindow ≤ a.stream.remoteWindow + delta + f.increment a'.stream.streamId
  range : InRange a.stream.remoteWindow → InRange a'.stream.remoteWindow

/-- What a frame does to the send side of a connection. -/
structure SendEffect (w w' : Http2World) (f : Http2Frame) : Prop where
  sendBuffer : w'.conn.sendBuffer = w.conn.sendBuffer
  nextStreamId : w'.conn.nextStreamId = w.conn.nextStreamId
  initial : w'.conn.peerSettings.initialWindowSize =
    frameWindow f w.conn.peerSettings.initialWindowSize
  initialMax : w.conn.peerSettings.initialWindowSize ≤ http2MaxWindowSize →
    w'.conn.peerSettings.initialWindowSize ≤ http2MaxWindowSize
  window : w'.conn.connectionSendWindow = w.conn.connectionSendWindow ∨
    (w'.conn.connectionSendWindow = w.conn.connectionSendWindow + f.increment 0 ∧
      w'.conn.connectionSendWindow ≤ http2MaxWindowSize)
  length : w'.conn.activeStreams.length = w.conn.activeStreams.length
  slots : ∀ i, SendSlot f ((frameWindow f w.conn.peerSettings.initialWindowSize : ℤ) -
    w.conn.peerSettings.initialWindowSize) (w.conn.slot i) (w'.conn.slot i)

theorem SendSlot.same (f : Http2Frame) (a : Http2ActiveStream) : SendSlot f 0 a a :=
  ⟨rfl, fun _ => .inl rfl, fun _ _ => by omega, fun h => h⟩

theorem SendSlot.shifted (h : Shifted delta a a') : SendSlot f delta a a' := by
  obtain ⟨hu, hid, hw, hr⟩ := h
  refine ⟨hu, fun _ => .inl hid, fun hu' _ => ?_, fun hrange => ?_⟩
  · rw [hw, if_pos (hu.symm.trans hu')]
    omega
  · by_cases hin : a.inUse = true
    · exact hr hin
    · unfold InRange
      rw [hw, if_neg hin, Int.add_zero]
      exact hrange

theorem increment_of_decode {n : ℕ} (hf : f.type = .windowUpdate)
    (hd : decodeWindowUpdatePayload f.payload = .ok n) : f.increment f.streamId = n := by
  simp [Http2Frame.increment, hf, hd]

theorem SendSlot.changed (hu : a'.inUse = a.inUse)
    (hid : a.stream.streamId = f.streamId) (h : StreamChange f a a') : SendSlot f 0 a a' := by
  cases h with
  | keep hi hw =>
    refine ⟨hu, fun _ => .inl hi, fun _ _ => by omega, fun h => ?_⟩
    rw [hw]
    exact h
  | credit n hf hd hi hw hle =>
    refine ⟨hu, fun _ => .inl hi, fun _ _ => ?_, fun h => ⟨?_, hle⟩⟩
    · rw [hi, hid, increment_of_decode hf hd, hw]
      omega
    · rw [hw]
      have := h.1
      omega
  | reset hf hd hs hc =>
    refine ⟨hu, fun _ => .inr (by rw [hs]), fun _ h0 => absurd (by rw [hs]) h0, fun _ => ?_⟩
    rw [hs]
    simp [InRange, http2MaxWindowSize, http2InitialWindowSize]

/-- A frame that leaves the send side alone. -/
theorem SendEffect.of_sendSide (hs : w'.conn.sendSide = w.conn.sendSide)
    (hf : frameWindow f w.conn.peerSettings.initialWindowSize =
      w.conn.peerSettings.initialWindowSize)
    (hl : w'.conn.activeStreams.length = w.conn.activeStreams.length)
    (hslots : ∀ i, SendSlot f 0 (w.conn.slot i) (w'.conn.slot i)) : SendEffect w w' f := by
  simp only [Http2Connection.sendSide, Prod.mk.injEq] at hs
  obtain ⟨hb, hp, hw, hn⟩ := hs
  refine ⟨hb, hn, by rw [hp, hf], fun h => by rw [hp]; exact h, .inl hw, hl, fun i => ?_⟩
  rw [hf, Int.sub_self]
  exact hslots i

theorem Quiet.sendEffect (h : Quiet t w w')
    (hf : frameWindow f w.conn.peerSettings.initialWindowSize =
      w.conn.peerSettings.initialWindowSize) : SendEffect w w' f := by
  refine .of_sendSide h.sendSide hf (by rw [h.activeStreams]) fun i => ?_
  rw [h.slot]
  exact .same f _

theorem frameWindow_of_not_settings (h : f.isSettings = false) (window : ℕ) :
    frameWindow f window = window := by
  simp [frameWindow, h]

theorem settingsWindow_of_keep : ∀ {l : List (ℕ × ℕ)} {window : ℕ},
    (∀ s ∈ l, s.1 = 4 → s.2 = window) → settingsWindow l window = window
  | [], _, _ => rfl
  | s :: l, window, h => by
    have hhead : (if s.1 = 4 then s.2 else window) = window := by
      split
      · next h4 => exact h s (List.mem_cons_self ..) h4
      · rfl
    change settingsWindow l (if s.1 = 4 then s.2 else window) = window
    rw [hhead]
    exact settingsWindow_of_keep fun p hp => h p (List.mem_cons_of_mem _ hp)

theorem frameWindow_of_keep {window : ℕ}
    (h : ∀ s ∈ settingsOf f.payload, s.1 = 4 → s.2 = window) : frameWindow f window = window := by
  unfold frameWindow
  split
  · exact settingsWindow_of_keep h
  · rfl

/-- A frame that leaves the windows alone. -/
theorem SendEffect.of_fields (hb : w'.conn.sendBuffer = w.conn.sendBuffer)
    (hn : w'.conn.nextStreamId = w.conn.nextStreamId)
    (hw : w'.conn.connectionSendWindow = w.conn.connectionSendWindow)
    (ha : w'.conn.activeStreams = w.conn.activeStreams)
    (hi : w'.conn.peerSettings.initialWindowSize = w.conn.peerSettings.initialWindowSize)
    (hf : frameWindow f w.conn.peerSettings.initialWindowSize =
      w.conn.peerSettings.initialWindowSize) : SendEffect w w' f := by
  refine ⟨hb, hn, by rw [hi, hf], fun h => by rw [hi]; exact h, .inl hw, by rw [ha], fun i => ?_⟩
  have hslot : w'.conn.slot i = w.conn.slot i := by simp only [Http2Connection.slot, ha]
  rw [hf, Int.sub_self, hslot]
  exact .same f _

/-- The checks on SETTINGS behind the count of control frames. -/
def settingsApplied (c : Http2Connection) (f : Http2Frame) : Prop :=
  f.payload.length % 6 = 0 ∧ ntSuccess (decodeSettingsPayload f.payload c.peerSettings).1 = true ∧
    (decodeSettingsPayload f.payload c.peerSettings).2.enablePush = 0 ∧
    ntSuccess (c.adjustActiveStreamRemoteWindows (windowDelta c f)).1 = true

theorem settingsAccepted_iff :
    settingsAccepted c f = true ↔
      c.connectionControlSignals < maxConnectionControlSignals ∧ settingsApplied c f := by
  simp [settingsAccepted, settingsApplied, and_assoc]

theorem adjustActiveStreamRemoteWindows_shifted
    (h : ntSuccess (c.adjustActiveStreamRemoteWindows delta).1 = true) (f : Http2Frame) :
    (c.adjustActiveStreamRemoteWindows delta).2 =
        { c with activeStreams := (c.adjustActiveStreamRemoteWindows delta).2.activeStreams } ∧
      (c.adjustActiveStreamRemoteWindows delta).2.activeStreams.length = c.activeStreams.length ∧
      ∀ i, SendSlot f delta (c.slot i) ((c.adjustActiveStreamRemoteWindows delta).2.slot i) := by
  unfold Http2Connection.adjustActiveStreamRemoteWindows at h ⊢
  by_cases h0 : delta = 0
  · rw [if_pos h0]
    refine ⟨rfl, rfl, fun i => ?_⟩
    rw [h0]
    exact .same f _
  · rw [if_neg h0] at h ⊢
    have hall := adjustLoop_shifted (Prod.eta (Http2Connection.adjustLoop delta c.activeStreams)).symm h
    refine ⟨rfl, hall.length_eq.symm, fun i => SendSlot.shifted ?_⟩
    by_cases hi : i < c.activeStreams.length
    · have hi' : i < (Http2Connection.adjustLoop delta c.activeStreams).2.length := by
        rw [← hall.length_eq]
        exact hi
      have := hall.get hi hi'
      simpa [Http2Connection.slot, List.getD_eq_getElem?_getD, hi, hi'] using this
    · have hi' : ¬ i < (Http2Connection.adjustLoop delta c.activeStreams).2.length := by
        rw [← hall.length_eq]
        exact hi
      simp [Http2Connection.slot, List.getD_eq_getElem?_getD, hi, hi', Shifted]

theorem sendGoAway_fields (w : Http2World) (e : Http2ErrorCode) :
    (sendGoAway w e).2.conn.sendSide = w.conn.sendSide ∧
      (sendGoAway w e).2.conn.activeStreams = w.conn.activeStreams :=
  ⟨(sendGoAway_quiet (t := .nothing) w e).sendSide,
    (sendGoAway_quiet (t := .nothing) w e).activeStreams⟩

theorem applySettings_sendEffect (hs : f.isSettings = true)
    (hk : (∀ s ∈ settingsOf f.payload, s.1 = 4 → s.2 = w.conn.peerSettings.initialWindowSize) ∨
      settingsApplied w.conn f) : SendEffect w (applySettings w f).2 f := by
  unfold applySettings
  simp only
  by_cases hlen : f.payload.length % 6 = 0
  · rw [if_neg (not_not.2 hlen)]
    have happ : settingsApplied w.conn f → _ := fun h => h.2
    unfold windowDelta at happ
    cases hd : decodeSettingsPayload f.payload w.conn.peerSettings with
    | mk status ps =>
      rw [hd] at happ
      obtain ⟨hmax, hwin, hkeep⟩ := decodeSettingsPayload_window hd
      simp only at happ ⊢
      by_cases hok : ¬ ntSuccess status = true ∨ ps.enablePush ≠ 0
      · rw [if_pos hok]
        rcases hk with hk | hk
        · obtain ⟨hside, hact⟩ := sendGoAway_fields { w with conn := { w.conn with
            peerSettings := ps } } (settingsErrorCodeForPayload f.payload)
          simp only [Http2Connection.sendSide, Prod.mk.injEq] at hside
          refine .of_fields hside.1 hside.2.2.2 hside.2.2.1 hact ?_ (frameWindow_of_keep hk)
          simp only [refuse, hside.2.1]
          exact hkeep hk
        · obtain ⟨h1, h2, -⟩ := happ hk
          rcases hok with hok | hok
          · exact absurd h1 hok
          · exact absurd h2 hok
      · rw [if_neg hok]
        simp only [not_or, not_not] at hok
        set w₂ : Http2World := { w with conn := { w.conn with
          peerSettings := ps, encoder := w.conn.encoder.updateMaxTableSize ps.headerTableSize } }
        have hadj : ntSuccess (w₂.conn.adjustActiveStreamRemoteWindows
            ((ps.initialWindowSize : ℤ) - w.conn.peerSettings.initialWindowSize)).1 = true := by
          rcases hk with hk | hk
          · rw [hkeep hk, Int.sub_self]
            rfl
          · have := (happ hk).2.2
            unfold Http2Connection.adjustActiveStreamRemoteWindows at this ⊢
            split at this <;> rename_i hdelta
            · rw [if_pos hdelta]
              rfl
            · rw [if_neg hdelta]
              exact this
        obtain ⟨hconn, hlength, hslots⟩ := adjustActiveStreamRemoteWindows_shifted hadj f
        rw [if_neg (not_not.2 hadj)]
        have hfw : ps.initialWindowSize = frameWindow f w.conn.peerSettings.initialWindowSize := by
          rw [frameWindow, if_pos hs]
          exact hwin hok.1
        refine ⟨?_, ?_, ?_, ?_, .inl ?_, hlength, fun i => ?_⟩
        · simp only [sendRaw]
          rw [hconn]
        · simp only [sendRaw]
          rw [hconn]
        · simp only [sendRaw]
          rw [hconn]
          exact hfw
        · intro hle
          simp only [sendRaw]
          rw [hconn]
          exact hmax hle
        · simp only [sendRaw]
          rw [hconn]
        · rw [← hfw]
          exact hslots i
  · rw [if_pos hlen]
    rcases hk with hk | hk
    · exact (sendGoAway_quiet (t := .nothing) w _).sendEffect (frameWindow_of_keep hk)
    · exact absurd hk.1 hlen

/-- SETTINGS are accepted, or name no other initial window size. -/
def KeepsSettings (c : Http2Connection) (f : Http2Frame) : Prop :=
  f.isSettings = true →
    (∀ s ∈ settingsOf f.payload, s.1 = 4 → s.2 = c.peerSettings.initialWindowSize) ∨
      settingsAccepted c f = true

theorem frameWindow_of_type (h : f.type ≠ .settings) (window : ℕ) :
    frameWindow f window = window :=
  frameWindow_of_not_settings (by simp [Http2Frame.isSettings, h]) window

theorem refuse_sendEffect (e : Http2ErrorCode) (status : NTSTATUS)
    (hf : frameWindow f w.conn.peerSettings.initialWindowSize =
      w.conn.peerSettings.initialWindowSize) : SendEffect w (refuse w e status).2 f :=
  (sendGoAway_quiet (t := .nothing) w e).sendEffect hf

theorem handleSettings_sendEffect (hf : f.type = .settings) (h0 : f.streamId = 0)
    (hk : f.isSettings = true →
      (∀ s ∈ settingsOf f.payload, s.1 = 4 → s.2 = w.conn.peerSettings.initialWindowSize) ∨
        settingsApplied w.conn f) : SendEffect w (handleSettings w f).2 f := by
  unfold handleSettings
  by_cases hack : f.ack = true
  · have hfw := frameWindow_of_not_settings (f := f) (by simp [Http2Frame.isSettings, hack])
      w.conn.peerSettings.initialWindowSize
    rw [if_pos hack]
    split
    · exact refuse_sendEffect _ _ hfw
    · exact .of_fields rfl rfl rfl rfl rfl hfw
  · rw [if_neg hack]
    have hs : f.isSettings = true := by simp [Http2Frame.isSettings, hf, hack, h0]
    exact applySettings_sendEffect hs (hk hs)

theorem handleWindowUpdate_sendEffect (hf : f.type = .windowUpdate) (h0 : f.streamId = 0) :
    SendEffect w (handleWindowUpdate w f).2 f := by
  have hfw := frameWindow_of_type (f := f) (by rw [hf]; exact nofun)
    w.conn.peerSettings.initialWindowSize
  unfold handleWindowUpdate
  cases hd : decodeWindowUpdatePayload f.payload with
  | error status => exact refuse_sendEffect _ _ hfw
  | ok n =>
    simp only
    have hinc := increment_of_decode hf hd
    rw [h0] at hinc
    split
    · exact refuse_sendEffect _ _ hfw
    · next hle =>
      refine ⟨rfl, rfl, hfw.symm, fun h => h, .inr ⟨by rw [hinc], by simp only; omega⟩, rfl,
        fun i => ?_⟩
      rw [hfw, Int.sub_self]
      exact .same f _

theorem SendEffect.of_connection {w₁ : Http2World} (h : SendEffect w₁ w' f)
    (hs : w₁.conn.sendSide = w.conn.sendSide)
    (ha : w₁.conn.activeStreams = w.conn.activeStreams) : SendEffect w w' f := by
  simp only [Http2Connection.sendSide, Prod.mk.injEq] at hs
  obtain ⟨hb, hp, hw, hn⟩ := hs
  obtain ⟨h1, h2, h3, h4, h5, h6, h7⟩ := h
  have hslot : ∀ i, w₁.conn.slot i = w.conn.slot i := fun i => by
    simp only [Http2Connection.slot, ha]
  rw [hp] at h3 h4
  rw [hw] at h5
  refine ⟨h1.trans hb, h2.trans hn, h3, h4, h5, by rw [h6, ha], fun i => ?_⟩
  have := h7 i
  rw [hp, hslot] at this
  exact this

theorem handleConnectionFrame_sendEffect (s : Option ℕ)
    (h0 : f.streamId = 0) (hk : KeepsSettings w.conn f) :
    SendEffect w (handleConnectionFrame w f s).2 f := by
  unfold handleConnectionFrame
  split
  · next ht =>
    refine refuse_sendEffect _ _ (frameWindow_of_type ?_ _)
    intro hf
    simp [isValidFrameTarget, hf, h0] at ht
  · split
    · next hsig =>
      refine refuse_sendEffect _ _ ?_
      cases hset : f.isSettings with
      | false => exact frameWindow_of_not_settings hset _
      | true =>
        rcases hk hset with hk | hk
        · exact frameWindow_of_keep hk
        · have := (settingsAccepted_iff.1 hk).1
          omega
    · simp only
      set w₁ : Http2World := if isConnectionControlSignal f.type = true then
        { w with conn := { w.conn with
          connectionControlSignals := w.conn.connectionControlSignals + 1 } } else w with hw₁
      have hside : w₁.conn.sendSide = w.conn.sendSide := by
        rw [hw₁]
        split <;> rfl
      have hact : w₁.conn.activeStreams = w.conn.activeStreams := by
        rw [hw₁]
        split <;> rfl
      refine SendEffect.of_connection ?_ hside hact
      have hps : w₁.conn.peerSettings = w.conn.peerSettings := congrArg (·.2.1) hside
      split
      · next hf =>
        refine handleSettings_sendEffect hf h0 fun hset => ?_
        rw [hps]
        refine (hk hset).imp id fun hacc => ?_
        obtain ⟨-, h1, h2, h3, h4⟩ := settingsAccepted_iff.1 hacc
        refine ⟨h1, by rw [hps]; exact h2, by rw [hps]; exact h3, ?_⟩
        unfold windowDelta Http2Connection.adjustActiveStreamRemoteWindows at h4 ⊢
        rw [hps, hact]
        split at h4 <;> rename_i hdelta
        · rw [if_pos hdelta]
          rfl
        · rw [if_neg hdelta]
          exact h4
      · next hf =>
        have hfw := frameWindow_of_type (f := f) (by rw [hf]; exact nofun)
          w₁.conn.peerSettings.initialWindowSize
        unfold handlePing
        split
        · exact refuse_sendEffect _ _ hfw
        · split
          · exact .of_fields rfl rfl rfl rfl rfl hfw
          · exact .of_fields rfl rfl rfl rfl rfl hfw
      · next hf =>
        have hfw := frameWindow_of_type (f := f) (by rw [hf]; exact nofun)
          w₁.conn.peerSettings.initialWindowSize
        unfold handleGoAway
        split
        · exact .of_fields rfl rfl rfl rfl rfl hfw
        · simp only
          split
          · exact .of_fields rfl rfl rfl rfl rfl hfw
          · split <;> exact .of_fields rfl rfl rfl rfl rfl hfw
      · next hf => exact handleWindowUpdate_sendEffect hf h0
      all_goals
        first
        | (refine refuse_sendEffect _ _ (frameWindow_of_type ?_ _)
           simp_all)
        | (refine .of_fields rfl rfl rfl rfl rfl (frameWindow_of_type ?_ _)
           simp_all)

theorem slotStep_sendEffect {i : ℕ} (h : SlotStep t w w' i a) (hi : SlotAt w.conn i f.streamId)
    (hu : a.inUse = true) (hc : StreamChange f (w.conn.slot i) a)
    (hfw : frameWindow f w.conn.peerSettings.initialWindowSize =
      w.conn.peerSettings.initialWindowSize) : SendEffect w w' f := by
  refine .of_sendSide h.sendSide hfw h.length fun j => ?_
  by_cases hij : j = i
  · subst hij
    rw [h.slot_self hi.1]
    exact .changed (hu.trans hi.2.1.symm) hi.2.2 hc
  · rw [h.slot_ne hij]
    exact .same f _

theorem Http2Reader.handle_sendEffect (reader : Http2Reader) (f : Http2Frame)
    (hv : reader.Valid w.conn)
    (hk : Http2Event.KeepsInitialWindow (.received f reader w.conn)) :
    SendEffect w (reader.handle w f) f := by
  cases hset : f.isSettings with
  | true =>
    have hset' := hset
    simp only [Http2Frame.isSettings, Bool.and_eq_true, beq_iff_eq, Bool.not_eq_true'] at hset'
    obtain ⟨⟨hf, -⟩, h0⟩ := hset'
    have ht : isValidFrameTarget f = true := by simp [isValidFrameTarget, hf, h0]
    have hkeeps : reader.admits w.conn f = true → KeepsSettings w.conn f :=
      fun _ hs => (hk hs).imp id (·.2)
    have hrefused : ∀ e status, reader.admits w.conn f = false →
        SendEffect w (refuse w e status).2 f := by
      intro e status hno
      refine refuse_sendEffect _ _ ?_
      rcases hk hset with hk | hk
      · exact frameWindow_of_keep hk
      · rw [hno] at hk
        cases hk.1
    cases reader with
    | dispatch =>
      unfold Http2Reader.handle dispatchFrame
      cases hb : breaksContinuation w.conn f with
      | true =>
        simp only [ht, not_true_eq_false, or_true, if_true]
        exact hrefused _ _ (by simp [Http2Reader.admits, hb])
      | false =>
        simp only [ht, h0, not_true_eq_false, Bool.false_eq_true, or_self, if_false, if_true]
        exact handleConnectionFrame_sendEffect none h0 (hkeeps (by simp [Http2Reader.admits, hb]))
    | single a =>
      unfold Http2Reader.handle singleFrame
      cases hb : breaksSingleContinuation a.responseState f with
      | true =>
        simp only [ht, hb, not_true_eq_false, or_true, if_true]
        exact hrefused .protocolError statusInvalidNetworkResponse
          (by simp [Http2Reader.admits, hb])
      | false =>
        simp only [ht, hb, h0, not_true_eq_false, Bool.false_eq_true, or_self, if_false, if_true]
        exact handleConnectionFrame_sendEffect _ h0 (hkeeps (by simp [Http2Reader.admits, hb]))
    | tunnel streamId i capacity =>
      unfold Http2Reader.handle receiveStreamFrame
      simp only [ht, h0, not_true_eq_false, if_false, if_true]
      exact handleConnectionFrame_sendEffect _ h0 (hkeeps rfl)
  | false =>
    have hfw := frameWindow_of_not_settings hset w.conn.peerSettings.initialWindowSize
    have hh := reader.handle_handled f hv
    generalize reader.handle w f = w' at hh
    cases hh with
    | connection s h0 =>
      exact handleConnectionFrame_sendEffect s h0 fun hs => by rw [hset] at hs; cases hs
    | refused e => exact (sendGoAway_quiet (t := .nothing) w e).sendEffect hfw
    | ignored => exact (Quiet.refl (t := .nothing) w).sendEffect hfw
    | ignoredReset streamId e => exact (sendRstStream_quiet (t := .nothing) w streamId e).sendEffect hfw
    | single a => exact (processResponseFrame_quiet w a f).sendEffect hfw
    | slot i hi h0 =>
      obtain ⟨-, hu, hc⟩ := processResponseFrame_change w (w.conn.slot i) f
      exact slotStep_sendEffect (processSlot_slotStep w i f) hi (hu.trans hi.2.1) hc hfw
    | tunnel i capacity hi h0 hf =>
      obtain ⟨s, hs, hid, hw⟩ := tunnelData_slotStep w i capacity f hi.1
      exact slotStep_sendEffect hs hi hi.2.1 (.keep hid hw) hfw

/-! ## What events add -/

def CountsData (count : Http2Frame → ℕ) : Prop := ∀ f : Http2Frame, f.type ≠ .data → count f = 0

theorem countsData_dataLength : CountsData Http2Frame.dataLength := by
  intro f hf
  simp [Http2Frame.dataLength, hf]

theorem countsData_dataFor (streamId : ℕ) : CountsData (Http2Frame.dataFor streamId) := by
  intro f hf
  simp [Http2Frame.dataFor, Http2Frame.dataLength, hf]

section Events

variable {count : Http2Frame → ℕ} {events : List Http2Event} {e : Http2Event}

theorem dataSent_append (count : Http2Frame → ℕ) (events : List Http2Event) (e : Http2Event) :
    dataSent count (events ++ [e]) = dataSent count events + e.handed count := by
  simp [dataSent]

theorem increments_append (streamId : ℕ) (events : List Http2Event) (e : Http2Event) :
    increments streamId (events ++ [e]) = increments streamId events + e.granted streamId := by
  simp [increments]

theorem initialWindow_append (events : List Http2Event) (e : Http2Event) :
    initialWindow (events ++ [e]) = e.window (initialWindow events) := by
  simp [initialWindow]

/-- One more event. -/
theorem WithinCredit.append (h : WithinCredit events)
    (he : ∀ frames status, e = .sent frames status →
      (∀ streamId, 0 < (frames.map (Http2Frame.dataFor streamId)).sum →
        dataSent (Http2Frame.dataFor streamId) (events ++ [e]) ≤
          initialWindow events + increments streamId events) ∧
      dataSent Http2Frame.dataLength (events ++ [e]) ≤
        http2InitialWindowSize + increments 0 events) : WithinCredit (events ++ [e]) := by
  intro before frames status after hsplit
  rcases List.append_eq_append_iff.1 hsplit with ⟨l, hl, hr⟩ | ⟨l, hl, hr⟩
  · -- the call of `Send` is the last event
    cases l with
    | nil =>
      simp only [List.nil_append, List.cons.injEq] at hr
      rw [List.append_nil] at hl
      rw [hl, ← hr.1]
      exact he frames status hr.1
    | cons x l =>
      simp only [List.cons_append, List.cons.injEq, List.nil_eq, List.append_eq_nil_iff,
        reduceCtorEq, and_false] at hr
  · cases l with
    | nil =>
      simp only [List.nil_append, List.cons.injEq] at hr
      rw [List.append_nil] at hl
      rw [← hl, hr.1]
      exact he frames status hr.1.symm
    | cons x l =>
      simp only [List.cons_append, List.cons.injEq] at hr
      obtain ⟨rfl, -⟩ := hr
      exact h before frames status l hl

theorem WithinCredit.stream_le (h : WithinCredit events) (streamId : ℕ) {n : ℕ}
    (hn : n < events.length) (hpos : 0 < events[n].handed (Http2Frame.dataFor streamId)) :
    dataSent (Http2Frame.dataFor streamId) (events.take (n + 1)) ≤
      initialWindow (events.take n) + increments streamId (events.take n) := by
  have hsplit : events = events.take n ++ events[n] :: events.drop (n + 1) := by
    rw [← List.drop_eq_getElem_cons hn, List.take_append_drop]
  rw [List.take_add_one, List.getElem?_eq_getElem hn]
  cases he : events[n] with
  | received f reader c =>
    rw [he] at hpos
    exact absurd hpos (lt_irrefl 0)
  | sent frames status =>
    rw [he] at hsplit hpos
    exact (h _ frames status _ hsplit).1 streamId hpos

theorem withinCredit_of_handed
    (h : ∀ count, CountsData count → ∀ e ∈ events, e.handed count = 0) : WithinCredit events := by
  rintro before frames status after rfl
  have hsent : (Http2Event.sent frames status) ∈ before ++ .sent frames status :: after := by simp
  refine ⟨fun streamId hpos => ?_, ?_⟩
  · have : (frames.map (Http2Frame.dataFor streamId)).sum = 0 :=
      h _ (countsData_dataFor streamId) _ hsent
    omega
  · have hzero : dataSent Http2Frame.dataLength (before ++ [.sent frames status]) = 0 := by
      refine List.sum_eq_zero fun n hn => ?_
      obtain ⟨e, he, rfl⟩ := List.mem_map.1 hn
      refine h _ countsData_dataLength e ?_
      simp only [List.mem_append, List.mem_singleton] at he
      rcases he with he | rfl
      · exact List.mem_append_left _ he
      · exact hsent
    omega

end Events

/-! ## The invariant -/

def queuedData (count : Http2Frame → ℕ) (c : Http2Connection) : ℕ := (c.sendBuffer.map count).sum

/-- What was sent, what is queued and the windows make up the credit at most. -/
structure SendInvariant (c : Http2Connection) (events : List Http2Event) : Prop where
  initial : c.peerSettings.initialWindowSize = initialWindow events
  initialMax : c.peerSettings.initialWindowSize ≤ http2MaxWindowSize
  range : WindowsInRange c
  distinct : ∀ i j streamId, streamId ≠ 0 → SlotAt c i streamId → SlotAt c j streamId → i = j
  ids : ∀ i streamId, streamId ≠ 0 → SlotAt c i streamId → streamId < c.nextStreamId
  unused : ∀ streamId, c.nextStreamId ≤ streamId →
    dataSent (Http2Frame.dataFor streamId) events + queuedData (Http2Frame.dataFor streamId) c = 0
  stream : ∀ i streamId, streamId ≠ 0 → SlotAt c i streamId →
    (c.slot i).stream.remoteWindow + dataSent (Http2Frame.dataFor streamId) events +
      queuedData (Http2Frame.dataFor streamId) c ≤
        initialWindow events + increments streamId events
  connection : c.connectionSendWindow + dataSent Http2Frame.dataLength events +
    queuedData Http2Frame.dataLength c ≤ http2InitialWindowSize + increments 0 events
  pending : ∀ streamId, 0 < queuedData (Http2Frame.dataFor streamId) c →
    dataSent (Http2Frame.dataFor streamId) events + queuedData (Http2Frame.dataFor streamId) c ≤
      initialWindow events + increments streamId events
  within : WithinCredit events

namespace SendInvariant

variable {c c' : Http2Connection} {events : List Http2Event}

variable {t : Touch}

/-- Sending control frames changes nothing. -/
theorem control_one (h : SendInvariant c events) {e : Http2Event}
    (he : e.IsControl t) : SendInvariant c (events ++ [e]) := by
  obtain ⟨f, status, rfl, hcontrol, -⟩ := he
  have hf := Http2Frame.type_ne_data hcontrol
  have hsent : ∀ {count : Http2Frame → ℕ}, CountsData count →
      dataSent count (events ++ [.sent [f] status]) = dataSent count events := by
    intro count hc
    simp [dataSent_append, Http2Event.handed, hc f hf]
  have hinc : ∀ streamId, increments streamId (events ++ [.sent [f] status]) =
      increments streamId events := by
    intro streamId
    simp [increments_append, Http2Event.granted]
  have hwin : initialWindow (events ++ [.sent [f] status]) = initialWindow events := by
    simp [initialWindow_append, Http2Event.window]
  refine ⟨?_, h.initialMax, h.range, h.distinct, h.ids, ?_, ?_, ?_, ?_, ?_⟩
  · rw [hwin]
    exact h.initial
  · intro streamId hle
    rw [hsent (countsData_dataFor streamId)]
    exact h.unused streamId hle
  · intro i streamId h0 hi
    rw [hsent (countsData_dataFor streamId), hwin, hinc]
    exact h.stream i streamId h0 hi
  · rw [hsent countsData_dataLength, hinc]
    exact h.connection
  · intro streamId hq
    rw [hsent (countsData_dataFor streamId), hwin, hinc]
    exact h.pending streamId hq
  · refine h.within.append fun frames status' heq => ?_
    simp only [Http2Event.sent.injEq] at heq
    obtain ⟨rfl, rfl⟩ := heq
    refine ⟨fun streamId hpos => ?_, ?_⟩
    · simp [countsData_dataFor streamId f hf] at hpos
    · rw [hsent countsData_dataLength]
      have h1 := h.connection
      have h2 := h.range.1.1
      omega

theorem control (h : SendInvariant c events) : ∀ {E : List Http2Event},
    (∀ e ∈ E, e.IsControl t) → SendInvariant c (events ++ E) := by
  intro E
  induction E using List.reverseRecOn with
  | nil =>
    intro _
    rw [List.append_nil]
    exact h
  | append_singleton E e ih =>
    intro he
    rw [← List.append_assoc]
    refine (ih fun x hx => he x (List.mem_append_left _ hx)).control_one (t := t) ?_
    exact he e (List.mem_append_right _ (List.mem_singleton.2 rfl))

/-- Only what no window rests on changes: the slots keep their ids and windows. -/
theorem of_slots (h : SendInvariant c events) (hs : c'.sendSide = c.sendSide)
    (hslots : ∀ i streamId, SlotAt c' i streamId → SlotAt c i streamId)
    (hwindow : ∀ i, (∃ streamId, SlotAt c' i streamId) →
      (c'.slot i).stream.remoteWindow = (c.slot i).stream.remoteWindow)
    (hrange : ∀ i, InRange (c.slot i).stream.remoteWindow → InRange (c'.slot i).stream.remoteWindow) :
    SendInvariant c' events := by
  simp only [Http2Connection.sendSide, Prod.mk.injEq] at hs
  obtain ⟨hb, hp, hw, hn⟩ := hs
  have hq : ∀ count, queuedData count c' = queuedData count c := by
    intro count
    simp only [queuedData, hb]
  refine ⟨by rw [hp]; exact h.initial, by rw [hp]; exact h.initialMax,
    ⟨by rw [hw]; exact h.range.1, fun i => hrange i (h.range.2 i)⟩, ?_, ?_, ?_, ?_, ?_, ?_, h.within⟩
  · intro i j streamId h0 hi hj
    exact h.distinct i j streamId h0 (hslots _ _ hi) (hslots _ _ hj)
  · intro i streamId h0 hi
    rw [hn]
    exact h.ids i streamId h0 (hslots _ _ hi)
  · intro streamId hle
    rw [hn] at hle
    rw [hq]
    exact h.unused streamId hle
  · intro i streamId h0 hi
    rw [hq, hwindow i ⟨streamId, hi⟩]
    exact h.stream i streamId h0 (hslots _ _ hi)
  · rw [hw, hq]
    exact h.connection
  · intro streamId hpos
    rw [hq] at hpos ⊢
    exact h.pending streamId hpos

theorem of_sendSide (h : SendInvariant c events) (hs : c'.sendSide = c.sendSide)
    (ha : c'.activeStreams = c.activeStreams) : SendInvariant c' events := by
  have hslot : ∀ i, c'.slot i = c.slot i := fun i => by simp only [Http2Connection.slot, ha]
  refine h.of_slots hs (fun i streamId hi => ?_) (fun i _ => by rw [hslot])
    fun i hr => by rw [hslot]; exact hr
  unfold SlotAt at hi ⊢
  rw [ha, hslot] at hi
  exact hi

/-- What is queued is handed to the transport. -/
theorem flush (h : SendInvariant c events) (status : NTSTATUS) :
    SendInvariant { c with sendBuffer := [] } (events ++ [.sent c.sendBuffer status]) := by
  have hsent : ∀ count, dataSent count (events ++ [.sent c.sendBuffer status]) =
      dataSent count events + queuedData count c := fun count => dataSent_append count events _
  have hinc : ∀ streamId, increments streamId (events ++ [.sent c.sendBuffer status]) =
      increments streamId events := by
    intro streamId
    simp [increments_append, Http2Event.granted]
  have hwin : initialWindow (events ++ [.sent c.sendBuffer status]) = initialWindow events := by
    simp [initialWindow_append, Http2Event.window]
  have hq : ∀ count, queuedData count { c with sendBuffer := [] } = 0 := fun _ => rfl
  refine ⟨by rw [hwin]; exact h.initial, h.initialMax, h.range, h.distinct, h.ids, ?_, ?_, ?_, ?_, ?_⟩
  · intro streamId hle
    rw [hsent, hq]
    exact h.unused streamId hle
  · intro i streamId h0 hi
    rw [hsent, hq, hwin, hinc]
    have := h.stream i streamId h0 hi
    push_cast
    exact le_trans (by simp only [add_assoc, add_zero]; exact le_refl _) this
  · rw [hsent, hq, hinc]
    have := h.connection
    push_cast
    exact le_trans (by simp only [add_assoc, add_zero]; exact le_refl _) this
  · intro streamId hpos
    rw [hq] at hpos
    exact absurd hpos (lt_irrefl 0)
  · refine h.within.append fun frames status' heq => ?_
    simp only [Http2Event.sent.injEq] at heq
    obtain ⟨rfl, rfl⟩ := heq
    refine ⟨fun streamId hpos => ?_, ?_⟩
    · rw [hsent]
      exact h.pending streamId hpos
    · rw [hsent]
      have h1 := h.connection
      have h2 := h.range.1.1
      omega

/-- Less is queued. -/
theorem queued (h : SendInvariant c events) {sendBuffer : List Http2Frame}
    (hq : ∀ count, CountsData count →
      (sendBuffer.map count).sum ≤ queuedData count c) :
    SendInvariant { c with sendBuffer } events := by
  have hlen : queuedData Http2Frame.dataLength { c with sendBuffer } ≤
      queuedData Http2Frame.dataLength c := hq _ countsData_dataLength
  have hfor : ∀ streamId, queuedData (Http2Frame.dataFor streamId) { c with sendBuffer } ≤
      queuedData (Http2Frame.dataFor streamId) c := fun streamId => hq _ (countsData_dataFor streamId)
  refine ⟨h.initial, h.initialMax, h.range, h.distinct, h.ids, ?_, ?_, ?_, ?_, h.within⟩
  · intro streamId hle
    have := h.unused streamId hle
    have := hfor streamId
    omega
  · intro i streamId h0 hi
    have h1 : (c.slot i).stream.remoteWindow + _ + _ ≤ _ := h.stream i streamId h0 hi
    have h2 := hfor streamId
    have h3 : (Http2Connection.slot { c with sendBuffer } i).stream.remoteWindow =
        (c.slot i).stream.remoteWindow := rfl
    omega
  · have := h.connection
    show c.connectionSendWindow + _ + _ ≤ _
    omega
  · intro streamId hpos
    have := h.pending streamId (lt_of_lt_of_le hpos (hfor streamId))
    have := hfor streamId
    omega

/-- A frame that was read, with what it does to the send side. -/
theorem received {w w' : Http2World} {f : Http2Frame} (h : SendInvariant w.conn events)
    (hb : w.conn.sendBuffer = []) (reader : Http2Reader) (he : SendEffect w w' f) :
    SendInvariant w'.conn (events ++ [.received f reader w.conn]) := by
  have hsent : ∀ count, dataSent count (events ++ [.received f reader w.conn]) =
      dataSent count events := fun count => dataSent_append count events _
  have hinc : ∀ streamId, increments streamId (events ++ [.received f reader w.conn]) =
      increments streamId events + f.increment streamId := fun streamId =>
    increments_append streamId events _
  have hwin : initialWindow (events ++ [.received f reader w.conn]) =
      frameWindow f (initialWindow events) := initialWindow_append events _
  have hq : ∀ count, queuedData count w'.conn = 0 := by
    intro count
    simp only [queuedData, he.sendBuffer, hb]
    rfl
  have hslot : ∀ i streamId, streamId ≠ 0 → SlotAt w'.conn i streamId →
      SlotAt w.conn i streamId := by
    rintro i streamId h0 ⟨hl, hu, hid⟩
    refine ⟨by rw [← he.length]; exact hl, by rw [← (he.slots i).inUse]; exact hu, ?_⟩
    rcases (he.slots i).streamId hu with h' | h'
    · exact h'.symm.trans hid
    · exact absurd (hid.symm.trans h') h0
  refine ⟨?_, he.initialMax h.initialMax, ⟨?_, fun i => (he.slots i).range (h.range.2 i)⟩,
    ?_, ?_, ?_, ?_, ?_, ?_, ?_⟩
  · rw [he.initial, hwin, h.initial]
  · obtain ⟨h1, h2⟩ := h.range.1
    rcases he.window with hw | ⟨hw, hle⟩
    · rw [hw]
      exact ⟨h1, h2⟩
    · refine ⟨?_, hle⟩
      rw [hw]
      omega
  · intro i j streamId h0 hi hj
    exact h.distinct i j streamId h0 (hslot i streamId h0 hi) (hslot j streamId h0 hj)
  · intro i streamId h0 hi
    rw [he.nextStreamId]
    exact h.ids i streamId h0 (hslot i streamId h0 hi)
  · intro streamId hle
    rw [he.nextStreamId] at hle
    have := h.unused streamId hle
    rw [hsent, hq]
    omega
  · intro i streamId h0 hi
    have h1 := h.stream i streamId h0 (hslot i streamId h0 hi)
    have h2 := (he.slots i).window hi.2.1 (by rw [hi.2.2]; exact h0)
    rw [hi.2.2, h.initial] at h2
    rw [hsent, hq, hwin, hinc]
    push_cast
    omega
  · have h1 := h.connection
    rw [hsent, hq, hinc]
    push_cast
    rcases he.window with hw | ⟨hw, -⟩ <;> rw [hw] <;> omega
  · intro streamId hpos
    rw [hq] at hpos
    exact absurd hpos (lt_irrefl 0)
  · exact h.within.append fun frames status heq => by cases heq

/-- A slot that is given back. -/
theorem release (h : SendInvariant c events) (streamId : ℕ) :
    SendInvariant (c.releaseActiveStream streamId) events := by
  unfold Http2Connection.releaseActiveStream
  cases hfind : c.findActiveStream streamId with
  | none => exact h
  | some i =>
    have hi := (findActiveStream_spec hfind).1.1
    have hne : ∀ j s, SlotAt (c.setSlot i {}) j s → j ≠ i := by
      rintro j s ⟨-, hu, -⟩ rfl
      rw [slot_setSlot_self hi] at hu
      cases hu
    refine h.of_slots rfl ?_ ?_ ?_
    · intro j s hj
      have hji := hne j s hj
      unfold SlotAt at hj ⊢
      simp only at hj
      rw [length_setSlot, slot_setSlot_ne hji] at hj
      exact hj
    · rintro j ⟨s, hj⟩
      rw [slot_setSlot_ne (hne j s hj)]
    · intro j hr
      by_cases hji : j = i
      · subst hji
        rw [slot_setSlot_self hi]
        simp [InRange, http2MaxWindowSize, http2InitialWindowSize]
      · rw [slot_setSlot_ne hji]
        exact hr

/-- A slot that changes neither its id nor its window. -/
theorem setSlot (h : SendInvariant c events) (i : ℕ) {a : Http2ActiveStream}
    (hu : a.inUse = (c.slot i).inUse) (hid : a.stream.streamId = (c.slot i).stream.streamId)
    (hw : a.stream.remoteWindow = (c.slot i).stream.remoteWindow) :
    SendInvariant (c.setSlot i a) events := by
  have hslot : ∀ j, ((c.setSlot i a).slot j).inUse = (c.slot j).inUse ∧
      ((c.setSlot i a).slot j).stream.streamId = (c.slot j).stream.streamId ∧
      ((c.setSlot i a).slot j).stream.remoteWindow = (c.slot j).stream.remoteWindow := by
    intro j
    by_cases hj : j = i
    · subst hj
      by_cases hl : j < c.activeStreams.length
      · rw [slot_setSlot_self hl]
        exact ⟨hu, hid, hw⟩
      · have hset : c.setSlot j a = c := by
          simp only [Http2Connection.setSlot, List.set_eq_of_length_le (not_lt.1 hl)]
        rw [hset]
        exact ⟨rfl, rfl, rfl⟩
    · rw [slot_setSlot_ne hj]
      exact ⟨rfl, rfl, rfl⟩
  refine h.of_slots rfl ?_ (fun j _ => (hslot j).2.2) ?_
  · intro j s hj
    unfold SlotAt at hj ⊢
    rw [length_setSlot, (hslot j).1, (hslot j).2.1] at hj
    exact hj
  · intro j hr
    rw [(hslot j).2.2]
    exact hr

/-- A stream that is opened takes an id that no DATA was sent for. -/
theorem openStream (h : SendInvariant c events) {i : ℕ} (hi : c.reserveActiveStream = some i)
    (hleft : IdsLeft c) (r : Http2Request) (t : Bool) :
    SendInvariant (Http2.openStream c i r t) events := by
  obtain ⟨hl, -⟩ := reserveActiveStream_spec hi
  have hnext : (Http2.openStream c i r t).nextStreamId = c.nextStreamId + 2 := by
    unfold IdsLeft at hleft
    show (c.nextStreamId + 2) % 2 ^ 32 = c.nextStreamId + 2
    omega
  have hself := openStream_slotAt r t hl
  have hwindow : ((Http2.openStream c i r t).slot i).stream.remoteWindow =
      c.peerSettings.initialWindowSize := by
    unfold Http2.openStream
    rw [slot_setSlot_self (by exact hl)]
    rfl
  have hother : ∀ j, j ≠ i → (Http2.openStream c i r t).slot j = c.slot j := by
    intro j hj
    unfold Http2.openStream
    rw [slot_setSlot_ne hj]
    rfl
  have hold : ∀ j s, j ≠ i → SlotAt (Http2.openStream c i r t) j s → SlotAt c j s := by
    intro j s hj hs
    unfold SlotAt at hs ⊢
    rw [hother j hj, show (Http2.openStream c i r t).activeStreams.length = c.activeStreams.length
      from length_setSlot] at hs
    exact hs
  have hnew : ∀ s, SlotAt (Http2.openStream c i r t) i s → s = c.nextStreamId :=
    fun s hs => hs.2.2.symm.trans hself.2.2
  refine ⟨h.initial, h.initialMax, ⟨h.range.1, fun j => ?_⟩, ?_, ?_, ?_, ?_, h.connection,
    h.pending, h.within⟩
  · by_cases hj : j = i
    · rw [hj, hwindow]
      have := h.initialMax
      constructor <;> omega
    · rw [hother j hj]
      exact h.range.2 j
  · intro j k s h0 hj hk
    by_cases hji : j = i
    · by_cases hki : k = i
      · rw [hji, hki]
      · rw [hji] at hj
        have := h.ids k s h0 (hold k s hki hk)
        have := hnew s hj
        omega
    · by_cases hki : k = i
      · rw [hki] at hk
        have := h.ids j s h0 (hold j s hji hj)
        have := hnew s hk
        omega
      · exact h.distinct j k s h0 (hold j s hji hj) (hold k s hki hk)
  · intro j s h0 hj
    rw [hnext]
    by_cases hji : j = i
    · rw [hji] at hj
      have := hnew s hj
      omega
    · have := h.ids j s h0 (hold j s hji hj)
      omega
  · intro s hle
    rw [hnext] at hle
    exact h.unused s (by omega)
  · intro j s h0 hj
    by_cases hji : j = i
    · rw [hji] at hj
      have hs := hnew s hj
      have hzero : dataSent (Http2Frame.dataFor s) events +
          queuedData (Http2Frame.dataFor s) (Http2.openStream c i r t) = 0 :=
        h.unused s (by omega)
      have hinit := h.initial
      rw [hji, hwindow]
      omega
    · rw [hother j hji]
      exact h.stream j s h0 (hold j s hji hj)

/-- A chunk is taken from the windows, which have room for it. -/
theorem debit {w w' : Http2World} (h : SendInvariant w.conn events) {i streamId : ℕ} {chunk : Bytes}
    {last : Bool} (hslot : SlotAt w.conn i streamId)
    (hle : (chunk.length : ℤ) ≤ availableWindow w.conn (w.conn.slot i).stream)
    (hd : debitData w i streamId chunk last = (statusSuccess, w')) :
    SendInvariant w'.conn events := by
  obtain ⟨g, stream, hg, hsend, rfl⟩ := debitData_eq hd
  have hs : ntSuccess ((w.conn.slot i).stream.sendData chunk.length last).1 = true := by
    rw [hsend]
    rfl
  obtain ⟨-, -, hrw⟩ := Http2Stream.sendData_success _ hs
  have hid : stream.streamId = streamId := by
    have := (w.conn.slot i).stream.sendData_streamId chunk.length last
    rw [hsend] at this
    exact this.trans hslot.2.2
  rw [hsend] at hrw
  simp only at hrw
  obtain ⟨h0, hgf⟩ : streamId ≠ 0 ∧ g = { type := .data, streamId, payload := chunk, flags := if last then 0x01 else 0 } := by
    unfold encodeData at hg
    split at hg
    · cases hg
    · next h0 => exact ⟨h0, (encodeFrame_eq hg).1⟩
  -- both windows have room for the chunk
  have hroom : (chunk.length : ℤ) ≤ w.conn.connectionSendWindow ∧
      (chunk.length : ℤ) ≤ (w.conn.slot i).stream.remoteWindow := by
    unfold availableWindow at hle
    split at hle <;> constructor <;> omega
  set c' : Http2Connection := { (queueFrame (setStream w i stream) g).conn with
    connectionSendWindow := w.conn.connectionSendWindow - chunk.length } with hc'
  have hself : c'.slot i = { w.conn.slot i with stream } := slot_setSlot_self hslot.1
  have hother : ∀ j, j ≠ i → c'.slot j = w.conn.slot j := fun j hj => slot_setSlot_ne hj
  have hat : ∀ j s, SlotAt c' j s → SlotAt w.conn j s := by
    rintro j s ⟨hl, hu, hs⟩
    refine ⟨by simpa [hc', queueFrame, setStream] using hl, ?_⟩
    by_cases hj : j = i
    · subst hj
      rw [hself] at hu hs
      exact ⟨hu, hslot.2.2.trans (hid.symm.trans hs)⟩
    · rw [hother j hj] at hu hs
      exact ⟨hu, hs⟩
  have hq : ∀ count, queuedData count c' = queuedData count w.conn + count g := by
    intro count
    simp [queuedData, hc', queueFrame, setStream, Http2Connection.setSlot]
  have hlen : g.dataLength = chunk.length := by simp [hgf, Http2Frame.dataLength]
  have hfor : ∀ s, g.dataFor s = if s = streamId then chunk.length else 0 := by
    intro s
    unfold Http2Frame.dataFor
    rw [hlen, hgf]
    simp [eq_comm]
  refine ⟨h.initial, h.initialMax, ⟨?_, fun j => ?_⟩, ?_, ?_, ?_, ?_, ?_, ?_, h.within⟩
  · have := h.range.1
    show 0 ≤ w.conn.connectionSendWindow - chunk.length ∧
      w.conn.connectionSendWindow - chunk.length ≤ _
    omega
  · have := h.range.2 j
    by_cases hj : j = i
    · subst hj
      rw [hself]
      simp only [hrw]
      omega
    · rw [hother j hj]
      exact this
  · intro j k s hs0 hj hk
    exact h.distinct j k s hs0 (hat j s hj) (hat k s hk)
  · intro j s hs0 hj
    exact h.ids j s hs0 (hat j s hj)
  · intro s hles
    have h1 := h.unused s hles
    have h2 : streamId < w.conn.nextStreamId := h.ids i streamId h0 hslot
    have h3 : w.conn.nextStreamId ≤ s := hles
    rw [hq, hfor, if_neg (by omega)]
    exact h1
  · intro j s hs0 hj
    have h1 := h.stream j s hs0 (hat j s hj)
    rw [hq, hfor]
    by_cases hji : j = i
    · subst hji
      have hss : s = streamId := (hat j s hj).2.2.symm.trans hslot.2.2
      rw [if_pos hss, hself]
      simp only [hrw]
      push_cast
      omega
    · have hss : s ≠ streamId := by
        rintro rfl
        exact hji (h.distinct j i s h0 (hat j s hj) hslot)
      rw [if_neg hss, hother j hji]
      exact h1
  · have h1 := h.connection
    rw [hq, hlen]
    show w.conn.connectionSendWindow - chunk.length + _ + _ ≤ _
    push_cast
    omega
  · intro s hpos
    rw [hq, hfor] at hpos ⊢
    by_cases hss : s = streamId
    · subst hss
      have h1 := h.stream i s h0 hslot
      rw [if_pos rfl]
      omega
    · rw [if_neg hss] at hpos ⊢
      exact h.pending s hpos

end SendInvariant

/-! ## Runs -/

theorem FrameEffect.events (h : FrameEffect w f w') :
    ∃ t es, w'.events = w.events ++ es ∧ ∀ e ∈ es, e.IsControl t := by
  cases h with
  | quiet h => exact ⟨_, h.events⟩
  | calm h _ => exact ⟨_, h.events⟩
  | slot i a _ _ h _ _ => exact ⟨_, h.quiet.events⟩

/-- What a step keeps, when SETTINGS keep their word and ids are left for the
    streams that are opened. -/
theorem SendInvariant.step (h : SendInvariant w.conn w.events)
    (hs : Step (some IdsLeft) w w') (hk : ∀ e ∈ w'.events, e.KeepsInitialWindow) :
    SendInvariant w'.conn w'.events := by
  cases hs with
  | bookkeeping incoming hb => exact h.of_sendSide (by rw [hb]; rfl) (by rw [hb])
  | frame reader f hv hb =>
    have heff := reader.frame_effect (w := w) f hv
    have hsend : SendEffect w (reader.handle (receiveFrame w reader f) f) f := by
      have := reader.handle_sendEffect (w := receiveFrame w reader f) f hv <| by
        refine hk _ (heff.grows.events.subset ?_)
        exact List.mem_append_right _ (List.mem_singleton.2 rfl)
      exact ⟨this.1, this.2, this.3, this.4, this.5, this.6, this.7⟩
    obtain ⟨t, es, he, hes⟩ := heff.events
    rw [he]
    exact (h.received hb reader hsend).control hes
  | goAway _ e =>
    have hq := sendGoAway_quiet (t := .nothing) w e
    obtain ⟨es, he, hes⟩ := hq.events
    rw [he]
    exact (h.of_sendSide hq.sendSide hq.activeStreams).control hes
  | ping _ d => exact h.control_one (t := .nothing) ⟨_, _, rfl, rfl, fun _ => nofun⟩
  | shutdown =>
    unfold Http2.shutdown
    split
    · exact h
    · have hc : SendInvariant { w.conn with goAwaySent := true } w.events := h.of_sendSide rfl rfl
      exact hc.control_one (t := .nothing) ⟨_, _, rfl, rfl, fun _ => nofun⟩
  | openStream r t hi hleft => exact h.openStream hi hleft r t
  | clear => exact h.queued fun count _ => Nat.zero_le _
  | flush => exact h.flush _
  | sendHeaders _ i b =>
    exact h.setSlot i rfl (Http2Stream.sendHeaders_streamId _ b)
      (Http2Stream.sendHeaders_remoteWindow _ b)
  | @queue _ _ g hg =>
    refine h.queued fun count hcount => ?_
    have hzero : count g = 0 := by
      refine hcount g ?_
      rcases hg with hg | hg <;> rw [hg] <;> exact nofun
    simp [queuedData, hzero]
  | debit hslot _ hle hd =>
    have hev : w'.events = w.events := by
      obtain ⟨g, stream, -, -, rfl⟩ := debitData_eq hd
      rfl
    rw [hev]
    exact h.debit hslot hle hd
  | release _ streamId => exact h.release streamId
  | publish _ i => exact h.setSlot i rfl rfl rfl

theorem Started.sendInvariant (h : Started w) : SendInvariant w.conn w.events := by
  obtain ⟨n, hc⟩ := h.conn
  obtain ⟨settings, sent, f, c, acked, decoded, hev, hf, hack, h0, hsent, hacked, hdec, hok, -⟩ :=
    h.events
  obtain ⟨hmax, hwindow, -⟩ := decodeSettingsPayload_window hdec
  have hbuf : w.conn.sendBuffer = [] := h.sendIdle
  have hq : ∀ count, queuedData count w.conn = 0 := by
    intro count
    simp only [queuedData, hbuf]
    rfl
  have hslot : ∀ i, w.conn.slot i = {} := by
    intro i
    rw [hc]
    simp only [Http2Connection.slot, freshConnection, List.getD_eq_getElem?_getD,
      List.getElem?_replicate]
    split <;> rfl
  have hnone : ∀ i streamId, ¬ SlotAt w.conn i streamId := by
    rintro i streamId ⟨-, hu, -⟩
    rw [hslot] at hu
    cases hu
  have hdata : ∀ count, CountsData count → dataSent count w.events = 0 := by
    intro count hcount
    rw [hev]
    simp [dataSent, Http2Event.handed, hcount (settingsFrame settings) (by rintro ⟨⟩),
      hcount settingsAck (by rintro ⟨⟩)]
  have hinc : ∀ streamId, increments streamId w.events = 0 := by
    intro streamId
    rw [hev]
    simp [increments, Http2Event.granted, Http2Frame.increment, hf]
  have hinit : w.conn.peerSettings.initialWindowSize = initialWindow w.events := by
    rw [hwindow hok, hev]
    simp only [initialWindow, List.foldl_cons, List.foldl_nil, Http2Event.window,
      Http2Frame.isSettings, hf, hack, h0]
    rfl
  have hsend : w.conn.connectionSendWindow = http2InitialWindowSize := by
    rw [hc]
    rfl
  have hall : dataSent Http2Frame.dataLength w.events = 0 := hdata _ countsData_dataLength
  have hfor : ∀ streamId, dataSent (Http2Frame.dataFor streamId) w.events = 0 :=
    fun streamId => hdata _ (countsData_dataFor streamId)
  refine ⟨hinit, hmax (by decide), ⟨?_, fun i => ?_⟩, fun i j s _ hi => absurd hi (hnone i s),
    fun i s _ hi => absurd hi (hnone i s), ?_, fun i s _ hi => absurd hi (hnone i s), ?_, ?_, ?_⟩
  · rw [hsend]
    decide
  · rw [hslot]
    decide
  · intro streamId _
    rw [hfor, hq]
  · rw [hsend, hall, hq, hinc]
    simp
  · intro streamId hpos
    rw [hq] at hpos
    exact absurd hpos (lt_irrefl 0)
  · -- neither SETTINGS nor their acknowledgement carries DATA
    refine withinCredit_of_handed fun count hcount e he => ?_
    rw [hev] at he
    simp only [List.mem_cons, List.not_mem_nil, or_false] at he
    rcases he with rfl | rfl | rfl
    · simp [Http2Event.handed, hcount (settingsFrame settings) (by rintro ⟨⟩)]
    · rfl
    · simp [Http2Event.handed, hcount settingsAck (by rintro ⟨⟩)]

/-- **No DATA beyond the credit**, and no window leaves its range: in every run whose
    SETTINGS keep the windows of the streams in step with the initial window size,
    while stream ids are left. -/
theorem data_within_credit {maxHeaderBlockBytes : ℕ} {incoming : List (Except NTSTATUS UInt8)}
    {sendAnswers : List NTSTATUS} {status : NTSTATUS} {w : Http2World}
    (h : initializeConnection maxHeaderBlockBytes incoming sendAnswers = (status, w))
    (hs : ntSuccess status = true) (calls : List Http2Call) (hleft : OpensWhile IdsLeft w calls)
    (hk : ∀ e ∈ (w.runCalls calls).events, e.KeepsInitialWindow) :
    WithinCredit (w.runCalls calls).events ∧ WindowsInRange (w.runCalls calls).conn := by
  have hstarted := initializeConnection_started h hs
  have hbook : ∀ c c', Bookkeeping c c' → IdsLeft c → IdsLeft c' := by
    intro c c' hb hl
    unfold IdsLeft
    rw [hb]
    exact hl
  obtain ⟨hsteps, -⟩ := runCalls_callSteps hbook calls w hleft hstarted.sendIdle
  generalize w.runCalls calls = w' at hsteps hk ⊢
  have hinv : SendInvariant w'.conn w'.events := by
    induction hsteps with
    | refl => exact hstarted.sendInvariant
    | tail _ hstep ih =>
      exact (ih fun e he => hk e (hstep.grows.events.subset he)).step hstep hk
  exact ⟨hinv.within, hinv.range⟩

/-- An extended CONNECT request. -/
def tunnelRequest : Http2Request :=
  { headers := [⟨text ":method", text "CONNECT"⟩, ⟨text ":protocol", text "websocket"⟩]
    responseHeaderCapacity := 4
    nameValueCapacity := 16 }

/-- SETTINGS (ENABLE_CONNECT_PROTOCOL), the response on stream 1, SETTINGS with an
    initial window of 2 octets, and WINDOW_UPDATE on stream 1 with 1 octet. -/
def smallWindow : Bytes :=
  [0, 0, 6, 4, 0, 0, 0, 0, 0, 0, 8, 0, 0, 0, 1,
    0, 0, 1, 1, 4, 0, 0, 0, 1, 0x88,
    0, 0, 6, 4, 0, 0, 0, 0, 0, 0, 4, 0, 0, 0, 2,
    0, 0, 4, 8, 0, 0, 0, 0, 1, 0, 0, 0, 1]

/-- The tunnel is opened, frames are read, and three octets are sent. -/
def tunnelCalls : List Http2Call :=
  [.beginRequest tunnelRequest, .receiveResponseHeaders 1, .receiveStreamData 1 16,
    .receiveStreamData 1 16, .sendStreamData 1 (text "abc") false]

theorem data_within_credit_smallWindow :
    dataSent (Http2Frame.dataFor 1) (runOn smallWindow tunnelCalls).events = 3 ∧
      WithinCredit (runOn smallWindow tunnelCalls).events ∧
      WindowsInRange (runOn smallWindow tunnelCalls).conn :=
  ⟨by decide +kernel, data_within_credit (Prod.eta _).symm (by decide +kernel) _
    (by decide +kernel) (by decide +kernel)⟩

/-- SETTINGS (ENABLE_CONNECT_PROTOCOL), the response on stream 1, SETTINGS with an
    initial window of 2 octets and a bad ENABLE_PUSH, which are refused, and SETTINGS
    with an initial window of 2 octets. -/
def refusedWindow : Bytes :=
  [0, 0, 6, 4, 0, 0, 0, 0, 0, 0, 8, 0, 0, 0, 1,
    0, 0, 1, 1, 4, 0, 0, 0, 1, 0x88,
    0, 0, 12, 4, 0, 0, 0, 0, 0, 0, 4, 0, 0, 0, 2, 0, 2, 0, 0, 0, 2,
    0, 0, 6, 4, 0, 0, 0, 0, 0, 0, 4, 0, 0, 0, 2]

/-- The window of the stream does not follow, and three octets are sent. -/
theorem data_beyond_credit :
    OpensWhile IdsLeft (initializeConnection 64 (refusedWindow.map .ok) []).2 tunnelCalls ∧
      ¬ WithinCredit (runOn refusedWindow tunnelCalls).events := by
  refine ⟨by decide +kernel, fun h => ?_⟩
  exact absurd (h.stream_le 1 (n := 10) (by decide +kernel) (by decide +kernel)) (by decide +kernel)

/-! ## The settings of the peer -/

/-- The values that SETTINGS of a server may have. -/
structure Http2Settings.Legal (s : Http2Settings) : Prop where
  enablePush : s.enablePush ≤ 1
  initialWindowSize : s.initialWindowSize ≤ http2MaxWindowSize
  maxFrameSize : http2DefaultMaxFrameSize ≤ s.maxFrameSize ∧
    s.maxFrameSize ≤ http2MaxAllowedFrameSize
  enableConnectProtocol : s.enableConnectProtocol ≤ 1

theorem decodeSetting_legal {id value : ℕ} (h : settings.Legal)
    (hd : decodeSetting settings id value = .ok settings') : settings'.Legal := by
  obtain ⟨h1, h2, h3, h4⟩ := h
  unfold decodeSetting at hd
  repeat' split at hd
  all_goals cases hd
  all_goals refine ⟨?_, ?_, ?_, ?_⟩ <;> (try dsimp only) <;> omega

/-- A payload that is refused in its middle has changed the settings too. -/
theorem decodeSettingsPayload_legal (h : settings.Legal) (payload : Bytes) :
    (decodeSettingsPayload payload settings).2.Legal := by
  unfold decodeSettingsPayload
  split
  · exact h
  · induction settingsOf payload generalizing settings with
    | nil => exact h
    | cons setting rest ih =>
      unfold decodeSettingsLoop
      split
      · exact h
      · next hd => exact ih (decodeSetting_legal h hd)

theorem legal_of_sendSide (hs : w'.conn.sendSide = w.conn.sendSide)
    (h : w.conn.peerSettings.Legal) : w'.conn.peerSettings.Legal := by
  rw [show w'.conn.peerSettings = w.conn.peerSettings from congrArg (·.2.1) hs]
  exact h

theorem refuse_legal (h : w.conn.peerSettings.Legal) (e : Http2ErrorCode) (status : NTSTATUS) :
    (refuse w e status).2.conn.peerSettings.Legal :=
  legal_of_sendSide (sendGoAway_quiet (t := .nothing) w e).sendSide h

theorem applySettings_legal (h : w.conn.peerSettings.Legal) :
    (applySettings w f).2.conn.peerSettings.Legal := by
  have hd := decodeSettingsPayload_legal h f.payload
  have hadjust : ∀ (c : Http2Connection) delta,
      (c.adjustActiveStreamRemoteWindows delta).2.peerSettings = c.peerSettings := by
    intro c delta
    unfold Http2Connection.adjustActiveStreamRemoteWindows
    split <;> rfl
  unfold applySettings
  simp only
  split
  · exact refuse_legal h _ _
  · split
    · exact refuse_legal (by exact hd) _ _
    · split
      · exact refuse_legal (by simpa only [hadjust] using hd) _ _
      · simpa only [sendRaw, hadjust] using hd

theorem handleConnectionFrame_legal (s : Option ℕ) (h : w.conn.peerSettings.Legal) :
    (handleConnectionFrame w f s).2.conn.peerSettings.Legal := by
  unfold handleConnectionFrame
  split
  · exact refuse_legal h _ _
  · split
    · exact refuse_legal h _ _
    · simp only
      generalize hw₁ : (if isConnectionControlSignal f.type = true then _ else w) = w₁
      have h₁ : w₁.conn.peerSettings.Legal := by
        rw [← hw₁]
        split <;> exact h
      unfold handleSettings handlePing handleGoAway handleWindowUpdate
      repeat' split
      all_goals first | exact refuse_legal h₁ _ _ | exact applySettings_legal h₁ | exact h₁

theorem Http2Reader.handle_legal (reader : Http2Reader) (hv : reader.Valid w.conn)
    (h : w.conn.peerSettings.Legal) : (reader.handle w f).conn.peerSettings.Legal := by
  have hh := reader.handle_handled f hv
  generalize reader.handle w f = w' at hh
  cases hh with
  | connection s _ => exact handleConnectionFrame_legal s h
  | refused e => exact refuse_legal h e statusSuccess
  | ignored => exact h
  | ignoredReset s e => exact legal_of_sendSide (sendRstStream_quiet (t := .nothing) w s e).sendSide h
  | single a => exact legal_of_sendSide (processResponseFrame_quiet w a f).sendSide h
  | slot i _ _ => exact legal_of_sendSide (processSlot_slotStep w i f).sendSide h
  | tunnel i capacity hi _ _ =>
    obtain ⟨s, hs, -⟩ := tunnelData_slotStep w i capacity f hi.1
    exact legal_of_sendSide hs.sendSide h

theorem Step.legal {k} (hs : Step k w w') (h : w.conn.peerSettings.Legal) :
    w'.conn.peerSettings.Legal := by
  cases hs with
  | bookkeeping incoming hb =>
    rw [hb]
    exact h
  | frame reader f hv _ => exact reader.handle_legal (w := receiveFrame w reader f) hv h
  | goAway _ e => exact refuse_legal h e statusSuccess
  | shutdown =>
    unfold Http2.shutdown
    split <;> exact h
  | debit _ _ _ hd =>
    obtain ⟨_, _, -, -, rfl⟩ := debitData_eq hd
    exact h
  | release _ streamId =>
    unfold releaseStream Http2Connection.releaseActiveStream
    simp only
    split <;> exact h
  | _ => exact h

/-- **The settings in force stay legal**, whatever SETTINGS the server sends. -/
theorem runCalls_legal {maxHeaderBlockBytes : ℕ} {incoming : List (Except NTSTATUS UInt8)}
    {sendAnswers : List NTSTATUS} {status : NTSTATUS}
    (h : initializeConnection maxHeaderBlockBytes incoming sendAnswers = (status, w))
    (hs : ntSuccess status = true) (calls : List Http2Call) :
    (w.runCalls calls).conn.peerSettings.Legal := by
  have hstarted := initializeConnection_started h hs
  refine (runCalls_steps calls w hstarted.sendIdle).1.induct (fun _ _ h hs => hs.legal h) ?_
  obtain ⟨_, _, f, _, _, decoded, -, -, -, -, -, -, hdec, -⟩ := hstarted.events
  have hempty : ({} : Http2Settings).Legal := ⟨by decide, by decide, by decide, by decide⟩
  have hfirst := decodeSettingsPayload_legal hempty f.payload
  rw [hdec] at hfirst
  exact hfirst

theorem runCalls_legal_refused : (runOn refusedWindow tunnelCalls).conn.peerSettings.Legal := by
  unfold runOn
  exact runCalls_legal (Prod.eta _).symm (by decide +kernel) _

end KernelHttp.Http2
