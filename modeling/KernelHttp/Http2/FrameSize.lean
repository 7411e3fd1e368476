/-
  The size of the frames of a request (SETTINGS_MAX_FRAME_SIZE, RFC 9113 Section 6.5.2).

  `SendRequestFrames` takes the limit for its frames before it waits for window and reads SETTINGS.
-/
import KernelHttp.Http2.Fragmentation
import KernelHttp.Http2.TunnelCredit

namespace KernelHttp.Http2

open Loop

/-! ## The size in force -/

def settingsFrameSize (settings : List (ℕ × ℕ)) (size : ℕ) : ℕ :=
  settings.foldl (fun size s => if s.1 = 5 then s.2 else size) size

/-- The size in force, and the size behind SETTINGS that wait for their
    acknowledgement. -/
structure FrameSizes where
  inForce : ℕ := http2DefaultMaxFrameSize
  pending : ℕ := http2DefaultMaxFrameSize

/-- The sizes behind an event: SETTINGS are acknowledged by the next `Send`, or never. -/
def FrameSizes.after (s : FrameSizes) : Http2Event → FrameSizes
  | .received f _ _ =>
    ⟨s.inForce, if f.isSettings then settingsFrameSize (settingsOf f.payload) s.inForce
      else s.inForce⟩
  | .sent frames status =>
    if frames = [settingsAck] ∧ ntSuccess status = true then ⟨s.pending, s.pending⟩
    else ⟨s.inForce, s.inForce⟩

/-- The MAX_FRAME_SIZE that was received and acknowledged. -/
def frameSizeInForce (events : List Http2Event) : ℕ :=
  (events.foldl FrameSizes.after {}).inForce

/-- Every frame of a request that is handed to the transport between two states keeps
    to the size in force. -/
def FramesFit (w w' : Http2World) : Prop :=
  ∀ before frames status after, w'.events = w.events ++ before ++ .sent frames status :: after →
    ∀ f ∈ frames, f.carriesRequest = true →
      f.payload.length ≤ frameSizeInForce (w.events ++ before)

/-- An event that names no MAX_FRAME_SIZE below `limit`. -/
def Http2Event.KeepsLimit (limit : ℕ) : Http2Event → Prop
  | .received f _ _ => f.isSettings = true →
      limit ≤ settingsFrameSize (settingsOf f.payload) limit
  | .sent _ _ => True

instance (limit : ℕ) : ∀ e : Http2Event, Decidable (e.KeepsLimit limit)
  | .received f _ _ => inferInstanceAs (Decidable (f.isSettings = true → _))
  | .sent _ _ => inferInstanceAs (Decidable True)

/-! ## The limit -/

theorem settingsFrameSize_le : ∀ {settings : List (ℕ × ℕ)} {limit size : ℕ}, limit ≤ size →
    limit ≤ settingsFrameSize settings limit → limit ≤ settingsFrameSize settings size := by
  intro settings
  induction settings using List.reverseRecOn with
  | nil => exact fun hle _ => hle
  | append_singleton settings s ih =>
    intro limit size hle h
    unfold settingsFrameSize at h ⊢
    rw [List.foldl_append, List.foldl_cons, List.foldl_nil] at h ⊢
    split_ifs at h ⊢
    · exact h
    · exact ih hle h

variable {left rest : Bytes} {frames : List Http2Frame} {status : NTSTATUS} {k : SendContext}
    {limit : ℕ}

theorem FrameSizes.foldl_ge : ∀ {es : List Http2Event} {s : FrameSizes},
    limit ≤ s.inForce → limit ≤ s.pending → (∀ e ∈ es, e.KeepsLimit limit) →
    limit ≤ (es.foldl FrameSizes.after s).inForce := by
  intro es
  induction es with
  | nil => exact fun h _ _ => h
  | cons e es ih =>
    intro s h h' hkeeps
    have he := hkeeps e List.mem_cons_self
    have hes : ∀ e' ∈ es, e'.KeepsLimit limit := fun e' hmem => hkeeps e' (List.mem_cons_of_mem e hmem)
    rw [List.foldl_cons]
    cases e with
    | received f reader c =>
      refine ih h ?_ hes
      unfold FrameSizes.after
      simp only
      split_ifs with hsettings
      · exact settingsFrameSize_le h (he hsettings)
      · exact h
    | sent frames status =>
      unfold FrameSizes.after
      simp only
      split_ifs
      · exact ih h' h' hes
      · exact ih h h hes

/-- The frames of a header block keep to the limit they are cut with. -/
theorem BlockFrames.length_le {first : Bool} (h : BlockFrames k first rest frames left) :
    ∀ f ∈ frames, f.payload.length ≤ k.maxPayload := by
  induction h with
  | stop => exact fun f hf => absurd hf List.not_mem_nil
  | cons _ hf _ ih =>
    rintro g (_ | ⟨_, hg⟩)
    · rw [(blockFrame_fields hf).2.2.1, List.length_take]
      exact min_le_left _ _
    · exact ih g hg

theorem BodyFrames.length_le
    (h : BodyFrames k rest frames left) : ∀ f ∈ frames, f.payload.length ≤ k.maxPayload := by
  induction h with
  | stop => exact fun f hf => absurd hf List.not_mem_nil
  | cons _ hn hf _ ih =>
    rintro g (_ | ⟨_, hg⟩)
    · rw [(dataFrame_fields hf).2.2.1, List.length_take]
      exact (min_le_left _ _).trans hn
    · exact ih g hg

theorem frameSizeInForce_ge {events es : List Http2Event} (h : limit ≤ frameSizeInForce events)
    (hf : ∀ f ∈ frames, f.carriesRequest = true) (hkeeps : ∀ e ∈ es, e.KeepsLimit limit) :
    limit ≤ frameSizeInForce (events ++ .sent frames status :: es) := by
  have hack : ¬ (frames = [settingsAck] ∧ ntSuccess status = true) := by
    rintro ⟨rfl, -⟩
    exact absurd (hf settingsAck (List.mem_singleton.2 rfl)) (by decide)
  unfold frameSizeInForce at h ⊢
  rw [List.foldl_append, List.foldl_cons, FrameSizes.after, if_neg hack]
  exact FrameSizes.foldl_ge h h hkeeps

theorem sendRequestFrames_unencoded {w : Http2World} {i : ℕ} {headers : List HttpHeader}
    {body : Bytes} {encoder : HpackEncoder}
    (h : w.conn.encoder.encode headers w.conn.headerBlockCapacity = (.error status, encoder)) :
    (sendRequestFrames w i headers body).2.events = w.events := by
  unfold sendRequestFrames
  rw [h]

/-- **The frames of a request keep to the size in force**, if it covers the limit of
    the request at the start and nothing that is read while the request is sent names
    less. -/
theorem requestFrames_fit {w : Http2World} {i : ℕ} {headers : List HttpHeader} {body : Bytes}
    (hstart : outboundPayloadLimit w.conn.peerSettings.maxFrameSize ≤ frameSizeInForce w.events)
    (hwait : ∀ e ∈ (sendRequestFrames w i headers body).2.events.drop w.events.length,
      e.KeepsLimit (outboundPayloadLimit w.conn.peerSettings.maxFrameSize)) :
    FramesFit w (sendRequestFrames w i headers body).2 := by
  intro before frames status after hevents f hf hcarries
  rw [hevents, List.append_assoc, List.drop_left] at hwait
  have hbefore : ∀ e ∈ before, e.KeepsLimit
      (outboundPayloadLimit w.conn.peerSettings.maxFrameSize) :=
    fun e he => hwait e (List.mem_append_left _ he)
  cases hencode : w.conn.encoder.encode headers w.conn.headerBlockCapacity with
  | mk encoded encoder =>
    cases encoded with
    | error status =>
      rw [sendRequestFrames_unencoded hencode, List.append_assoc] at hevents
      simp at hevents
    | ok block =>
      obtain ⟨heads, datas, before', after', hemitted⟩ :=
        sendRequestFrames_emitted (i := i) hencode body
      have hsplit : before' ++ after' = before ++ .sent frames status :: after := by
        have hboth := hemitted.events.symm.trans hevents
        rwa [List.append_assoc, List.append_assoc, List.append_cancel_left_eq] at hboth
      -- the frame was cut with the limit of the request
      have hlength : f.payload.length ≤ outboundPayloadLimit w.conn.peerSettings.maxFrameSize := by
        have hmem : f ∈ framesSent (before' ++ after') := by
          rw [hsplit]
          exact List.mem_flatMap.2 ⟨.sent frames status, by simp, hf⟩
        obtain ⟨left, hheads, -⟩ := hemitted.header
        obtain ⟨left', hdatas, -⟩ := hemitted.data
        rcases List.mem_append.1 (hemitted.sent f hmem hcarries) with hmem | hmem
        · exact hheads.length_le f hmem
        · exact hdatas.length_le f hmem
      refine hlength.trans ?_
      cases hb : before with
      | nil =>
        rw [List.append_nil]
        exact hstart
      | cons e es =>
        rw [hb] at hsplit hbefore
        obtain ⟨first, status', rfl, hfirst⟩ := hemitted.first e _ hsplit
        exact frameSizeInForce_ge hstart hfirst fun e he => hbefore e (List.mem_cons_of_mem _ he)

/-- The limit of the request and the size in force stay the same while the request
    waits. -/
theorem requestFrames_fit_stalled :
    FramesFit (openedOn stalledWindow)
      (sendRequestFrames (openedOn stalledWindow) 0 postHeaders (text "abc")).2 := by
  have hrun : outboundPayloadLimit (openedOn stalledWindow).conn.peerSettings.maxFrameSize ≤
        frameSizeInForce (openedOn stalledWindow).events ∧
      ∀ e ∈ (sendRequestFrames (openedOn stalledWindow) 0 postHeaders (text "abc")).2.events.drop
          (openedOn stalledWindow).events.length,
        e.KeepsLimit (outboundPayloadLimit (openedOn stalledWindow).conn.peerSettings.maxFrameSize) := by
    decide +kernel
  exact requestFrames_fit hrun.1 hrun.2

/-! ## A size that is lowered -/

section Lowered

variable {w w₁ w₂ : Http2World} {k : SendContext} {body : Bytes}

theorem queueData_takes (last : Bool) (hidle : SendIdle w) (h0 : k.streamId ≠ 0)
    (hfits : http2FrameHeaderLength + body.length ≤ sendBufferCapacity)
    (ht : TakesData w.conn k.slot k.streamId)
    (hwindow : exceedsWindow body.length (w.conn.slot k.slot).stream.remoteWindow = false) :
    ∃ w', queueData w k.slot k.streamId body last = (statusSuccess, w') ∧
      w'.events = w.events ∧ (∃ f, w'.conn.sendBuffer = [f] ∧ f.payload = body ∧
        f.carriesRequest = true) ∧
      responseEnded (w'.conn.slot k.slot) = responseEnded (w.conn.slot k.slot) := by
  have hroom : makeRoom w body.length = (statusSuccess, w) := by
    unfold makeRoom
    rw [if_neg (by omega), if_neg]
    rw [show w.conn.sendBuffer = [] from hidle]
    simp only [sendOffset, List.map_nil, List.sum_nil]
    omega
  have hlen : body.length ≤ http2MaxAllowedFrameSize := by
    simp only [http2FrameHeaderLength, sendBufferCapacity, http2MaxAllowedFrameSize] at hfits ⊢
    omega
  obtain ⟨w', hw'⟩ : ∃ w', debitData w k.slot k.streamId body last = (statusSuccess, w') :=
    ⟨_, Prod.ext (debitData_takes last h0 ht hlen hwindow) rfl⟩
  refine ⟨w', by simp [queueData, hroom, hw'], ?_⟩
  obtain ⟨g, stream, hg, -, rfl⟩ := debitData_eq hw'
  obtain ⟨htype, -, hpayload, -⟩ := dataFrame_fields hg
  refine ⟨rfl, ⟨g, ?_, hpayload, by rw [Http2Frame.carriesRequest, htype]; rfl⟩, ?_⟩
  · change w.conn.sendBuffer ++ [g] = [g]
    rw [show w.conn.sendBuffer = [] from hidle, List.nil_append]
  · change responseEnded ((w.conn.setSlot k.slot _).slot k.slot) = _
    rcases lt_or_ge k.slot w.conn.activeStreams.length with hi | hi
    · rw [slot_setSlot_self hi]
      rfl
    · rw [Http2Connection.setSlot, List.set_eq_of_length_le hi]

theorem sendRequestBody_waits (hend : k.endStream = false) (hne : body ≠ [])
    (hflush : flushSendBuffer w = (statusSuccess, w₁))
    (hblocked : availableWindow w₁.conn (w₁.conn.slot k.slot).stream ≤ 0)
    (hwait : waitForWindow w₁ = (statusSuccess, w₂))
    (hended : responseEnded (w₂.conn.slot k.slot) = false) (hidle : SendIdle w₂)
    (h0 : k.streamId ≠ 0) (ht : TakesData w₂.conn k.slot k.streamId)
    (hlong : (w₂.conn.slot k.slot).stream.remoteWindow ≤ http2MaxWindowSize)
    (hpayload : body.length ≤ k.maxPayload)
    (hfits : http2FrameHeaderLength + body.length ≤ sendBufferCapacity)
    (hwindow : (body.length : ℤ) ≤ availableWindow w₂.conn (w₂.conn.slot k.slot).stream) :
    ∃ f status, (sendRequestBody w k body).2.events = w₂.events ++ [.sent [f] status] ∧
      f.payload = body ∧ f.carriesRequest = true := by
  have hlength := List.length_pos_iff.2 hne
  obtain ⟨w', hw', hevents, ⟨f, hbuffer, hf, hcarries⟩, hended'⟩ :=
    queueData_takes (k := k) true hidle h0 hfits ht
      (fits_of_available (c := w₂.conn) hlong (by omega) (by omega))
  rw [hended] at hended'
  -- a turn that waits, a turn that queues, and the last one
  have hturn₁ : bodyTurn k (w₁, body) = .again (w₂, body) := by
    simp [bodyTurn, hne, hblocked, hwait, hended]
  have hturn₂ : bodyTurn k (w₂, body) = .again (w', []) := by
    have hchunk : min (min body.length k.maxPayload)
        (availableWindow w₂.conn (w₂.conn.slot k.slot).stream).toNat = body.length := by
      omega
    unfold bodyTurn
    simp only
    rw [if_neg hne, if_neg (by omega), if_neg (by simp [hended]), hchunk, List.take_length,
      List.drop_length, decide_eq_true le_rfl, hw']
    rfl
  have hbody : sendBody w₁ k body = (statusSuccess, w') := by
    unfold sendBody
    obtain ⟨n, hn⟩ : ∃ n, w₁.incoming.length + body.length + 1 = n + 2 :=
      ⟨w₁.incoming.length + body.length - 1, by omega⟩
    rw [hn, run_again hturn₁, run_again hturn₂]
    cases n with
    | zero => rfl
    | succ n => exact run_done (by simp [bodyTurn])
  refine ⟨f, (flushSendBuffer w').1, ?_, hf, hcarries⟩
  have hfinish : (sendRequestBody w k body).2 = (flushSendBuffer w').2 := by
    simp [sendRequestBody, hend, hflush, hbody, finishRequest, hended']
  rw [hfinish, ← hevents, ← hbuffer]
  rfl

end Lowered

/-- SETTINGS with an initial window of 0 octets and frames of 32768, and SETTINGS with
    an initial window of 65535 octets and frames of 16384. -/
def loweredSize : Bytes :=
  [0, 0, 12, 4, 0, 0, 0, 0, 0, 0, 4, 0, 0, 0, 0, 0, 5, 0, 0, 0x80, 0,
    0, 0, 12, 4, 0, 0, 0, 0, 0, 0, 4, 0, 0, 0xff, 0xff, 0, 5, 0, 0, 0x40, 0]

/-- Frames of 16384 octets are in force, and a frame of 16385 is sent. -/
theorem requestFrames_lowered : ¬ FramesFit (openedOn loweredSize)
    (sendRequestFrames (openedOn loweredSize) 0 postHeaders (List.replicate 16385 0)).2 := by
  set w := openedOn loweredSize with hw
  set k : SendContext := { slot := 0, streamId := 1, endStream := false, maxPayload := 32759 } with hk
  set body : Bytes := List.replicate 16385 0 with hbody
  have hlength : body.length = 16385 := List.length_replicate
  obtain ⟨encoder, hencoder⟩ : ∃ encoder,
      encoder = (w.conn.encoder.encode postHeaders w.conn.headerBlockCapacity).2 := ⟨_, rfl⟩
  obtain ⟨r, hr⟩ : ∃ r, r = sendHeaderBlock (startRequest w encoder) k [0x83] := ⟨_, rfl⟩
  obtain ⟨w₁, hw₁⟩ : ∃ w₁, w₁ = (flushSendBuffer r.2).2 := ⟨_, rfl⟩
  obtain ⟨w₂, hw₂⟩ : ∃ w₂, w₂ = (waitForWindow w₁).2 := ⟨_, rfl⟩
  -- the run up to the second turn over the body
  have hencode : (w.conn.encoder.encode postHeaders w.conn.headerBlockCapacity).1 = .ok [0x83] ∧
      (w.conn.slot 0).stream.streamId = 1 ∧
      outboundPayloadLimit w.conn.peerSettings.maxFrameSize = 32759 := by
    rw [hw]
    decide +kernel
  have hrun : r.1 = statusSuccess ∧ (flushSendBuffer r.2).1 = statusSuccess ∧
      availableWindow w₁.conn (w₁.conn.slot 0).stream ≤ 0 ∧
      (waitForWindow w₁).1 = statusSuccess ∧ responseEnded (w₂.conn.slot 0) = false ∧
      w₂.conn.sendBuffer = [] ∧ TakesData w₂.conn 0 1 ∧
      (w₂.conn.slot 0).stream.remoteWindow ≤ http2MaxWindowSize ∧
      16385 ≤ availableWindow w₂.conn (w₂.conn.slot 0).stream ∧
      w.events.length ≤ w₂.events.length ∧ frameSizeInForce w₂.events = 16384 := by
    rw [hw₂, hw₁, hr, hencoder, hk, hw]
    decide +kernel
  obtain ⟨hblock, hid, hlimit⟩ := hencode
  obtain ⟨hhead, hflush, hblocked, hwait, hended, hidle, htakes, hlong, hwindow, hle, hforce⟩ := hrun
  have hencode : w.conn.encoder.encode postHeaders w.conn.headerBlockCapacity =
      (.ok [0x83], encoder) := Prod.ext hblock hencoder.symm
  have hcontext : requestContext w 0 body = k := by
    rw [requestContext, hid, hlimit, hbody, List.isEmpty_replicate]
    simp [hk]
  have hne : body ≠ [] := List.ne_nil_of_length_pos (by omega)
  obtain ⟨f, status, hevents, hf, hcarries⟩ := sendRequestBody_waits (w := r.2) (k := k) rfl hne
    (Prod.ext hflush hw₁.symm) hblocked (Prod.ext hwait hw₂.symm) hended hidle (by decide) htakes
    hlong (by simp [hk, hlength]) (by simp [hlength, http2FrameHeaderLength, sendBufferCapacity])
    (by rw [hlength]; exact hwindow)
  have hsent : (sendRequestFrames w 0 postHeaders body).2.events =
      w₂.events ++ [.sent [f] status] := by
    rw [sendRequestFrames_of_encode hencode, hcontext, ← hr]
    simp only [hhead, ntSuccess_success, not_true_eq_false, if_false]
    exact hevents
  obtain ⟨_, _, before, after, hemitted⟩ := sendRequestFrames_emitted (i := 0) hencode body
  obtain ⟨es, hes⟩ : w.events <+: w₂.events := by
    have hstart : w.events <+: w₂.events ++ [.sent [f] status] := by
      rw [← hsent, hemitted.events, List.append_assoc]
      exact List.prefix_append _ _
    exact List.prefix_of_prefix_length_le hstart (List.prefix_append _ _) hle
  intro hfit
  have hsmall := hfit es [f] status [] (by rw [hes, hsent]) f (List.mem_singleton.2 rfl) hcarries
  rw [hes, hforce, hf, hlength] at hsmall
  omega

end KernelHttp.Http2
