/-
  What the handlers of frames can change.
-/
import KernelHttp.Http2.Request

namespace KernelHttp.Http2

/-! ## Quiet steps -/

/-- What the handler of a frame works on: the header block of a stream, the
    receive windows, or neither. -/
inductive Touch where
  | nothing
  | headers
  | data
deriving DecidableEq

/-- What the handler of a frame of a stream works on. -/
def Http2FrameType.touch : Http2FrameType → Touch
  | .headers | .continuation => .headers
  | .data => .data
  | _ => .nothing

/-- HEADERS, CONTINUATION and DATA, the frames of a request. -/
def Http2Frame.carriesRequest (f : Http2Frame) : Bool :=
  f.type == .headers || f.type == .continuation || f.type == .data

variable {a a' : Http2ActiveStream} {f : Http2Frame}

theorem Http2Frame.type_ne_data (h : f.carriesRequest = false) : f.type ≠ .data := by
  intro ht
  rw [carriesRequest, ht] at h
  cases h

/-- A call of `Send` with one frame that is no frame of a request, and WINDOW_UPDATE
    for DATA only. -/
def Http2Event.IsControl (t : Touch) (e : Http2Event) : Prop :=
  ∃ f status, e = .sent [f] status ∧ f.carriesRequest = false ∧ (t ≠ .data → f.type ≠ .windowUpdate)

/-- The part of a connection that requests work on, but for the streams. -/
def Http2Connection.sendSide (c : Http2Connection) : List Http2Frame × Http2Settings × ℤ × ℕ :=
  (c.sendBuffer, c.peerSettings, c.connectionSendWindow, c.nextStreamId)

/-- Nothing changes but the decoder, the header block, the receive window, as far
    as the handler works on them, and whether GOAWAY was sent; control frames are
    sent. -/
structure Quiet (t : Touch) (w w' : Http2World) : Prop where
  conn : w'.conn = { w.conn with
    decoder := w'.conn.decoder
    responseHeaderBlock := w'.conn.responseHeaderBlock
    connectionRecvWindow := w'.conn.connectionRecvWindow
    connectionRecvConsumed := w'.conn.connectionRecvConsumed
    goAwaySent := w'.conn.goAwaySent }
  header : t ≠ .headers → w'.conn.decoder = w.conn.decoder ∧
    w'.conn.responseHeaderBlock = w.conn.responseHeaderBlock
  ledger : t ≠ .data → w'.conn.connectionRecvWindow = w.conn.connectionRecvWindow ∧
    w'.conn.connectionRecvConsumed = w.conn.connectionRecvConsumed
  goAway : w.conn.goAwaySent = true → w'.conn.goAwaySent = true
  incoming : w'.incoming = w.incoming
  events : ∃ es, w'.events = w.events ++ es ∧ ∀ e ∈ es, e.IsControl t

namespace Quiet

variable {t : Touch} {w w' w'' : Http2World}

/-- Only the connection changes. -/
theorem of_conn {c : Http2Connection} (hc : c = { w.conn with
      decoder := c.decoder
      responseHeaderBlock := c.responseHeaderBlock
      connectionRecvWindow := c.connectionRecvWindow
      connectionRecvConsumed := c.connectionRecvConsumed
      goAwaySent := c.goAwaySent })
    (hh : t ≠ .headers → c.decoder = w.conn.decoder ∧
      c.responseHeaderBlock = w.conn.responseHeaderBlock)
    (hl : t ≠ .data → c.connectionRecvWindow = w.conn.connectionRecvWindow ∧
      c.connectionRecvConsumed = w.conn.connectionRecvConsumed)
    (hg : w.conn.goAwaySent = true → c.goAwaySent = true) : Quiet t w { w with conn := c } :=
  ⟨hc, hh, hl, hg, rfl, [], by simp, by simp⟩

theorem refl (w : Http2World) : Quiet t w w :=
  of_conn rfl (fun _ => ⟨rfl, rfl⟩) (fun _ => ⟨rfl, rfl⟩) id

theorem trans (h : Quiet t w w') (h' : Quiet t w' w'') : Quiet t w w'' := by
  obtain ⟨es, he, hc⟩ := h.events
  obtain ⟨es', he', hc'⟩ := h'.events
  refine ⟨?_, fun ht => ?_, fun ht => ?_, fun hg => h'.goAway (h.goAway hg),
    h'.incoming.trans h.incoming, es ++ es', ?_, ?_⟩
  · have h1 := h.conn
    have h2 := h'.conn
    rw [h1] at h2
    exact h2
  · exact ⟨(h'.header ht).1.trans (h.header ht).1, (h'.header ht).2.trans (h.header ht).2⟩
  · exact ⟨(h'.ledger ht).1.trans (h.ledger ht).1, (h'.ledger ht).2.trans (h.ledger ht).2⟩
  · rw [he', he, List.append_assoc]
  · intro e hmem
    rcases List.mem_append.1 hmem with hmem | hmem
    · exact hc e hmem
    · exact hc' e hmem

theorem activeStreams (h : Quiet t w w') : w'.conn.activeStreams = w.conn.activeStreams := by
  rw [h.conn]

theorem sendSide (h : Quiet t w w') : w'.conn.sendSide = w.conn.sendSide := by
  rw [h.conn]
  rfl

theorem slot (h : Quiet t w w') (i : ℕ) : w'.conn.slot i = w.conn.slot i := by
  unfold Http2Connection.slot
  rw [h.activeStreams]

end Quiet

variable {t : Touch}

theorem sendRaw_quiet (w : Http2World) (hf : f.carriesRequest = false)
    (hu : t ≠ .data → f.type ≠ .windowUpdate) : Quiet t w (sendRaw w [f]).2 := by
  refine ⟨rfl, fun _ => ⟨rfl, rfl⟩, fun _ => ⟨rfl, rfl⟩, id, rfl,
    [.sent [f] (nextAnswer w.sendAnswers)], rfl, ?_⟩
  intro e he
  rw [List.mem_singleton.1 he]
  exact ⟨f, _, rfl, hf, hu⟩

theorem sendGoAway_quiet (w : Http2World) (errorCode : Http2ErrorCode) :
    Quiet t w (sendGoAway w errorCode).2 := by
  unfold sendGoAway
  split
  · exact Quiet.refl w
  · simp only
    generalize (if w.conn.nextStreamId > 2 then w.conn.nextStreamId - 2 else 0) = last
    refine (sendRaw_quiet w (f := goAwayFrame last errorCode.code) rfl
      (by simp [goAwayFrame])).trans ?_
    split
    · exact Quiet.of_conn rfl (fun _ => ⟨rfl, rfl⟩) (fun _ => ⟨rfl, rfl⟩) fun _ => rfl
    · exact Quiet.refl _

theorem encodeRstStream_type {streamId errorCode : ℕ} {g : Http2Frame}
    (h : encodeRstStream streamId errorCode = .ok g) : g.type = .rstStream := by
  unfold encodeRstStream at h
  split at h
  · cases h
  · rw [(encodeFrame_eq h).1]

theorem sendRstStream_quiet (w : Http2World) (streamId : ℕ) (errorCode : Http2ErrorCode) :
    Quiet t w (sendRstStream w streamId errorCode).2 := by
  unfold sendRstStream
  split
  · exact Quiet.refl w
  · next frame h =>
    exact sendRaw_quiet w (by rw [Http2Frame.carriesRequest, encodeRstStream_type h]; rfl)
      fun _ => by rw [encodeRstStream_type h]; exact nofun

theorem updateConnectionWindow_quiet (w : Http2World) :
    Quiet .data w (updateConnectionWindow w).2 := by
  unfold updateConnectionWindow
  simp only
  split
  · split
    · exact Quiet.refl w
    · next frame h =>
      refine (sendRaw_quiet w (f := frame) (by rw [(encodeWindowUpdate_eq h).2.2]; rfl)
        fun h => absurd rfl h).trans ?_
      split
      · exact Quiet.refl _
      · exact Quiet.of_conn rfl (fun _ => ⟨rfl, rfl⟩) (fun h => absurd rfl h) id
  · exact Quiet.refl w

theorem sendWindowUpdateIfNeeded_quiet (w : Http2World) (s : Option Http2Stream) (n : ℕ) :
    Quiet .data w (sendWindowUpdateIfNeeded w s n).2.1 := by
  have hu := updateConnectionWindow_quiet w
  unfold sendWindowUpdateIfNeeded
  generalize updateConnectionWindow w = r at hu ⊢
  obtain ⟨status, w₁⟩ := r
  simp only at hu ⊢
  split
  · exact hu
  · cases s with
    | none => exact hu
    | some s =>
      simp only
      split
      · exact hu
      · split
        · exact hu
        · next frame h =>
          refine hu.trans ((sendRaw_quiet w₁ (f := frame)
            (by rw [(encodeWindowUpdate_eq h).2.2]; rfl) fun h => absurd rfl h).trans ?_)
          split <;> exact Quiet.refl _

/-- The stream that comes back has the identity and the send window it had. -/
theorem sendWindowUpdateIfNeeded_stream (w : Http2World) (s : Http2Stream) (n : ℕ) (b : Bool) :
    let s' := (sendWindowUpdateIfNeeded w (if b then none else some s) n).2.2.getD s
    s'.streamId = s.streamId ∧ s'.remoteWindow = s.remoteWindow ∧ s'.state = s.state := by
  unfold sendWindowUpdateIfNeeded
  generalize updateConnectionWindow w = r
  obtain ⟨status, w₁⟩ := r
  cases b with
  | true =>
    simp only [if_true]
    split <;> exact ⟨rfl, rfl, rfl⟩
  | false =>
    simp only [Bool.false_eq_true, if_false]
    split
    · exact ⟨rfl, rfl, rfl⟩
    · split
      · exact ⟨rfl, rfl, rfl⟩
      · split
        · exact ⟨rfl, rfl, rfl⟩
        · split <;> exact ⟨rfl, rfl, rfl⟩

/-! ## Handlers of a stream's frames -/

/-- A handler that is quiet and keeps the identity and the send window of the
    stream. -/
structure Keeps (t : Touch) (w : Http2World) (a : Http2ActiveStream) (r : Processed) : Prop where
  quiet : Quiet t w r.2.1
  inUse : r.2.2.inUse = a.inUse
  streamId : r.2.2.stream.streamId = a.stream.streamId
  remoteWindow : r.2.2.stream.remoteWindow = a.stream.remoteWindow

/-- A handler that goes on from another world and another slot. -/
theorem Keeps.of_quiet {w w₁ : Http2World} {a₁ : Http2ActiveStream} {r : Processed}
    (h : Keeps t w₁ a₁ r) (hq : Quiet t w w₁) (hu : a₁.inUse = a.inUse)
    (hi : a₁.stream.streamId = a.stream.streamId)
    (hw : a₁.stream.remoteWindow = a.stream.remoteWindow) : Keeps t w a r :=
  ⟨hq.trans h.quiet, h.inUse.trans hu, h.streamId.trans hi, h.remoteWindow.trans hw⟩

section Handlers

variable (w : Http2World) (a : Http2ActiveStream) (f : Http2Frame)

theorem keeps_self (status : NTSTATUS) (st : Http2ResponseFrameState) :
    Keeps t w a (status, w, { a with responseState := st }) := ⟨Quiet.refl w, rfl, rfl, rfl⟩

theorem refuseConnection_keeps (e : Http2ErrorCode) (status : NTSTATUS) :
    Keeps t w a (refuseConnection w a e status) := ⟨sendGoAway_quiet w e, rfl, rfl, rfl⟩

theorem refuseStream_keeps (e : Http2ErrorCode) (status : NTSTATUS) :
    Keeps t w a (refuseStream w a f e status) := ⟨sendRstStream_quiet w f.streamId e, rfl, rfl, rfl⟩

theorem closeAfterHeaders_keeps : Keeps t w a (closeAfterHeaders w a f) := by
  unfold closeAfterHeaders
  simp only
  split
  · split
    · exact (refuseStream_keeps w _ f _ _).of_quiet (Quiet.refl w) rfl rfl rfl
    · exact keeps_self w a _ _
  · exact keeps_self w a _ _

theorem acceptFinalHeaders_keeps (headers : List HttpHeader) (code : ℕ) (len : Option ℕ) :
    Keeps t w a (acceptFinalHeaders w a f headers code len) := by
  unfold acceptFinalHeaders
  simp only
  split
  · exact keeps_self w a _ a.responseState
  · split
    · exact (refuseStream_keeps w _ f _ _).of_quiet (Quiet.refl w) rfl rfl rfl
    · exact (closeAfterHeaders_keeps w _ f).of_quiet (Quiet.refl w) rfl rfl rfl

theorem acceptHeaderBlock_keeps (headers : List HttpHeader) :
    Keeps t w a (acceptHeaderBlock w a f headers) := by
  unfold acceptHeaderBlock
  simp only
  split
  · exact refuseStream_keeps w a f _ _
  · split
    · exact closeAfterHeaders_keeps w a f
    · split
      · split
        · exact refuseStream_keeps w a f _ _
        · exact keeps_self w a _ _
      · exact acceptFinalHeaders_keeps w a f _ _ _

theorem refuseHeaderBlock_keeps (status : NTSTATUS) : Keeps t w a (refuseHeaderBlock w a status) := by
  unfold refuseHeaderBlock
  split
  · exact refuseConnection_keeps w a _ _
  · split
    · exact refuseConnection_keeps w a _ _
    · exact keeps_self w a _ a.responseState

theorem setDecoder_quiet (d : HpackDecoder) :
    Quiet .headers w { w with conn := { w.conn with decoder := d } } :=
  .of_conn rfl (fun h => absurd rfl h) (fun _ => ⟨rfl, rfl⟩) id

theorem finishHeaderBlock_keeps : Keeps .headers w a (finishHeaderBlock w a f) := by
  unfold finishHeaderBlock
  simp only
  split
  · exact (refuseStream_keeps w _ f _ _).of_quiet (Quiet.refl w) rfl (by simp) (by simp)
  · split
    · exact (refuseStream_keeps w _ f _ _).of_quiet (Quiet.refl w) rfl (by simp) (by simp)
    · split
      · exact (refuseHeaderBlock_keeps _ _ _).of_quiet (setDecoder_quiet w _) rfl (by simp) (by simp)
      · exact (acceptHeaderBlock_keeps _ _ f _).of_quiet (setDecoder_quiet w _) rfl (by simp)
          (by simp)

theorem storeFragment_keeps (content : Bytes) : Keeps .headers w a (storeFragment w a f content) := by
  unfold storeFragment
  simp only
  split
  · exact refuseConnection_keeps w a _ _
  · have hq : Quiet .headers w { w with conn := { w.conn with
        responseHeaderBlock := writeAt w.conn.responseHeaderBlock
          a.responseState.responseHeaderBlockLen content } } :=
      .of_conn rfl (fun h => absurd rfl h) (fun _ => ⟨rfl, rfl⟩) id
    split
    · exact (finishHeaderBlock_keeps _ _ f).of_quiet hq rfl rfl rfl
    · split
      · exact (keeps_self _ a _ _).of_quiet hq rfl rfl rfl
      · exact (keeps_self _ a _ _).of_quiet hq rfl rfl rfl

theorem processHeaders_keeps : Keeps .headers w a (processHeaders w a f) := by
  unfold processHeaders
  split
  · simp only
    split
    · exact keeps_self w a _ _
    · exact (storeFragment_keeps w _ f _).of_quiet (Quiet.refl w) rfl rfl rfl
  · exact storeFragment_keeps w a f _

theorem creditData_keeps : Keeps .data w a (creditData w a f) := by
  unfold creditData
  simp only
  set w₁ : Http2World := { w with conn := { w.conn with
    connectionRecvConsumed := w.conn.connectionRecvConsumed + f.payload.length } } with hw₁
  have hq : Quiet .data w w₁ := .of_conn rfl (fun _ => ⟨rfl, rfl⟩) (fun h => absurd rfl h) id
  have hs := sendWindowUpdateIfNeeded_stream w₁ a.stream f.payload.length f.endStream
  have hu := sendWindowUpdateIfNeeded_quiet w₁ (if f.endStream then none else some a.stream)
    f.payload.length
  generalize sendWindowUpdateIfNeeded w₁ (if f.endStream then none else some a.stream)
    f.payload.length = r at hs hu
  obtain ⟨status, w₂, s⟩ := r
  simp only at hs hu ⊢
  have hk : ∀ st status', Keeps .data w a (status', w₂, { a with stream := s.getD a.stream, responseState := st }) :=
    fun st _ => ⟨hq.trans hu, rfl, hs.1, hs.2.1⟩
  split
  · exact hk _ _
  · split
    · split
      · exact (refuseStream_keeps w₂ _ f _ _).of_quiet (hq.trans hu) rfl hs.1 hs.2.1
      · exact hk _ _
    · exact hk _ _

theorem appendData_keeps (content : Bytes) : Keeps .data w a (appendData w a f content) := by
  unfold appendData
  simp only
  split
  · exact keeps_self w a _ a.responseState
  · split
    · exact refuseStream_keeps w a f _ _
    · split
      · exact keeps_self w a _ _
      · exact (creditData_keeps w _ f).of_quiet (Quiet.refl w) rfl rfl rfl

theorem processData_keeps : Keeps .data w a (processData w a f) := by
  unfold processData
  split
  · exact refuseStream_keeps w a f _ _
  · split
    · exact keeps_self w a _ a.responseState
    · split
      · exact refuseStream_keeps w a f _ _
      · simp only
        split
        · exact (refuseStream_keeps w _ f _ _).of_quiet (Quiet.refl w) rfl (by simp) (by simp)
        · split
          · exact (refuseConnection_keeps w _ _ _).of_quiet (Quiet.refl w) rfl (by simp) (by simp)
          · exact (appendData_keeps _ _ f _).of_quiet
              (.of_conn rfl (fun _ => ⟨rfl, rfl⟩) (fun h => absurd rfl h) id) rfl (by simp) (by simp)

end Handlers

/-- What RST_STREAM and WINDOW_UPDATE leave of a slot. -/
inductive StreamChange (f : Http2Frame) (a a' : Http2ActiveStream) : Prop
  | keep (hi : a'.stream.streamId = a.stream.streamId)
      (hw : a'.stream.remoteWindow = a.stream.remoteWindow)
  | credit (increment : ℕ) (hf : f.type = .windowUpdate)
      (hd : decodeWindowUpdatePayload f.payload = .ok increment)
      (hi : a'.stream.streamId = a.stream.streamId)
      (hw : a'.stream.remoteWindow = a.stream.remoteWindow + increment)
      (hle : a'.stream.remoteWindow ≤ http2MaxWindowSize)
  | reset (hf : f.type = .rstStream) (hd : f.payload.length = 4) (hs : a'.stream = {})
      (hc : a'.responseState.streamClosed = true)

theorem processRstStream_change (w : Http2World) (a : Http2ActiveStream) (f : Http2Frame)
    (hf : f.type = .rstStream) :
    Quiet t w (processRstStream w a f).2.1 ∧ (processRstStream w a f).2.2.inUse = a.inUse ∧
      StreamChange f a (processRstStream w a f).2.2 := by
  unfold processRstStream
  split
  · exact ⟨Quiet.refl w, rfl, .keep rfl rfl⟩
  · next code hd =>
    have hlen : f.payload.length = 4 := by
      by_contra hne
      simp [decodeRstStreamPayload, hne] at hd
    exact ⟨Quiet.refl w, rfl, .reset hf hlen rfl rfl⟩

theorem processWindowUpdate_change (w : Http2World) (a : Http2ActiveStream) (f : Http2Frame)
    (hf : f.type = .windowUpdate) :
    Quiet t w (processWindowUpdate w a f).2.1 ∧ (processWindowUpdate w a f).2.2.inUse = a.inUse ∧
      StreamChange f a (processWindowUpdate w a f).2.2 := by
  unfold processWindowUpdate
  split
  · exact ⟨sendRstStream_quiet w _ _, rfl, .keep rfl rfl⟩
  · next increment hd =>
    simp only [Http2Stream.increaseRemoteWindow, Http2Stream.increaseWindow]
    by_cases h0 : increment = 0
    · simp only [h0, if_true, ntSuccess_invalidParameter, Bool.false_eq_true, not_false_eq_true]
      exact ⟨sendRstStream_quiet w _ _, rfl, .keep rfl rfl⟩
    · by_cases hgt : a.stream.remoteWindow > (http2MaxWindowSize : ℤ) - increment
      · simp only [h0, hgt, if_true, if_false, ntSuccess_invalidNetworkResponse,
          Bool.false_eq_true, not_false_eq_true]
        exact ⟨sendRstStream_quiet w _ _, rfl, .keep rfl rfl⟩
      · simp only [h0, hgt, if_false, ntSuccess_success, not_true_eq_false]
        exact ⟨Quiet.refl w, trivial, .credit increment hf hd rfl rfl (by simp only; omega)⟩

/-- **What a frame of a stream changes**: the connection quietly, its own slot as
    `StreamChange` says. -/
theorem processResponseFrame_change (w : Http2World) (a : Http2ActiveStream) (f : Http2Frame) :
    Quiet f.type.touch w (processResponseFrame w a f).2.1 ∧
      (processResponseFrame w a f).2.2.inUse = a.inUse ∧
      StreamChange f a (processResponseFrame w a f).2.2 := by
  unfold processResponseFrame
  simp only
  generalize continuationGate a.responseState f = g
  have hk : ∀ {r : Processed}, Keeps f.type.touch w { a with responseState := g.2 } r →
      Quiet f.type.touch w r.2.1 ∧ r.2.2.inUse = a.inUse ∧ StreamChange f a r.2.2 :=
    fun h => ⟨h.quiet, h.inUse, .keep h.streamId h.remoteWindow⟩
  have hc : ∀ {a' : Http2ActiveStream}, StreamChange f { a with responseState := g.2 } a' →
      StreamChange f a a' := by
    intro a' h
    cases h with
    | keep hi hw => exact .keep hi hw
    | credit n hf hd hi hw hle => exact .credit n hf hd hi hw hle
    | reset hf hd hs hcl => exact .reset hf hd hs hcl
  split
  · exact hk (refuseConnection_keeps w _ _ _)
  · split
    · next hf => exact hk (by rw [hf]; exact processHeaders_keeps w _ f)
    · next hf => exact hk (by rw [hf]; exact processHeaders_keeps w _ f)
    · next hf => exact hk (by rw [hf]; exact processData_keeps w _ f)
    · next hf =>
      obtain ⟨hq, hu, h⟩ := processRstStream_change w { a with responseState := g.2 } f hf
      exact ⟨hq, hu, hc h⟩
    · next hf =>
      obtain ⟨hq, hu, h⟩ := processWindowUpdate_change w { a with responseState := g.2 } f hf
      exact ⟨hq, hu, hc h⟩
    · exact hk (keeps_self w _ _ _)

theorem processResponseFrame_quiet (w : Http2World) (a : Http2ActiveStream) (f : Http2Frame) :
    Quiet f.type.touch w (processResponseFrame w a f).2.1 := (processResponseFrame_change w a f).1

/-! ## Header blocks -/

/-- What a frame does to the header block of a slot: it is not open behind the frame,
    or it stays open, or HEADERS opens it. -/
inductive BlockChange (f : Http2Frame) (a a' : Http2ActiveStream) : Prop
  | closed (h : a'.responseState.expectingContinuation = false)
  | kept (h : a.responseState.expectingContinuation = true)
      (hc : a'.responseState.continuationStreamId = a.responseState.continuationStreamId)
      (hs : a'.stream.streamId = a.stream.streamId)
  | opened (hf : f.type = .headers)
      (hc : a'.responseState.continuationStreamId = f.streamId)
      (hs : a'.stream.streamId = a.stream.streamId)

/-- A slot whose header block stays as it is. -/
theorem BlockChange.of_eq
    (h : a'.responseState.expectingContinuation = a.responseState.expectingContinuation)
    (hc : a'.responseState.continuationStreamId = a.responseState.continuationStreamId)
    (hs : a'.stream.streamId = a.stream.streamId) : BlockChange f a a' := by
  cases hopen : a.responseState.expectingContinuation with
  | false => exact .closed (h.trans hopen)
  | true => exact .kept hopen hc hs

theorem continuationGate_spec (st : Http2ResponseFrameState) (f : Http2Frame) :
    (continuationGate st f).2.expectingContinuation = st.expectingContinuation ∧
      (continuationGate st f).2.continuationStreamId = st.continuationStreamId ∧
      ((continuationGate st f).1 = true → st.expectingContinuation = (f.type == .continuation)) := by
  unfold continuationGate
  by_cases hf : f.type = .continuation
  · rw [if_pos hf]
    split
    · exact ⟨rfl, rfl, fun h => absurd h Bool.false_ne_true⟩
    · next h =>
      rw [not_or, not_not] at h
      have hopen : st.expectingContinuation = (f.type == .continuation) := by simp [hf, h.1]
      simp only
      split
      · exact ⟨rfl, rfl, fun _ => hopen⟩
      · split
        · exact ⟨rfl, rfl, fun _ => hopen⟩
        · exact ⟨rfl, rfl, fun _ => hopen⟩
  · rw [if_neg hf]
    have hne : (f.type == .continuation) = false := by simpa using hf
    refine ⟨rfl, rfl, fun h => ?_⟩
    rw [hne]
    simpa using h

theorem continuationGate_closed {st : Http2ResponseFrameState}
    (h : st.expectingContinuation = true) (hf : f.type ≠ .continuation) :
    continuationGate st f = (false, st) := by
  unfold continuationGate
  rw [if_neg hf, h]
  rfl

section Blocks

variable (w : Http2World) (a : Http2ActiveStream) (f : Http2Frame)

theorem closeAfterHeaders_expecting :
    (closeAfterHeaders w a f).2.2.responseState.expectingContinuation =
      a.responseState.expectingContinuation := by
  unfold closeAfterHeaders
  simp only
  split
  · split <;> rfl
  · rfl

theorem acceptHeaderBlock_expecting (headers : List HttpHeader) :
    (acceptHeaderBlock w a f headers).2.2.responseState.expectingContinuation =
      a.responseState.expectingContinuation := by
  unfold acceptHeaderBlock acceptFinalHeaders
  simp only
  split
  · rfl
  · split
    · exact closeAfterHeaders_expecting w a f
    · split
      · split <;> rfl
      · split
        · rfl
        · split
          · rfl
          · exact closeAfterHeaders_expecting w _ f

theorem finishHeaderBlock_expecting :
    (finishHeaderBlock w a f).2.2.responseState.expectingContinuation = false := by
  unfold finishHeaderBlock
  simp only
  split
  · rfl
  · split
    · rfl
    · split
      · unfold refuseHeaderBlock
        split
        · rfl
        · split <;> rfl
      · exact acceptHeaderBlock_expecting _ _ f _

theorem storeFragment_block (content : Bytes) :
    BlockChange f a (storeFragment w a f content).2.2 := by
  unfold storeFragment
  simp only
  split
  · exact .of_eq rfl rfl rfl
  · split
    · exact .closed (finishHeaderBlock_expecting _ _ f)
    · split
      · next hf => exact .opened hf rfl rfl
      · exact .of_eq rfl rfl rfl

theorem processHeaders_block : BlockChange f a (processHeaders w a f).2.2 := by
  unfold processHeaders
  split
  · simp only
    split
    · exact .of_eq rfl rfl rfl
    · next content _ =>
      cases storeFragment_block w { a with responseState := { a.responseState with
        pendingHeaderEndStream := f.endStream } } f content with
      | closed h => exact .closed h
      | kept h hc hs => exact .kept h hc hs
      | opened hf hc hs => exact .opened hf hc hs
  · exact storeFragment_block w a f f.payload

theorem creditData_expecting : (creditData w a f).2.2.responseState.expectingContinuation =
    a.responseState.expectingContinuation := by
  unfold creditData
  simp only
  generalize sendWindowUpdateIfNeeded _ _ _ = r
  obtain ⟨status, w', stream⟩ := r
  simp only
  split
  · rfl
  · split
    · split <;> rfl
    · rfl

theorem processData_expecting : (processData w a f).2.2.responseState.expectingContinuation =
    a.responseState.expectingContinuation := by
  unfold processData appendData
  simp only
  split
  · rfl
  · split
    · rfl
    · split
      · rfl
      · split
        · rfl
        · split
          · rfl
          · split
            · rfl
            · split
              · rfl
              · split
                · rfl
                · exact creditData_expecting _ _ f

theorem processRstStream_expecting :
    (processRstStream w a f).2.2.responseState.expectingContinuation =
      a.responseState.expectingContinuation := by
  unfold processRstStream
  split <;> rfl

theorem processWindowUpdate_expecting :
    (processWindowUpdate w a f).2.2.responseState.expectingContinuation =
      a.responseState.expectingContinuation := by
  unfold processWindowUpdate
  split
  · rfl
  · simp only
    split <;> rfl

end Blocks

/-- **What a frame of a stream does to its header block.** -/
theorem processResponseFrame_block (w : Http2World) (a : Http2ActiveStream) (f : Http2Frame) :
    BlockChange f a (processResponseFrame w a f).2.2 := by
  obtain ⟨hopen, hid, hpass⟩ := continuationGate_spec a.responseState f
  unfold processResponseFrame
  generalize continuationGate a.responseState f = g at hopen hid hpass
  obtain ⟨ok, st⟩ := g
  simp only at hopen hid hpass ⊢
  cases ok with
  | false => exact .of_eq hopen hid rfl
  | true =>
    simp only [not_true_eq_false, if_false]
    have hheaders : BlockChange f a (processHeaders w { a with responseState := st } f).2.2 := by
      cases processHeaders_block w { a with responseState := st } f with
      | closed h => exact .closed h
      | kept h hc hs => exact .kept (hopen.symm.trans h) (hc.trans hid) hs
      | opened hf hc hs => exact .opened hf hc hs
    -- other frames come only while no block is open
    have hclosed : f.type ≠ .continuation → st.expectingContinuation = false := by
      intro hf
      rw [hopen, hpass rfl]
      simpa using hf
    split
    · exact hheaders
    · exact hheaders
    · next hf => exact .closed ((processData_expecting w _ f).trans (hclosed (by simp [hf])))
    · next hf => exact .closed ((processRstStream_expecting w _ f).trans (hclosed (by simp [hf])))
    · next hf => exact .closed ((processWindowUpdate_expecting w _ f).trans (hclosed (by simp [hf])))
    · next h1 h2 h3 h4 h5 => exact .closed (hclosed h2)

/-! ## Connection frames -/

/-- The slots differ in their send windows at most. -/
def SameSlot (a a' : Http2ActiveStream) : Prop :=
  a' = { a with stream := { a.stream with remoteWindow := a'.stream.remoteWindow } }

theorem SameSlot.refl (a : Http2ActiveStream) : SameSlot a a := rfl

theorem SameSlot.trans {a'' : Http2ActiveStream} (h : SameSlot a a') (h' : SameSlot a' a'') :
    SameSlot a a'' := by
  unfold SameSlot at h h' ⊢
  rw [h] at h'
  exact h'

theorem SameSlot.inUse (h : SameSlot a a') : a'.inUse = a.inUse := by
  rw [h]

theorem SameSlot.streamId (h : SameSlot a a') :
    a'.stream.streamId = a.stream.streamId := by rw [h]

theorem SameSlot.responseState (h : SameSlot a a') :
    a'.responseState = a.responseState := by rw [h]

/-- What a connection frame leaves alone. -/
structure Calm (w w' : Http2World) : Prop where
  conn : w'.conn = { w.conn with
    peerSettings := w'.conn.peerSettings
    connectionSendWindow := w'.conn.connectionSendWindow
    connectionControlSignals := w'.conn.connectionControlSignals
    goAwaySent := w'.conn.goAwaySent
    goAwayReceived := w'.conn.goAwayReceived
    goAwayLastStreamId := w'.conn.goAwayLastStreamId
    settingsAckReceived := w'.conn.settingsAckReceived
    encoder := w'.conn.encoder
    activeStreams := w'.conn.activeStreams }
  streams : List.Forall₂ SameSlot w.conn.activeStreams w'.conn.activeStreams
  goAway : w.conn.goAwaySent = true → w'.conn.goAwaySent = true
  incoming : w'.incoming = w.incoming
  events : ∃ es, w'.events = w.events ++ es ∧ ∀ e ∈ es, e.IsControl .nothing

namespace Calm

variable {w w' w'' : Http2World}

theorem slots_trans : ∀ {l l' l'' : List Http2ActiveStream}, List.Forall₂ SameSlot l l' →
    List.Forall₂ SameSlot l' l'' → List.Forall₂ SameSlot l l''
  | _, _, _, .nil, .nil => .nil
  | _, _, _, .cons h hs, .cons h' hs' => .cons (h.trans h') (slots_trans hs hs')

theorem trans (h : Calm w w') (h' : Calm w' w'') : Calm w w'' := by
  obtain ⟨es, he, hc⟩ := h.events
  obtain ⟨es', he', hc'⟩ := h'.events
  refine ⟨?_, ?_, fun hg => h'.goAway (h.goAway hg), h'.incoming.trans h.incoming, es ++ es', ?_, ?_⟩
  · have h1 := h.conn
    have h2 := h'.conn
    rw [h1] at h2
    exact h2
  · exact slots_trans h.streams h'.streams
  · rw [he', he, List.append_assoc]
  · intro e hmem
    rcases List.mem_append.1 hmem with hmem | hmem
    · exact hc e hmem
    · exact hc' e hmem

/-- Only the connection changes, and only fields that may. -/
theorem of_conn (w : Http2World) (c : Http2Connection) (hc : c = { w.conn with
      peerSettings := c.peerSettings
      connectionSendWindow := c.connectionSendWindow
      connectionControlSignals := c.connectionControlSignals
      goAwaySent := c.goAwaySent
      goAwayReceived := c.goAwayReceived
      goAwayLastStreamId := c.goAwayLastStreamId
      settingsAckReceived := c.settingsAckReceived
      encoder := c.encoder
      activeStreams := c.activeStreams })
    (hs : List.Forall₂ SameSlot w.conn.activeStreams c.activeStreams)
    (hg : c.goAwaySent = w.conn.goAwaySent) : Calm w { w with conn := c } :=
  ⟨hc, hs, fun h => hg.trans h, rfl, [], by simp, by simp⟩

theorem slots_refl (l : List Http2ActiveStream) : List.Forall₂ SameSlot l l :=
  List.forall₂_same.2 fun a _ => SameSlot.refl a

theorem refl (w : Http2World) : Calm w w := of_conn w w.conn rfl (slots_refl _) rfl

end Calm

theorem sendRaw_calm (w : Http2World) (hf : f.carriesRequest = false)
    (hu : f.type ≠ .windowUpdate) : Calm w (sendRaw w [f]).2 :=
  ⟨rfl, Calm.slots_refl _, id, rfl, (sendRaw_quiet w hf fun _ => hu).events⟩

theorem sendGoAway_calm (w : Http2World) (e : Http2ErrorCode) : Calm w (sendGoAway w e).2 := by
  have h : Quiet .nothing w _ := sendGoAway_quiet w e
  have hc : (sendGoAway w e).2.conn =
      { w.conn with goAwaySent := (sendGoAway w e).2.conn.goAwaySent } := by
    unfold sendGoAway
    split
    · rfl
    · simp only
      generalize (if w.conn.nextStreamId > 2 then w.conn.nextStreamId - 2 else 0) = last
      split <;> rfl
  refine ⟨?_, ?_, h.goAway, h.incoming, h.events⟩
  · rw [hc]
  · rw [hc]
    exact Calm.slots_refl _

theorem refuse_calm (w : Http2World) (e : Http2ErrorCode) (status : NTSTATUS) :
    Calm w (refuse w e status).2 := sendGoAway_calm w e

theorem adjustRemoteWindow_sameSlot (a : Http2ActiveStream) (delta : ℤ) :
    SameSlot a { a with stream := (a.stream.adjustRemoteWindow delta).2 } := by
  unfold SameSlot Http2Stream.adjustRemoteWindow
  split <;> rfl

theorem adjustLoop_sameSlot (delta : ℤ) : ∀ l : List Http2ActiveStream,
    List.Forall₂ SameSlot l (Http2Connection.adjustLoop delta l).2
  | [] => .nil
  | a :: rest => by
    have ih := adjustLoop_sameSlot delta rest
    unfold Http2Connection.adjustLoop
    split
    · exact .cons (SameSlot.refl a) ih
    · simp only
      split
      · exact Calm.slots_refl _
      · exact .cons (adjustRemoteWindow_sameSlot a delta) ih

theorem adjustActiveStreamRemoteWindows_calm (w : Http2World) (delta : ℤ) :
    Calm w { w with conn := (w.conn.adjustActiveStreamRemoteWindows delta).2 } := by
  unfold Http2Connection.adjustActiveStreamRemoteWindows
  split
  · exact Calm.refl w
  · exact Calm.of_conn w _ rfl (adjustLoop_sameSlot delta _) rfl

theorem applySettings_calm (w : Http2World) (f : Http2Frame) : Calm w (applySettings w f).2 := by
  unfold applySettings
  simp only
  split
  · exact refuse_calm w _ _
  · generalize decodeSettingsPayload f.payload w.conn.peerSettings = r
    obtain ⟨status, peerSettings⟩ := r
    simp only
    have h₁ : Calm w { w with conn := { w.conn with peerSettings } } :=
      Calm.of_conn w _ rfl (Calm.slots_refl _) rfl
    split
    · exact h₁.trans (refuse_calm _ _ _)
    · set w₂ : Http2World := { w with conn := { w.conn with
        peerSettings, encoder := w.conn.encoder.updateMaxTableSize peerSettings.headerTableSize } }
      have h₂ : Calm w w₂ := Calm.of_conn w _ rfl (Calm.slots_refl _) rfl
      have h₃ := h₂.trans (adjustActiveStreamRemoteWindows_calm w₂
        ((peerSettings.initialWindowSize : ℤ) - w.conn.peerSettings.initialWindowSize))
      split
      · exact h₃.trans (refuse_calm _ _ _)
      · exact h₃.trans (sendRaw_calm _ rfl (by simp [settingsAck]))

theorem handleConnectionFrame_calm (w : Http2World) (f : Http2Frame) (s : Option ℕ) :
    Calm w (handleConnectionFrame w f s).2 := by
  unfold handleConnectionFrame
  split
  · exact refuse_calm w _ _
  · split
    · exact refuse_calm w _ _
    · simp only
      set w₁ : Http2World := if isConnectionControlSignal f.type = true then
        { w with conn := { w.conn with
          connectionControlSignals := w.conn.connectionControlSignals + 1 } } else w with hw₁
      have h₁ : Calm w w₁ := by
        rw [hw₁]
        split
        · exact Calm.of_conn w _ rfl (Calm.slots_refl _) rfl
        · exact Calm.refl w
      refine h₁.trans ?_
      split
      · unfold handleSettings
        split
        · split
          · exact refuse_calm _ _ _
          · exact Calm.of_conn w₁ _ rfl (Calm.slots_refl _) rfl
        · exact applySettings_calm w₁ f
      · unfold handlePing
        split
        · exact refuse_calm _ _ _
        · split
          · exact Calm.refl _
          · exact sendRaw_calm _ rfl (by simp [pingFrame])
      · unfold handleGoAway
        split
        · exact Calm.refl _
        · simp only
          split
          · exact Calm.of_conn w₁ _ rfl (Calm.slots_refl _) rfl
          · split <;> exact Calm.of_conn w₁ _ rfl (Calm.slots_refl _) rfl
      · unfold handleWindowUpdate
        split
        · exact refuse_calm _ _ _
        · split
          · exact refuse_calm _ _ _
          · exact Calm.of_conn w₁ _ rfl (Calm.slots_refl _) rfl
      · exact refuse_calm _ _ _
      · exact refuse_calm _ _ _
      · exact refuse_calm _ _ _
      · exact refuse_calm _ _ _
      · exact Calm.refl _

/-! ## Frames that change a slot -/

/-- A step that is quiet but for one slot, which becomes `a`. -/
structure SlotStep (t : Touch) (w w' : Http2World) (i : ℕ) (a : Http2ActiveStream) : Prop where
  quiet : Quiet t w { w' with conn := { w'.conn with activeStreams := w.conn.activeStreams } }
  activeStreams : w'.conn.activeStreams = w.conn.activeStreams.set i a

namespace SlotStep

variable {w w' w'' : Http2World} {i : ℕ} {a : Http2ActiveStream}

theorem of_quiet (h : Quiet t w w') (i : ℕ) (a : Http2ActiveStream) :
    SlotStep t w { w' with conn := w'.conn.setSlot i a } i a := by
  have ha := h.activeStreams
  refine ⟨?_, ?_⟩
  · have he : ({ w' with conn := { w'.conn.setSlot i a with
        activeStreams := w.conn.activeStreams } } : Http2World) = w' := by
      rw [← ha]
      rfl
    rw [he]
    exact h
  · simp only [Http2Connection.setSlot, ha]

theorem trans_quiet (h : SlotStep t w w' i a) (h' : Quiet t w' w'') : SlotStep t w w'' i a := by
  refine ⟨h.quiet.trans ⟨?_, h'.header, h'.ledger, h'.goAway, h'.incoming, h'.events⟩,
    h'.activeStreams.trans h.activeStreams⟩
  rw [h'.conn]

theorem sendSide (h : SlotStep t w w' i a) : w'.conn.sendSide = w.conn.sendSide := h.quiet.sendSide

theorem setSlot (h : SlotStep t w w' i a) (a' : Http2ActiveStream) :
    SlotStep t w { w' with conn := w'.conn.setSlot i a' } i a' := by
  refine ⟨h.quiet, ?_⟩
  simp only [Http2Connection.setSlot]
  rw [h.activeStreams, List.set_set]

end SlotStep

theorem processSlot_slotStep (w : Http2World) (i : ℕ) (f : Http2Frame) :
    SlotStep f.type.touch w (processSlot w i f).2 i (processResponseFrame w (w.conn.slot i) f).2.2 :=
  .of_quiet (processResponseFrame_quiet w (w.conn.slot i) f) i _

/-- A DATA frame of a tunnel changes the receive side of its slot only. -/
theorem tunnelData_slotStep (w : Http2World) (i capacity : ℕ) (f : Http2Frame)
    (hi : i < w.conn.activeStreams.length) :
    ∃ s : Http2Stream,
      SlotStep .data w (tunnelData w i capacity f).1 i { w.conn.slot i with stream := s } ∧
      s.streamId = (w.conn.slot i).stream.streamId ∧
      s.remoteWindow = (w.conn.slot i).stream.remoteWindow := by
  have hself : w.conn.activeStreams.set i (w.conn.slot i) = w.conn.activeStreams := by
    simp [Http2Connection.slot, List.getD_eq_getElem?_getD, hi]
  have hsame : SlotStep .data w w i (w.conn.slot i) := ⟨Quiet.refl w, hself.symm⟩
  have hset : ∀ s, SlotStep .data w (setStream w i s) i { w.conn.slot i with stream := s } :=
    fun s => .of_quiet (Quiet.refl w) i _
  unfold tunnelData
  split
  · exact ⟨_, hsame, rfl, rfl⟩
  · split
    · exact ⟨_, hsame, rfl, rfl⟩
    · have hid := Http2Stream.receiveData_streamId (w.conn.slot i).stream f.payload.length f.endStream
      have hrw := Http2Stream.receiveData_remoteWindow (w.conn.slot i).stream f.payload.length
        f.endStream
      generalize (w.conn.slot i).stream.receiveData f.payload.length f.endStream = r at hid hrw ⊢
      obtain ⟨status, stream⟩ := r
      simp only at hid hrw ⊢
      split
      · exact ⟨stream, (hset stream).trans_quiet (sendRstStream_quiet _ _ _), hid, hrw⟩
      · split
        · exact ⟨stream, (hset stream).trans_quiet (sendGoAway_quiet _ _), hid, hrw⟩
        · set w₁ : Http2World := { setStream w i stream with conn := {
            (setStream w i stream).conn with
              connectionRecvWindow := (setStream w i stream).conn.connectionRecvWindow -
                f.payload.length
              connectionRecvConsumed := (setStream w i stream).conn.connectionRecvConsumed +
                f.payload.length } } with hw₁
          have h₁ : SlotStep .data w w₁ i { w.conn.slot i with stream } :=
            (hset stream).trans_quiet
              (.of_conn rfl (fun _ => ⟨rfl, rfl⟩) (fun h => absurd rfl h) id)
          have hs := sendWindowUpdateIfNeeded_stream w₁ stream f.payload.length f.endStream
          have hq := sendWindowUpdateIfNeeded_quiet w₁ (if f.endStream then none else some stream)
            f.payload.length
          generalize sendWindowUpdateIfNeeded w₁ (if f.endStream then none else some stream)
            f.payload.length = r at hs hq ⊢
          obtain ⟨status', w₂, stream'⟩ := r
          simp only at hs hq ⊢
          have h₂ := h₁.trans_quiet hq
          have hslot : w₂.conn.slot i = { w.conn.slot i with stream } := by
            simp only [Http2Connection.slot, h₂.activeStreams]
            simp [List.getD_eq_getElem?_getD, hi]
          refine ⟨stream'.getD stream, ?_, hs.1.trans hid, hs.2.1.trans hrw⟩
          have h₃ := h₂.setSlot { w₂.conn.slot i with stream := stream'.getD stream }
          rw [hslot] at h₃
          unfold setStream
          rw [hslot]
          exact h₃

end KernelHttp.Http2
