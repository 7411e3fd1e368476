/-
  The receive window of a connection.

  A DATA frame is accounted for, it is a connection error, or it is lost (`readerVerdict`).
-/
import KernelHttp.Http2.Runs

namespace KernelHttp.Http2

/-! ## The window the peer sees -/

def Http2Event.dataReceived : Http2Event → ℕ
  | .received f _ _ => if f.type = .data then f.payload.length else 0
  | .sent _ _ => 0

/-- What a frame that is sent adds to the window of the connection. -/
def Http2Frame.connectionCredit (f : Http2Frame) : ℕ :=
  if f.type = .windowUpdate ∧ f.streamId = 0 then readUint32BE f.payload else 0

/-- What a call of `Send` adds to the window of the connection. -/
def Http2Event.windowCredit : Http2Event → ℕ
  | .sent frames status =>
    if ntSuccess status then (frames.map Http2Frame.connectionCredit).sum else 0
  | .received _ _ _ => 0

def dataReceived (events : List Http2Event) : ℕ := (events.map Http2Event.dataReceived).sum

def creditSent (events : List Http2Event) : ℕ := (events.map Http2Event.windowCredit).sum

def peerWindow (events : List Http2Event) : ℤ :=
  (http2InitialWindowSize : ℤ) - dataReceived events + creditSent events

/-- The window and the octets consumed make up the initial window, and the window is
    the one the peer sees. -/
def WindowConserved (w : Http2World) : Prop :=
  w.conn.connectionRecvWindow + w.conn.connectionRecvConsumed = (http2InitialWindowSize : ℤ) ∧
    w.conn.connectionRecvWindow = peerWindow w.events

/-! ## DATA frames that are lost -/

/-- What becomes of a DATA frame. -/
inductive DataVerdict where
  | accounted
  | connectionError
  | lost
deriving DecidableEq

/-- The checks on a DATA frame in `ProcessResponseFrame`. -/
def dataVerdict (c : Http2Connection) (a : Http2ActiveStream) (f : Http2Frame) : DataVerdict :=
  let st := a.responseState
  if st.expectingContinuation then .connectionError
  else if ¬ st.responseHeadersReceived then .lost
  else
    match stripPadding f with
    | .error _ => .lost
    | .ok content =>
      if st.responseBodyForbidden then .lost
      else if ¬ ntSuccess (a.stream.receiveData f.payload.length f.endStream).1 then .lost
      else if exceedsConnectionWindow c f.payload.length then .connectionError
      else if st.bodyLength > maxSizeT - content.length then .lost
      else if st.responseContentLength.any fun n => st.bodyLength + content.length > n then .lost
      else if ¬ ntSuccess (nextAnswer st.sinkAnswers) then .lost
      else .accounted

/-- The checks on a DATA frame in `ReceiveStreamData`. -/
def tunnelVerdict (c : Http2Connection) (a : Http2ActiveStream) (bufferCapacity : ℕ)
    (f : Http2Frame) : DataVerdict :=
  match stripPadding f with
  | .error _ => .lost
  | .ok content =>
    if content.length > bufferCapacity then .lost
    else if ¬ ntSuccess (a.stream.receiveData f.payload.length f.endStream).1 then .lost
    else if exceedsConnectionWindow c f.payload.length then .connectionError
    else .accounted

def readerVerdict (c : Http2Connection) (reader : Http2Reader) (f : Http2Frame) : DataVerdict :=
  if ¬ isValidFrameTarget f then .connectionError
  else
    match reader with
    | .dispatch =>
      if breaksContinuation c f then .connectionError
      else
        match c.findActiveStream f.streamId with
        | none => .lost
        | some i => dataVerdict c (c.slot i) f
    | .single a =>
      if breaksSingleContinuation a.responseState f then .connectionError
      else if f.streamId ≠ a.stream.streamId then .lost
      else dataVerdict c a f
    | .tunnel streamId i bufferCapacity =>
      if f.streamId ≠ streamId then
        match c.findActiveStream f.streamId with
        | none => .lost
        | some j => dataVerdict c (c.slot j) f
      else tunnelVerdict c (c.slot i) bufferCapacity f

/-- No DATA is lost, and the transport takes every GOAWAY. -/
def Http2Event.KeepsWindow : Http2Event → Prop
  | .received f reader c => f.type = .data → readerVerdict c reader f ≠ .lost
  | .sent frames status => (∃ f ∈ frames, f.type = .goAway) → ntSuccess status = true

instance : ∀ e : Http2Event, Decidable e.KeepsWindow
  | .received f reader c =>
    inferInstanceAs (Decidable (f.type = .data → readerVerdict c reader f ≠ .lost))
  | .sent frames status =>
    inferInstanceAs (Decidable ((∃ f ∈ frames, f.type = .goAway) → ntSuccess status = true))

/-! ## Balanced steps -/

/-- The windows account for `n` octets of DATA. -/
structure Balanced (n : ℕ) (w w' : Http2World) : Prop where
  window : w'.conn.connectionRecvWindow - creditSent w'.events =
    w.conn.connectionRecvWindow - creditSent w.events - n
  consumed : w'.conn.connectionRecvWindow + w'.conn.connectionRecvConsumed =
    w.conn.connectionRecvWindow + w.conn.connectionRecvConsumed
  data : dataReceived w'.events = dataReceived w.events

namespace Balanced

variable {n m : ℕ} {w w' w'' : Http2World}

theorem trans (h : Balanced n w w') (h' : Balanced m w' w'') : Balanced (n + m) w w'' := by
  refine ⟨?_, h'.consumed.trans h.consumed, h'.data.trans h.data⟩
  rw [h'.window, h.window]
  push_cast
  ring

theorem refl (w : Http2World) : Balanced 0 w w := ⟨by simp, rfl, rfl⟩

/-- Events without DATA and without credit. -/
theorem of_events {E : List Http2Event} (he : w'.events = w.events ++ E)
    (hes : ∀ e ∈ E, e.dataReceived = 0 ∧ e.windowCredit = 0)
    (hw : w'.conn.connectionRecvWindow = w.conn.connectionRecvWindow)
    (hc : w'.conn.connectionRecvConsumed = w.conn.connectionRecvConsumed) : Balanced 0 w w' := by
  have hd : (E.map Http2Event.dataReceived).sum = 0 :=
    List.sum_eq_zero fun x hx => by
      obtain ⟨e, he, rfl⟩ := List.mem_map.1 hx
      exact (hes e he).1
  have hcr : (E.map Http2Event.windowCredit).sum = 0 :=
    List.sum_eq_zero fun x hx => by
      obtain ⟨e, he, rfl⟩ := List.mem_map.1 hx
      exact (hes e he).2
  refine ⟨?_, by rw [hw, hc], ?_⟩
  · simp only [creditSent, he, List.map_append, List.sum_append, hcr, hw]
    simp
  · simp only [dataReceived, he, List.map_append, List.sum_append, hd, Nat.add_zero]

theorem of_eq (he : w'.events = w.events)
    (hw : w'.conn.connectionRecvWindow = w.conn.connectionRecvWindow)
    (hc : w'.conn.connectionRecvConsumed = w.conn.connectionRecvConsumed) : Balanced 0 w w' :=
  of_events (E := []) (by simp [he]) (by simp) hw hc

theorem conserved (h : Balanced 0 w w') (hw : WindowConserved w) : WindowConserved w' := by
  refine ⟨h.consumed.trans hw.1, ?_⟩
  have h1 := h.window
  have h2 := hw.2
  unfold peerWindow at h2 ⊢
  rw [h.data]
  omega

end Balanced

variable {a : Http2ActiveStream} {f : Http2Frame} {w w' : Http2World} {frames : List Http2Frame}
    {t : Touch} {i : ℕ}

theorem control_uncredited {e : Http2Event} (h : e.IsControl t) (ht : t ≠ .data) :
    e.dataReceived = 0 ∧ e.windowCredit = 0 := by
  obtain ⟨f, status, rfl, -, hu⟩ := h
  refine ⟨rfl, ?_⟩
  simp [Http2Event.windowCredit, Http2Frame.connectionCredit, hu ht]

theorem Quiet.balanced (h : Quiet t w w') (ht : t ≠ .data) :
    Balanced 0 w w' := by
  obtain ⟨es, he, hc⟩ := h.events
  exact .of_events he (fun e hm => control_uncredited (hc e hm) ht) (h.ledger ht).1 (h.ledger ht).2

theorem Calm.balanced (h : Calm w w') : Balanced 0 w w' := by
  obtain ⟨es, he, hc⟩ := h.events
  exact .of_events he (fun e hm => control_uncredited (hc e hm) (by decide)) (by rw [h.conn])
    (by rw [h.conn])

theorem SlotStep.balanced (h : SlotStep t w w' i a) (ht : t ≠ .data) : Balanced 0 w w' := by
  have hb := h.quiet.balanced ht
  exact ⟨hb.window, hb.consumed, hb.data⟩

theorem FrameEffect.balanced (h : FrameEffect w f w') (hf : f.type ≠ .data) : Balanced 0 w w' := by
  have ht : f.type.touch ≠ .data := by
    intro ht
    unfold Http2FrameType.touch at ht
    split at ht <;> simp_all
  cases h with
  | quiet h => exact h.balanced ht
  | calm h _ => exact h.balanced
  | slot i a _ _ h _ _ => exact h.balanced ht

/-! ## DATA that is accounted for -/

theorem connectionCredit_windowUpdate {streamId increment : ℕ} {g : Http2Frame}
    (h : encodeWindowUpdate streamId increment = .ok g) :
    g.connectionCredit = if streamId = 0 then increment else 0 := by
  obtain ⟨-, hmax, rfl⟩ := encodeWindowUpdate_eq h
  unfold Http2Frame.connectionCredit
  have hlt : increment < 2 ^ 32 := by
    simp only [http2MaxWindowSize] at hmax
    omega
  have hread := readUint32BE_writeUint32BE hlt []
  rw [List.append_nil] at hread
  simp only [hread, true_and]

theorem creditSent_append (events : List Http2Event) (e : Http2Event) :
    creditSent (events ++ [e]) = creditSent events + e.windowCredit := by
  simp [creditSent]

theorem dataReceived_append (events : List Http2Event) (e : Http2Event) :
    dataReceived (events ++ [e]) = dataReceived events + e.dataReceived := by
  simp [dataReceived]

theorem updateConnectionWindow_balanced (w : Http2World) :
    Balanced 0 w (updateConnectionWindow w).2 := by
  unfold updateConnectionWindow
  simp only
  split
  · split
    · exact .refl w
    · next frame h =>
      have hcredit := connectionCredit_windowUpdate h
      rw [if_pos rfl] at hcredit
      split
      · next hn =>
        have hn : ¬ ntSuccess (nextAnswer w.sendAnswers) = true := hn
        refine .of_events (E := [.sent [frame] (nextAnswer w.sendAnswers)]) rfl ?_ rfl rfl
        intro e he
        rw [List.mem_singleton.1 he]
        exact ⟨rfl, by simp only [Http2Event.windowCredit, if_neg hn]⟩
      · next hn =>
        have hn : ntSuccess (nextAnswer w.sendAnswers) = true := not_not.1 hn
        refine ⟨?_, ?_, ?_⟩
        · simp only [sendRaw, creditSent_append, Http2Event.windowCredit, hn, if_true, List.map_cons,
            List.map_nil, List.sum_cons, List.sum_nil, hcredit]
          push_cast
          ring
        · simp
        · simp [sendRaw, dataReceived_append, Http2Event.dataReceived]
  · exact .refl w

theorem sendWindowUpdateIfNeeded_balanced (w : Http2World) (s : Option Http2Stream) (n : ℕ)
    (hs : ∀ stream ∈ s, stream.streamId ≠ 0) :
    Balanced 0 w (sendWindowUpdateIfNeeded w s n).2.1 := by
  have hu := updateConnectionWindow_balanced w
  unfold sendWindowUpdateIfNeeded
  generalize updateConnectionWindow w = r at hu ⊢
  obtain ⟨status, w₁⟩ := r
  simp only at hu ⊢
  split
  · exact hu
  · cases s with
    | none => exact hu
    | some s =>
      simp only
      split
      · exact hu
      · split
        · exact hu
        · next frame h =>
          have hcredit := connectionCredit_windowUpdate h
          rw [if_neg (hs s rfl)] at hcredit
          have hsend : Balanced 0 w₁ (sendRaw w₁ [frame]).2 := by
            refine .of_events (E := [.sent [frame] (nextAnswer w₁.sendAnswers)]) rfl ?_ rfl rfl
            intro e he
            rw [List.mem_singleton.1 he]
            exact ⟨rfl, by simp [Http2Event.windowCredit, hcredit]⟩
          have hboth := hu.trans hsend
          split <;> exact hboth

/-- The octets of a DATA frame go from the window to what is consumed. -/
def debited (w : Http2World) (n : ℕ) : Http2World :=
  { w with conn := { w.conn with
    connectionRecvWindow := w.conn.connectionRecvWindow - n
    connectionRecvConsumed := w.conn.connectionRecvConsumed + n } }

theorem debited_balanced (w : Http2World) (n : ℕ) : Balanced n w (debited w n) := by
  refine ⟨?_, ?_, rfl⟩
  · simp only [debited]
    ring
  · simp only [debited]
    push_cast
    ring

theorem creditData_balanced (w : Http2World) (a : Http2ActiveStream) (f : Http2Frame)
    (ha : a.stream.streamId ≠ 0) :
    Balanced f.payload.length w (creditData { w with conn := { w.conn with
      connectionRecvWindow := w.conn.connectionRecvWindow - f.payload.length } } a f).2.1 := by
  have hs : ∀ stream ∈ (if f.endStream then none else some a.stream : Option Http2Stream),
      stream.streamId ≠ 0 := by
    intro stream hmem
    split at hmem
    · cases hmem
    · cases hmem
      exact ha
  have h := (debited_balanced w f.payload.length).trans
    (sendWindowUpdateIfNeeded_balanced (debited w f.payload.length) _ f.payload.length hs)
  rw [Nat.add_zero] at h
  unfold creditData
  simp only
  change Balanced _ w (sendWindowUpdateIfNeeded (debited w f.payload.length) _ _).2.1 at h
  simp only [debited] at h
  generalize sendWindowUpdateIfNeeded _ _ _ = r at h ⊢
  obtain ⟨status, w₁, s⟩ := r
  simp only at h ⊢
  split
  · exact h
  · split
    · split
      · have := h.trans ((sendRstStream_quiet (t := .nothing) w₁ f.streamId
          .protocolError).balanced (by decide))
        exact this
      · exact h
    · exact h

theorem processData_balanced
    (ha : a.stream.streamId ≠ 0) (h : dataVerdict w.conn a f = .accounted) :
    Balanced f.payload.length w (processData w a f).2.1 := by
  unfold dataVerdict at h
  unfold processData
  simp only at h
  split at h
  · cases h
  · split at h
    · cases h
    · next hh =>
      rw [if_neg hh]
      cases hp : stripPadding f with
      | error status =>
        rw [hp] at h
        cases h
      | ok content =>
        rw [hp] at h
        simp only at h ⊢
        split at h
        · cases h
        · next hb =>
          rw [if_neg hb]
          split at h
          · cases h
          · next hr =>
            rw [if_neg hr]
            split at h
            · cases h
            · next hx =>
              rw [if_neg hx]
              split at h
              · cases h
              · next hlen =>
                split at h
                · cases h
                · next hcl =>
                  split at h
                  · cases h
                  · next hsink =>
                    unfold appendData
                    simp only
                    rw [if_neg hlen, if_neg hcl, if_neg hsink]
                    exact creditData_balanced w _ f (by simpa using ha)

/-! ## DATA that is a connection error -/

/-- GOAWAY was sent, or the transport refused one. -/
def GoAwayTried (w : Http2World) : Prop :=
  w.conn.goAwaySent = true ∨
    ∃ g status, .sent [g] status ∈ w.events ∧ g.type = .goAway ∧ ntSuccess status = false

theorem sendGoAway_tried (w : Http2World) (e : Http2ErrorCode) : GoAwayTried (sendGoAway w e).2 := by
  unfold sendGoAway
  split
  · next h => exact .inl h
  · simp only
    generalize (if w.conn.nextStreamId > 2 then w.conn.nextStreamId - 2 else 0) = last
    split
    · exact .inl rfl
    · next h =>
      have h : ¬ ntSuccess (nextAnswer w.sendAnswers) = true := h
      refine .inr ⟨goAwayFrame last e.code, nextAnswer w.sendAnswers, ?_, rfl, by simpa using h⟩
      simp [sendRaw]

/-- A DATA frame is accounted for, or the connection ends. -/
def DataHandled (f : Http2Frame) (w w' : Http2World) : Prop :=
  Balanced f.payload.length w w' ∨ GoAwayTried w'

theorem processData_refused (he : a.responseState.expectingContinuation = false)
    (h : dataVerdict w.conn a f = .connectionError) : GoAwayTried (processData w a f).2.1 := by
  unfold dataVerdict at h
  unfold processData
  simp only [he, Bool.false_eq_true, if_false] at h
  split at h
  · cases h
  · next hh =>
    rw [if_neg hh]
    cases hp : stripPadding f with
    | error status =>
      rw [hp] at h
      cases h
    | ok content =>
      rw [hp] at h
      simp only at h ⊢
      split at h
      · cases h
      · next hb =>
        rw [if_neg hb]
        split at h
        · cases h
        · next hr =>
          rw [if_neg hr]
          split at h
          · next hx =>
            rw [if_pos hx]
            exact sendGoAway_tried w _
          · split at h
            · cases h
            · split at h
              · cases h
              · split at h <;> cases h

theorem processResponseFrame_data
    (hf : f.type = .data) (ha : a.stream.streamId ≠ 0) (h : dataVerdict w.conn a f ≠ .lost) :
    DataHandled f w (processResponseFrame w a f).2.1 := by
  unfold processResponseFrame continuationGate
  simp only [hf, reduceCtorEq, if_false]
  cases he : a.responseState.expectingContinuation with
  | true =>
    simp only [Bool.not_true, Bool.false_eq_true, not_false_eq_true, if_true]
    exact .inr (sendGoAway_tried w _)
  | false =>
    simp only [Bool.not_false, not_true_eq_false, if_false]
    cases hv : dataVerdict w.conn a f with
    | accounted => exact .inl (processData_balanced ha hv)
    | connectionError => exact .inr (processData_refused he hv)
    | lost => exact absurd hv h

theorem processSlot_data (hf : f.type = .data)
    (hi : SlotAt w.conn i f.streamId) (h0 : f.streamId ≠ 0)
    (h : dataVerdict w.conn (w.conn.slot i) f ≠ .lost) :
    DataHandled f w (processSlot w i f).2 := by
  have hd := processResponseFrame_data hf (by rw [hi.2.2]; exact h0) h
  unfold processSlot
  generalize processResponseFrame w (w.conn.slot i) f = r at hd ⊢
  obtain ⟨status, w₁, a⟩ := r
  rcases hd with hd | hd
  · exact .inl ⟨hd.window, hd.consumed, hd.data⟩
  · exact .inr hd

theorem setStream_balanced (w : Http2World) (i : ℕ) (s : Http2Stream) :
    Balanced 0 w (setStream w i s) := .of_eq rfl rfl rfl

theorem tunnelData_data {capacity : ℕ} (hi : (w.conn.slot i).stream.streamId ≠ 0)
    (h : tunnelVerdict w.conn (w.conn.slot i) capacity f ≠ .lost) :
    DataHandled f w (tunnelData w i capacity f).1 := by
  unfold tunnelVerdict at h
  unfold tunnelData
  cases hp : stripPadding f with
  | error status =>
    rw [hp] at h
    exact absurd rfl h
  | ok content =>
    rw [hp] at h
    simp only at h ⊢
    split at h
    · exact absurd rfl h
    · next hc =>
      rw [if_neg hc]
      split at h
      · exact absurd rfl h
      · next hr =>
        rw [if_neg hr]
        have hid := Http2Stream.receiveData_streamId (w.conn.slot i).stream f.payload.length
          f.endStream
        generalize (w.conn.slot i).stream.receiveData f.payload.length f.endStream = r at hid ⊢
        obtain ⟨status, stream⟩ := r
        simp only at hid ⊢
        split
        · exact .inr (sendGoAway_tried _ _)
        · left
          have hs : ∀ s ∈ (if f.endStream then none else some stream : Option Http2Stream),
              s.streamId ≠ 0 := by
            intro s hmem
            split at hmem
            · cases hmem
            · cases hmem
              rw [hid]
              exact hi
          have hb := ((setStream_balanced w i stream).trans
            (debited_balanced (setStream w i stream) f.payload.length)).trans
            (sendWindowUpdateIfNeeded_balanced (debited (setStream w i stream) f.payload.length) _
              f.payload.length hs)
          simp only [Nat.zero_add, Nat.add_zero, debited] at hb
          generalize sendWindowUpdateIfNeeded _ _ _ = r at hb ⊢
          obtain ⟨status', w₁, stream'⟩ := r
          exact ⟨hb.window, hb.consumed, hb.data⟩

theorem Http2Reader.handle_data {reader : Http2Reader}
    (hv : reader.Valid w.conn) (hf : f.type = .data)
    (h : readerVerdict w.conn reader f ≠ .lost) : DataHandled f w (reader.handle w f) := by
  unfold readerVerdict at h
  by_cases ht : isValidFrameTarget f = true
  · rw [if_neg (not_not.2 ht)] at h
    have h0 : f.streamId ≠ 0 := by
      unfold isValidFrameTarget at ht
      rw [hf] at ht
      simpa using ht
    cases reader with
    | dispatch =>
      simp only at h
      unfold Http2Reader.handle dispatchFrame
      by_cases hb : breaksContinuation w.conn f = true
      · simp only [ht, hb, not_true_eq_false, or_true, if_true]
        exact .inr (sendGoAway_tried w _)
      · rw [if_neg hb] at h
        simp only [ht, hb, h0, hf, not_true_eq_false, or_self, if_false, reduceCtorEq,
          Bool.false_eq_true]
        cases hi : w.conn.findActiveStream f.streamId with
        | none =>
          rw [hi] at h
          exact absurd rfl h
        | some i =>
          rw [hi] at h
          exact processSlot_data hf (findActiveStream_spec hi).1 h0 h
    | single a =>
      simp only at h
      unfold Http2Reader.handle singleFrame
      by_cases hb : breaksSingleContinuation a.responseState f = true
      · simp only [ht, hb, not_true_eq_false, or_true, if_true]
        exact .inr (sendGoAway_tried w _)
      · rw [if_neg hb] at h
        simp only [ht, hb, h0, hf, not_true_eq_false, or_self, if_false, reduceCtorEq,
          Bool.false_eq_true]
        by_cases hid : f.streamId = a.stream.streamId
        · rw [if_neg (not_not.2 hid)] at h
          simp only [hid, ne_eq, not_true_eq_false, if_false]
          exact processResponseFrame_data hf (by rw [← hid]; exact h0) h
        · rw [if_pos hid] at h
          exact absurd rfl h
    | tunnel streamId i capacity =>
      simp only at h
      unfold Http2Reader.handle receiveStreamFrame
      simp only [ht, h0, not_true_eq_false, if_false]
      by_cases hid : f.streamId = streamId
      · rw [if_neg (not_not.2 hid)] at h
        simp only [hid, ne_eq, not_true_eq_false, if_false]
        unfold tunnelFrame
        simp only [hf]
        exact tunnelData_data (by rw [hv.1.2.2]; exact hv.2) h
      · rw [if_pos hid] at h
        simp only [hid, ne_eq, not_false_eq_true, if_true]
        cases hi : w.conn.findActiveStream f.streamId with
        | none =>
          rw [hi] at h
          exact absurd rfl h
        | some j =>
          rw [hi] at h
          exact processSlot_data hf (findActiveStream_spec hi).1 h0 h
  · right
    cases reader with
    | dispatch =>
      unfold Http2Reader.handle dispatchFrame
      simp only [ht, Bool.false_eq_true, not_false_eq_true, true_or, if_true]
      exact sendGoAway_tried w _
    | single a =>
      unfold Http2Reader.handle singleFrame
      simp only [ht, Bool.false_eq_true, not_false_eq_true, true_or, if_true]
      exact sendGoAway_tried w _
    | tunnel streamId i capacity =>
      unfold Http2Reader.handle receiveStreamFrame
      simp only [ht, Bool.false_eq_true, not_false_eq_true, if_true]
      exact sendGoAway_tried w _

/-! ## Runs -/

def NoCreditQueued (w : Http2World) : Prop := ∀ f ∈ w.conn.sendBuffer, f.type ≠ .windowUpdate

theorem connectionCredit_eq_zero
    (h : ∀ f ∈ frames, f.type ≠ .windowUpdate) : (frames.map Http2Frame.connectionCredit).sum = 0 := by
  refine List.sum_eq_zero fun x hx => ?_
  obtain ⟨f, hf, rfl⟩ := List.mem_map.1 hx
  simp [Http2Frame.connectionCredit, h f hf]

theorem sendRaw_balanced (w : Http2World)
    (h : ∀ f ∈ frames, f.type ≠ .windowUpdate) : Balanced 0 w (sendRaw w frames).2 := by
  refine .of_events (E := [.sent frames (nextAnswer w.sendAnswers)]) rfl ?_ rfl rfl
  intro e he
  rw [List.mem_singleton.1 he]
  refine ⟨rfl, ?_⟩
  simp only [Http2Event.windowCredit, connectionCredit_eq_zero h, ite_self]

theorem Step.balanced_or_frame {k : Option (Http2Connection → Prop)}
    (h : Step k w w') (hq : NoCreditQueued w) :
    NoCreditQueued w' ∧ (Balanced 0 w w' ∨
      ∃ reader f, Http2Reader.Valid reader w.conn ∧ w' = reader.handle (receiveFrame w reader f) f) := by
  cases h with
  | bookkeeping incoming h =>
    refine ⟨?_, .inl (.of_eq rfl (by simp only; rw [h]) (by simp only; rw [h]))⟩
    unfold NoCreditQueued
    simp only
    rw [h]
    exact hq
  | frame reader f h hb =>
    have he := (reader.frame_effect f h).sendBuffer
    refine ⟨?_, .inr ⟨reader, f, h, rfl⟩⟩
    unfold NoCreditQueued
    rw [he]
    exact hq
  | goAway _ e =>
    refine ⟨?_, .inl ((sendGoAway_quiet (t := .nothing) w e).balanced (by decide))⟩
    unfold NoCreditQueued
    rw [(sendGoAway_calm w e).conn]
    exact hq
  | ping _ d => exact ⟨hq, .inl (sendRaw_balanced w (by simp [pingFrame]))⟩
  | shutdown =>
    unfold Http2.shutdown
    split
    · exact ⟨hq, .inl (.refl w)⟩
    · refine ⟨hq, .inl ?_⟩
      have hg : ∀ f ∈ [goAwayFrame 0 Http2ErrorCode.noError.code], f.type ≠ .windowUpdate := by
        simp [goAwayFrame]
      have hb := sendRaw_balanced { w with conn := { w.conn with goAwaySent := true } } hg
      exact ⟨hb.window, hb.consumed, hb.data⟩
  | openStream r t h _ => exact ⟨hq, .inl (.of_eq rfl rfl rfl)⟩
  | clear => exact ⟨by simp [NoCreditQueued, clearSendBuffer], .inl (.of_eq rfl rfl rfl)⟩
  | flush =>
    refine ⟨by simp [NoCreditQueued, flushSendBuffer], .inl ?_⟩
    have hb := sendRaw_balanced w hq
    exact ⟨hb.window, hb.consumed, hb.data⟩
  | sendHeaders _ i b => exact ⟨hq, .inl (.of_eq rfl rfl rfl)⟩
  | @queue _ _ g h =>
    refine ⟨?_, .inl (.of_eq rfl rfl rfl)⟩
    intro f hf
    rcases List.mem_append.1 hf with hf | hf
    · exact hq f hf
    · rw [List.mem_singleton.1 hf]
      rcases h with h | h <;> rw [h] <;> rintro ⟨⟩
  | debit hslot hpos hle h =>
    obtain ⟨g, stream, hg, -, rfl⟩ := debitData_eq h
    refine ⟨?_, .inl (.of_eq rfl rfl rfl)⟩
    intro f hf
    rcases List.mem_append.1 hf with hf | hf
    · exact hq f hf
    · rw [List.mem_singleton.1 hf, (encodeData_eq hg).2.2]
      rintro ⟨⟩
  | release _ streamId =>
    unfold Http2.releaseStream Http2Connection.releaseActiveStream
    split <;> exact ⟨hq, .inl (.of_eq rfl rfl rfl)⟩
  | publish _ i => exact ⟨hq, .inl (.of_eq rfl rfl rfl)⟩

/-- The window is conserved until GOAWAY was sent, as long as no DATA is lost. -/
def WindowInvariant (w : Http2World) : Prop :=
  NoCreditQueued w ∧ ((∀ e ∈ w.events, e.KeepsWindow) → w.conn.goAwaySent = false →
    WindowConserved w)

theorem Started.windowInvariant (h : Started w) : WindowInvariant w := by
  obtain ⟨n, hc⟩ := h.conn
  obtain ⟨settings, sent, f, c, acked, -, he, hty, -⟩ := h.events
  have hq : NoCreditQueued w := by
    unfold NoCreditQueued
    rw [hc]
    exact nofun
  refine ⟨hq, fun _ _ => ⟨?_, ?_⟩⟩
  · rw [hc]
    rfl
  · rw [hc, he]
    simp [peerWindow, dataReceived, creditSent, Http2Event.dataReceived, Http2Event.windowCredit,
      Http2Frame.connectionCredit, settingsFrame, settingsAck, freshConnection, hty]

theorem receiveFrame_conserved (reader : Http2Reader) (f : Http2Frame) (h : WindowConserved w)
    (hb : Balanced (Http2Event.dataReceived (.received f reader w.conn)) (receiveFrame w reader f) w') :
    WindowConserved w' := by
  refine ⟨hb.consumed.trans h.1, ?_⟩
  have h1 := hb.window
  have h2 := h.2
  have hd := hb.data
  simp only [receiveFrame, dataReceived_append, creditSent_append, Http2Event.windowCredit] at h1 hd
  unfold peerWindow at h2 ⊢
  rw [hd]
  push_cast at h1 ⊢
  omega

theorem Step.windowInvariant {k : Option (Http2Connection → Prop)}
    (h : WindowInvariant w) (hs : Step k w w') :
    WindowInvariant w' := by
  obtain ⟨hq, hinv⟩ := h
  obtain ⟨hq', hcases⟩ := hs.balanced_or_frame hq
  refine ⟨hq', fun hkeep hgo => ?_⟩
  have hgrows := hs.grows
  have hgo₀ : w.conn.goAwaySent = false := by
    by_contra hne
    rw [hgrows.goAway (by simpa using hne)] at hgo
    cases hgo
  have hw := hinv (fun e he => hkeep e (hgrows.events.subset he)) hgo₀
  rcases hcases with hb | ⟨reader, f, hv, rfl⟩
  · exact hb.conserved hw
  · refine receiveFrame_conserved reader f hw ?_
    by_cases hf : f.type = .data
    · have hmem : .received f reader w.conn ∈ (reader.handle (receiveFrame w reader f) f).events :=
        (reader.frame_effect f hv).grows.events.subset (by simp [receiveFrame])
      have hd := Http2Reader.handle_data (w := receiveFrame w reader f) hv hf (hkeep _ hmem hf)
      simp only [Http2Event.dataReceived, hf, if_true]
      rcases hd with hd | hd | ⟨g, status, hmem', hg, hst⟩
      · exact hd
      · rw [hd] at hgo
        cases hgo
      · have := hkeep _ hmem' ⟨g, List.mem_singleton.2 rfl, hg⟩
        rw [this] at hst
        cases hst
    · simp only [Http2Event.dataReceived, hf, if_false]
      exact (reader.frame_effect f hv).balanced hf

/-- **The receive window is the one the peer sees**, as long as no DATA frame is
    lost. -/
theorem recvWindow_conserved {w : Http2World} (h : Reachable w)
    (hkeep : ∀ e ∈ w.events, e.KeepsWindow) (hgo : w.conn.goAwaySent = false) :
    WindowConserved w :=
  (Reachable.induct (P := WindowInvariant) (fun _ h => h.windowInvariant)
    (fun _ _ h hs => hs.windowInvariant h) h).2 hkeep hgo

/-- SETTINGS, HEADERS with status 200 on stream 1, and DATA on stream 1. -/
def acceptedData : Bytes :=
  [0, 0, 0, 4, 0, 0, 0, 0, 0,
    0, 0, 1, 1, 4, 0, 0, 0, 1, 0x88,
    0, 0, 2, 0, 0, 0, 0, 0, 1, 0x61, 0x62]

theorem recvWindow_conserved_acceptedData :
    (runOn acceptedData [.beginRequest getRequest, .receiveResponse 1]).conn.connectionRecvWindow =
        65533 ∧
      WindowConserved (runOn acceptedData [.beginRequest getRequest, .receiveResponse 1]) :=
  ⟨by decide,
    recvWindow_conserved (runOn_reachable (by decide)) (by decide)
      (by decide)⟩

/-- SETTINGS, and DATA on a stream that was never opened. -/
def unknownData : Bytes :=
  [0, 0, 0, 4, 0, 0, 0, 0, 0,
    0, 0, 2, 0, 0, 0, 0, 0, 5, 0x61, 0x62]

/-- DATA of an unknown stream is not accounted for. -/
theorem recvWindow_unknownData :
    Reachable (runOn unknownData [.beginRequest getRequest, .receiveResponse 1]) ∧
      (runOn unknownData [.beginRequest getRequest, .receiveResponse 1]).conn.goAwaySent = false ∧
      ¬ WindowConserved (runOn unknownData [.beginRequest getRequest, .receiveResponse 1]) := by
  refine ⟨runOn_reachable (by decide), by decide, ?_⟩
  unfold WindowConserved
  decide

end KernelHttp.Http2
