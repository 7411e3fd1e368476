/-
  Runs of calls are steps.

  What every step keeps, every run of calls keeps (`runCalls_callSteps`).
-/
import KernelHttp.Http2.Steps

namespace KernelHttp.Http2

open Loop

/-! ## Reading -/

variable {a : Http2ActiveStream} {c c' : Http2Connection} {w w' : Http2World} {status : NTSTATUS}
    {i streamId : ℕ}

theorem Bookkeeping.trans {c'' : Http2Connection} (h : Bookkeeping c c')
    (h' : Bookkeeping c' c'') : Bookkeeping c c'' := by
  unfold Bookkeeping at h h' ⊢
  rw [h] at h'
  exact h'

theorem Bookkeeping.activeStreams (h : Bookkeeping c c') :
    c'.activeStreams = c.activeStreams := by rw [h]

theorem recordReceivedFrame_bookkeeping (c : Http2Connection) (n : ℕ) :
    Bookkeeping c (recordReceivedFrame c n).2 := by
  unfold recordReceivedFrame
  split <;> rfl

/-- What reading a frame gives: a failure or a frame, behind bookkeeping, and a
    frame takes octets. -/
inductive ReadsFrame (w : Http2World) (reader : Http2Reader) :
    Except NTSTATUS Http2Frame × Http2World → Prop
  | failed (status : NTSTATUS) (c : Http2Connection) (incoming : List (Except NTSTATUS UInt8))
      (h : Bookkeeping w.conn c) (hf : ntSuccess status = false) :
      ReadsFrame w reader (.error status, { w with conn := c, incoming })
  | read (f : Http2Frame) (c : Http2Connection) (incoming : List (Except NTSTATUS UInt8))
      (h : Bookkeeping w.conn c) (hlt : incoming.length < w.incoming.length)
      (hlen : f.payload.length ≤ c.localSettings.maxFrameSize) :
      ReadsFrame w reader (.ok f, receiveFrame { w with conn := c, incoming } reader f)

theorem readExact_length : ∀ {n : ℕ} {l l' : List (Except NTSTATUS UInt8)} {octets : Bytes},
    readExact n l = (.ok octets, l') → octets.length = n ∧ l'.length + n = l.length
  | 0, l, l', octets, h => by
    simp only [readExact, Prod.mk.injEq, Except.ok.injEq] at h
    obtain ⟨rfl, rfl⟩ := h
    exact ⟨rfl, rfl⟩
  | n + 1, [], l', octets, h => by simp [readExact] at h
  | n + 1, .error _ :: _, l', octets, h => by simp [readExact] at h
  | n + 1, .ok octet :: l, l', octets, h => by
    unfold readExact at h
    split at h
    · next os l'' hr =>
      simp only [Prod.mk.injEq, Except.ok.injEq] at h
      obtain ⟨rfl, rfl⟩ := h
      obtain ⟨h1, h2⟩ := readExact_length hr
      exact ⟨by simp [h1], by simp only [List.length_cons]; omega⟩
    · cases h

theorem receiveFailure_failed (status : NTSTATUS) : ntSuccess (receiveFailure status) = false := by
  unfold receiveFailure
  split
  · rfl
  · next h => simpa using h

theorem readExact_failed : ∀ {n : ℕ} {l l' : List (Except NTSTATUS UInt8)} {status : NTSTATUS},
    readExact n l = (.error status, l') → ntSuccess status = false
  | 0, l, l', status, h => by simp [readExact] at h
  | n + 1, [], l', status, h => by
    simp only [readExact, Prod.mk.injEq, Except.error.injEq] at h
    rw [← h.1]
    rfl
  | n + 1, .error s :: l, l', status, h => by
    simp only [readExact, Prod.mk.injEq, Except.error.injEq] at h
    rw [← h.1]
    exact receiveFailure_failed s
  | n + 1, .ok octet :: l, l', status, h => by
    unfold readExact at h
    split at h
    · cases h
    · next s l'' hr =>
      simp only [Prod.mk.injEq, Except.error.injEq] at h
      rw [← h.1]
      exact readExact_failed hr

theorem readFrameHeader_cases (w : Http2World) :
    ∃ c incoming, Bookkeeping w.conn c ∧
      ((∃ status, readFrameHeader w = (.error status, { w with conn := c, incoming }) ∧
          ntSuccess status = false) ∨
        ∃ header, readFrameHeader w = (.ok header, { w with conn := c, incoming }) ∧
          incoming.length < w.incoming.length ∧ header.length ≤ c.localSettings.maxFrameSize) := by
  unfold readFrameHeader
  simp only
  cases hr : readExact http2FrameHeaderLength w.incoming with
  | mk result incoming =>
    cases result with
    | error status =>
      exact ⟨{ w.conn with readFrameErrorCode := .noError }, incoming, rfl, .inl ⟨status, rfl, readExact_failed hr⟩⟩
    | ok octets =>
      simp only
      have hlen := (readExact_length hr).2
      split
      · exact ⟨{ w.conn with readFrameErrorCode := .frameSizeError }, incoming, rfl,
          .inl ⟨_, rfl, rfl⟩⟩
      · next hmax =>
        split
        · exact ⟨{ w.conn with readFrameErrorCode := .noError }, incoming, rfl, .inl ⟨_, rfl, rfl⟩⟩
        · refine ⟨{ w.conn with readFrameErrorCode := .noError }, incoming, rfl, .inr ⟨_, rfl, ?_, ?_⟩⟩
          · simp only [http2FrameHeaderLength] at hlen
            omega
          · simpa using hmax

theorem readFrame_reads (w : Http2World) (reader : Http2Reader) :
    ReadsFrame w reader (readFrame w reader) := by
  unfold readFrame
  obtain ⟨c, incoming, hb, ⟨status, hr, hf⟩ | ⟨header, hr, hlt, hmax⟩⟩ := readFrameHeader_cases w
  · rw [hr]
    exact .failed status c incoming hb hf
  · rw [hr]
    simp only
    have hb' := hb.trans (recordReceivedFrame_bookkeeping c header.length)
    split
    · next hf => exact .failed _ _ incoming hb' (by simpa using hf)
    · cases hp : readExact header.length incoming with
      | mk result incoming' =>
        cases result with
        | error status => exact .failed status _ incoming' hb' (readExact_failed hp)
        | ok payload =>
          obtain ⟨h1, h2⟩ := readExact_length hp
          refine .read (header.toFrame payload) _ incoming' hb' (by omega) ?_
          have hm : (recordReceivedFrame c header.length).2.localSettings = c.localSettings := by
            rw [recordReceivedFrame_bookkeeping c header.length]
          rw [hm]
          exact h1.le.trans hmax

theorem readCountedFrame_reads (w : Http2World) :
    ReadsFrame w .dispatch (readCountedFrame w) := by
  unfold readCountedFrame
  obtain ⟨c, incoming, hb, ⟨status, hr, hf⟩ | ⟨header, hr, hlt, hmax⟩⟩ := readFrameHeader_cases w
  · rw [hr]
    exact .failed status c incoming hb hf
  · rw [hr]
    simp only
    have hb' := hb.trans (recordReceivedFrame_bookkeeping c header.length)
    cases hp : readExact header.length incoming with
    | mk result incoming' =>
      cases result with
      | error status => exact .failed status _ incoming' hb (readExact_failed hp)
      | ok payload =>
        simp only
        split
        · next hf => exact .failed _ _ incoming' hb' (by simpa using hf)
        · obtain ⟨h1, h2⟩ := readExact_length hp
          refine .read (header.toFrame payload) _ incoming' hb' (by omega) ?_
          have hm : (recordReceivedFrame c header.length).2.localSettings = c.localSettings := by
            rw [recordReceivedFrame_bookkeeping c header.length]
          rw [hm]
          exact h1.le.trans hmax

/-! ## Calls are steps -/

/-- Steps that keep a property of the states between calls or turns. -/
def StepsKeep (J : Http2World → Prop) (w w' : Http2World) : Prop :=
  J w → Steps none w w' ∧ J w'

namespace StepsKeep

variable {J : Http2World → Prop} {w w' w'' : Http2World}

theorem refl (w : Http2World) : StepsKeep J w w := fun h => ⟨.refl, h⟩

theorem trans (h : StepsKeep J w w') (h' : StepsKeep J w' w'') : StepsKeep J w w'' := by
  intro hJ
  obtain ⟨hs, hJ'⟩ := h hJ
  obtain ⟨hs', hJ''⟩ := h' hJ'
  exact ⟨hs.trans hs', hJ''⟩

theorem of_step (h : Step none w w') (hJ : J w → J w') : StepsKeep J w w' :=
  fun hw => ⟨.single h, hJ hw⟩

end StepsKeep

def TurnSteps {σ ρ : Type} (J : Http2World → Prop) (w : Http2World) (state : σ → Http2World)
    (result : ρ → Http2World) : Turn σ ρ → Prop
  | .done r => StepsKeep J w (result r)
  | .again s => StepsKeep J w (state s)

/-- Turns that are steps make a loop that is steps. -/
theorem run_steps {σ ρ : Type} {J : Http2World → Prop} {turn : σ → Turn σ ρ} {out : σ → ρ}
    {state : σ → Http2World} {result : ρ → Http2World}
    (hturn : ∀ s, TurnSteps J (state s) state result (turn s))
    (hout : ∀ s, result (out s) = state s) (n : ℕ) (s : σ) :
    StepsKeep J (state s) (result (run turn out n s)) := by
  refine run_induct (I := fun t => StepsKeep J (state s) (state t))
    (Q := fun r => StepsKeep J (state s) (result r)) ?_ ?_ ?_ n s (.refl _)
  · intro t h
    rw [hout]
    exact h
  · intro t r h ht
    have := hturn t
    rw [ht] at this
    exact h.trans this
  · intro t t' h ht
    have := hturn t
    rw [ht] at this
    exact h.trans this

/-- Nothing is queued. -/
def SendIdle (w : Http2World) : Prop := w.conn.sendBuffer = []

/-- Steps from a connection with an empty send buffer to one. -/
abbrev IdleSteps := StepsKeep SendIdle

theorem IdleSteps.of_sendBuffer (h : Step none w w')
    (hb : w'.conn.sendBuffer = w.conn.sendBuffer) : IdleSteps w w' :=
  .of_step h fun hw => hb.trans hw

theorem sendGoAway_idleSteps (w : Http2World) (e : Http2ErrorCode) :
    IdleSteps w (sendGoAway w e).2 :=
  .of_sendBuffer (.goAway w e) (by rw [(sendGoAway_calm w e).conn])

theorem bookkeeping_idleSteps (incoming : List (Except NTSTATUS UInt8)) (h : Bookkeeping w.conn c) :
    IdleSteps w { w with conn := c, incoming } :=
  .of_sendBuffer (.bookkeeping incoming h) (by simp only; rw [h])

theorem releaseActiveStream_sendBuffer (c : Http2Connection) (streamId : ℕ) :
    (c.releaseActiveStream streamId).sendBuffer = c.sendBuffer := by
  unfold Http2Connection.releaseActiveStream
  split <;> rfl

theorem handleReadFrameFailure_idleSteps (w : Http2World) (status : NTSTATUS) :
    IdleSteps w (handleReadFrameFailure w status).2 := by
  unfold handleReadFrameFailure
  split
  · exact sendGoAway_idleSteps w _
  · split
    · exact sendGoAway_idleSteps w _
    · exact .refl w

/-- A frame that was read is handled. -/
theorem read_idleSteps (hb : Bookkeeping w.conn c)
    (incoming : List (Except NTSTATUS UInt8)) (reader : Http2Reader) (f : Http2Frame)
    (hv : reader.Valid c) :
    IdleSteps w (reader.handle (receiveFrame { w with conn := c, incoming } reader f) f) := by
  refine (bookkeeping_idleSteps incoming hb).trans fun he => ?_
  refine ⟨.single (@Step.frame none { w with conn := c, incoming } reader f hv he), ?_⟩
  have hf := reader.frame_effect (w := { w with conn := c, incoming }) f hv
  exact hf.sendBuffer.trans he

theorem dispatch_idleSteps (hb : Bookkeeping w.conn c)
    (incoming : List (Except NTSTATUS UInt8)) (f : Http2Frame) :
    IdleSteps w (dispatchFrame (receiveFrame { w with conn := c, incoming } .dispatch f) f).2 :=
  read_idleSteps hb incoming .dispatch f trivial

theorem dispatchNextFrame_idleSteps (w : Http2World) : IdleSteps w (dispatchNextFrame w).2 := by
  unfold dispatchNextFrame
  have h := readFrame_reads w .dispatch
  cases hr : readFrame w .dispatch with
  | mk result w₁ =>
    rw [hr] at h
    cases h with
    | failed status c incoming hb _ =>
      exact (bookkeeping_idleSteps incoming hb).trans (handleReadFrameFailure_idleSteps _ status)
    | read f c incoming hb _ _ => exact dispatch_idleSteps hb incoming f

theorem SlotOf.bookkeeping
    (h : SlotOf w.conn i streamId) (hb : Bookkeeping w.conn c) : SlotOf c i streamId :=
  h.of_slot (by rw [hb.activeStreams])
    (by simp only [Http2Connection.slot, hb.activeStreams])

theorem handleReadFrameFailure_calm (w : Http2World) (status : NTSTATUS) :
    Calm w (handleReadFrameFailure w status).2 := by
  unfold handleReadFrameFailure
  split
  · exact sendGoAway_calm w _
  · split
    · exact sendGoAway_calm w _
    · exact Calm.refl w

theorem SlotOf.dispatchNextFrame
    (h : SlotOf w.conn i streamId) : SlotOf (dispatchNextFrame w).2.conn i streamId := by
  unfold Http2.dispatchNextFrame
  have hreads := readFrame_reads w .dispatch
  cases hr : readFrame w .dispatch with
  | mk result w₁ =>
    rw [hr] at hreads
    cases hreads with
    | failed status c incoming hb _ =>
      exact SlotOf.calm (w := { w with conn := c, incoming }) (h.bookkeeping hb)
        (handleReadFrameFailure_calm _ status)
    | read f c incoming hb _ _ =>
      exact SlotOf.dispatchFrame (w := receiveFrame { w with conn := c, incoming } .dispatch f)
        (h.bookkeeping hb) f

theorem receiveTurn_steps (streamId : ℕ) (s : ReceiveState) :
    TurnSteps SendIdle s.1 (fun s : ReceiveState => s.1)
      (fun r : Except NTSTATUS ℕ × Http2World => r.2) (receiveTurn streamId s) := by
  obtain ⟨w, observed⟩ := s
  unfold receiveTurn
  simp only
  split
  · exact .refl w
  · split
    · exact .refl w
    · have hreads := readCountedFrame_reads w
      cases hr : readCountedFrame w with
      | mk result w₁ =>
        rw [hr] at hreads
        cases hreads with
        | failed status c incoming hb _ =>
          exact (bookkeeping_idleSteps incoming hb).trans (handleReadFrameFailure_idleSteps _ status)
        | read f c incoming hb _ _ =>
          have hsteps := dispatch_idleSteps hb incoming f
          simp only
          generalize dispatchFrame _ f = r at hsteps ⊢
          split
          · exact hsteps
          · exact hsteps

theorem awaitResponse_idleSteps (w : Http2World) (streamId : ℕ) :
    IdleSteps w (awaitResponse w streamId).2 :=
  run_steps (receiveTurn_steps streamId) (fun _ => rfl) _ (w, false)

theorem single_idleSteps (hb : Bookkeeping w.conn c)
    (incoming : List (Except NTSTATUS UInt8)) (ha : OwnBlock a) (f : Http2Frame) :
    IdleSteps w (singleFrame (receiveFrame { w with conn := c, incoming } (.single a) f) a f).2.1 :=
  read_idleSteps hb incoming (.single a) f ha

theorem singleFrame_ownBlock (w : Http2World) (ha : OwnBlock a)
    (f : Http2Frame) : OwnBlock (singleFrame w a f).2.2 := by
  unfold singleFrame
  split
  · exact ha
  · split
    · exact ha
    · split
      · exact ha
      · split
        · exact ha
        · next hid =>
          obtain ⟨-, hu, -⟩ := processResponseFrame_change w a f
          refine ⟨hu.trans ha.inUse, fun h => ?_⟩
          cases processResponseFrame_block w a f with
          | closed h' =>
            rw [h] at h'
            cases h'
          | kept h' hc hs => rw [hc, hs, ha.continues h']
          | opened _ hc hs => rw [hc, hs, not_not.1 hid]

def SingleTurn (w : Http2World) : Turn SingleState (NTSTATUS × SingleState) → Prop
  | .done r => IdleSteps w r.2.1
  | .again s => IdleSteps w s.1 ∧ OwnBlock s.2

theorem singleTurn_steps (ha : OwnBlock a) :
    SingleTurn w (singleTurn (w, a)) := by
  unfold singleTurn
  simp only
  split
  · exact .refl w
  · have hreads := readFrame_reads w (.single a)
    cases hr : readFrame w (.single a) with
    | mk result w₁ =>
      rw [hr] at hreads
      cases hreads with
      | failed status c incoming hb _ =>
        exact (bookkeeping_idleSteps incoming hb).trans (handleReadFrameFailure_idleSteps _ status)
      | read f c incoming hb _ _ =>
        have hsteps := single_idleSteps hb incoming ha f
        have hown := singleFrame_ownBlock (receiveFrame { w with conn := c, incoming } (.single a) f) ha f
        simp only
        generalize singleFrame _ a f = r at hsteps hown ⊢
        split
        · exact hsteps
        · exact ⟨hsteps, hown⟩

theorem receiveResponseFramesWithState_idleSteps (w : Http2World)
    (ha : OwnBlock a) : IdleSteps w (receiveResponseFramesWithState w a).2.1 := by
  refine run_induct (I := fun s : SingleState => IdleSteps w s.1 ∧ OwnBlock s.2)
    (Q := fun r : NTSTATUS × SingleState => IdleSteps w r.2.1) ?_ ?_ ?_ _ (w, a) ⟨.refl w, ha⟩
  · exact fun s h => h.1
  · intro s r h ht
    have hturn := singleTurn_steps (w := s.1) h.2
    rw [ht] at hturn
    exact h.1.trans hturn
  · intro s s' h ht
    have hturn := singleTurn_steps (w := s.1) h.2
    rw [ht] at hturn
    exact ⟨h.1.trans hturn.1, hturn.2⟩

theorem receiveHeadersTurn_steps (streamId : ℕ) (s : Http2World × ℕ) :
    TurnSteps SendIdle s.1 (fun s : Http2World × ℕ => s.1)
      (fun r : Except NTSTATUS ℕ × Http2World => r.2) (receiveHeadersTurn streamId s) := by
  obtain ⟨w, i⟩ := s
  unfold receiveHeadersTurn
  simp only
  split
  · exact .refl w
  · have hsteps := dispatchNextFrame_idleSteps w
    generalize dispatchNextFrame w = r at hsteps ⊢
    split
    · exact hsteps
    · split
      · exact hsteps
      · exact hsteps

theorem awaitResponseHeaders_idleSteps (w : Http2World) (streamId : ℕ) :
    IdleSteps w (awaitResponseHeaders w streamId).2 := by
  unfold awaitResponseHeaders
  split
  · exact .refl w
  · next i _ =>
    split
    · exact .refl w
    · exact run_steps (receiveHeadersTurn_steps streamId) (fun _ => rfl) _ (w, i)

/-! ## Sending -/

section Sending

variable {i streamId : ℕ}

def Sends (i streamId : ℕ) (w : Http2World) : Prop := SlotOf w.conn i streamId

def Holds (i streamId : ℕ) (w : Http2World) : Prop := SlotAt w.conn i streamId

theorem makeRoom_cases (w : Http2World) (n : ℕ) :
    (makeRoom w n).2 = w ∨ (makeRoom w n).2 = (flushSendBuffer w).2 := by
  unfold makeRoom
  split
  · exact .inl rfl
  · split
    · exact .inr rfl
    · exact .inl rfl

theorem flushSendBuffer_steps (i streamId : ℕ) (w : Http2World) :
    StepsKeep (Sends i streamId) w (flushSendBuffer w).2 := .of_step (.flush w) id

theorem makeRoom_steps {J : Http2World → Prop} (w : Http2World) (n : ℕ)
    (hJ : J w → J (flushSendBuffer w).2) : StepsKeep J w (makeRoom w n).2 := by
  rcases makeRoom_cases w n with h | h
  · rw [h]
    exact .refl w
  · rw [h]
    exact .of_step (.flush w) hJ

theorem setStream_self (w : Http2World) (i : ℕ) :
    setStream w i (w.conn.slot i).stream = w := by
  have h : w.conn.activeStreams.set i (w.conn.slot i) = w.conn.activeStreams := by
    by_cases hi : i < w.conn.activeStreams.length
    · simp [Http2Connection.slot, List.getD_eq_getElem?_getD, hi]
    · exact List.set_eq_of_length_le (by omega)
  simp only [setStream, Http2Connection.setSlot, h]

variable {endHeaders : Bool} {block chunk : Bytes} {c : Http2Connection} {g : Http2Frame}
    {s : Http2Stream} {w : Http2World}

theorem SlotAt.setStream (h : SlotAt w.conn i streamId)
    (hs : s.streamId = (w.conn.slot i).stream.streamId) :
    SlotAt (setStream w i s).conn i streamId := by
  have hi := h.1
  unfold SlotAt Http2.setStream
  rw [slot_setSlot_self hi, hs]
  exact ⟨by simpa using hi, h.2⟩

theorem SlotOf.setStream (h : SlotOf w.conn i streamId)
    (hs : s.streamId = (w.conn.slot i).stream.streamId) :
    SlotOf (setStream w i s).conn i streamId := by
  have hi := h.1
  unfold SlotOf Http2.setStream
  rw [slot_setSlot_self hi, hs]
  exact ⟨by simpa using hi, h.2⟩

theorem sendHeaders_steps (w : Http2World) (b : Bool) :
    StepsKeep (Sends i streamId) w (setStream w i ((w.conn.slot i).stream.sendHeaders b).2) :=
  .of_step (.sendHeaders w i b) fun h => h.setStream (by simp)

theorem queueFrame_steps (w : Http2World) {f : Http2Frame}
    (hf : f.type = .headers ∨ f.type = .continuation) :
    StepsKeep (Sends i streamId) w (queueFrame w f) := .of_step (.queue w hf) id

theorem encodeHeaders_type {streamId : ℕ} {endStream : Bool}
    (h : encodeHeaders streamId block endStream endHeaders = .ok g) :
    g.type = .headers := by
  unfold encodeHeaders at h
  split at h
  · cases h
  · rw [(encodeFrame_eq h).1]

theorem encodeContinuation_type {streamId : ℕ}
    (h : encodeContinuation streamId block endHeaders = .ok g) :
    g.type = .continuation := by
  unfold encodeContinuation at h
  split at h
  · cases h
  · rw [(encodeFrame_eq h).1]

theorem headerBlockTurn_steps (k : SendContext) (s : Http2World × Bool × Bytes) :
    TurnSteps (Sends k.slot k.streamId) s.1 (fun s : Http2World × Bool × Bytes => s.1)
      (fun r : NTSTATUS × Http2World => r.2) (headerBlockTurn k s) := by
  obtain ⟨w, first, rest⟩ := s
  unfold headerBlockTurn
  simp only
  split
  · exact .refl w
  · have hroom := makeRoom_steps (J := Sends k.slot k.streamId) w (rest.take k.maxPayload).length id
    generalize makeRoom w (rest.take k.maxPayload).length = r at hroom ⊢
    obtain ⟨status, w₁⟩ := r
    simp only at hroom ⊢
    split
    · exact hroom
    · cases first with
      | true =>
        simp only [if_true]
        split
        · exact hroom
        · next g hg =>
          have hs := hroom.trans (sendHeaders_steps w₁ k.endStream)
          have hq := hs.trans (queueFrame_steps _ (f := g) (.inl (encodeHeaders_type hg)))
          generalize (w₁.conn.slot k.slot).stream.sendHeaders k.endStream = r at hs hq ⊢
          obtain ⟨status', stream⟩ := r
          simp only at hs hq ⊢
          split
          · exact hs
          · exact hq
      | false =>
        simp only [Bool.false_eq_true, if_false, setStream_self]
        split
        · exact hroom
        · next g hg =>
          simp only [ntSuccess_success, not_true_eq_false, if_false]
          exact hroom.trans (queueFrame_steps w₁ (f := g) (.inr (encodeContinuation_type hg)))

theorem sendHeaderBlock_steps (w : Http2World) (k : SendContext) (block : Bytes) :
    StepsKeep (Sends k.slot k.streamId) w (sendHeaderBlock w k block).2 :=
  run_steps (headerBlockTurn_steps k) (fun _ => rfl) _ (w, true, block)

theorem debitData_steps (last : Bool) (hpos : 0 < availableWindow w.conn (w.conn.slot i).stream)
    (hle : (chunk.length : ℤ) ≤ availableWindow w.conn (w.conn.slot i).stream) :
    StepsKeep (Holds i streamId) w (debitData w i streamId chunk last).2 := by
  intro hat
  by_cases h : (debitData w i streamId chunk last).1 = statusSuccess
  · have hd' : debitData w i streamId chunk last =
        (statusSuccess, (debitData w i streamId chunk last).2) := Prod.ext h rfl
    obtain ⟨g, stream, -, hd, h2⟩ := debitData_eq hd'
    have hstep : Step none w (debitData w i streamId chunk last).2 := .debit hat hpos hle hd'
    have hid : stream.streamId = (w.conn.slot i).stream.streamId := by
      have := Http2Stream.sendData_streamId (w.conn.slot i).stream chunk.length last
      rw [hd] at this
      exact this
    refine ⟨.single hstep, ?_⟩
    rw [h2]
    exact SlotAt.setStream hat hid
  · have hw : (debitData w i streamId chunk last).2 = w := by
      unfold debitData at h ⊢
      cases hg : encodeData streamId chunk last with
      | error status => rfl
      | ok g =>
        rw [hg] at h
        simp only at h ⊢
        split
        · rfl
        · next hn =>
          rw [if_neg hn] at h
          exact absurd rfl h
    rw [hw]
    exact ⟨.refl, hat⟩

theorem queueData_steps (last : Bool) (hpos : 0 < availableWindow w.conn (w.conn.slot i).stream)
    (hle : (chunk.length : ℤ) ≤ availableWindow w.conn (w.conn.slot i).stream) :
    StepsKeep (Holds i streamId) w (queueData w i streamId chunk last).2 := by
  have hroom := makeRoom_steps (J := Holds i streamId) w chunk.length id
  have hconn : (makeRoom w chunk.length).2.conn = w.conn ∨
      (makeRoom w chunk.length).2.conn = { w.conn with sendBuffer := [] } := by
    rcases makeRoom_cases w chunk.length with h | h
    · exact .inl (by rw [h])
    · exact .inr (by rw [h]; rfl)
  unfold queueData
  generalize makeRoom w chunk.length = r at hroom hconn ⊢
  obtain ⟨status, w₁⟩ := r
  simp only at hroom hconn ⊢
  split
  · exact hroom
  · refine hroom.trans (debitData_steps last ?_ ?_)
    all_goals rcases hconn with h | h <;> rw [h] <;> assumption

theorem waitForWindow_steps (i streamId : ℕ) (w : Http2World) :
    StepsKeep (Sends i streamId) w (waitForWindow w).2 := by
  have hidle : ∀ w₁ : Http2World, SendIdle w₁ →
      StepsKeep (Sends i streamId) w₁ (dispatchNextFrame w₁).2 :=
    fun w₁ hb hs => ⟨(dispatchNextFrame_idleSteps w₁ hb).1, SlotOf.dispatchNextFrame hs⟩
  unfold waitForWindow
  split
  · have hf := flushSendBuffer_steps i streamId w
    have hb : SendIdle (flushSendBuffer w).2 := rfl
    generalize flushSendBuffer w = r at hf hb ⊢
    obtain ⟨status, w₁⟩ := r
    simp only at hf hb ⊢
    split
    · exact hf
    · exact hf.trans (hidle w₁ hb)
  · next hb => exact hidle w (not_not.1 hb)

theorem length_take_le_available (rest : Bytes) (n : ℕ) {available : ℤ} (h : 0 < available) :
    ((rest.take (min (min rest.length n) available.toNat)).length : ℤ) ≤ available := by
  rw [List.length_take]
  omega

theorem bodyTurn_steps (k : SendContext) (s : Http2World × Bytes) :
    TurnSteps (Sends k.slot k.streamId) s.1 (fun s : Http2World × Bytes => s.1)
      (fun r : NTSTATUS × Http2World => r.2) (bodyTurn k s) := by
  obtain ⟨w, rest⟩ := s
  unfold bodyTurn
  simp only
  split
  · exact .refl w
  · split
    · have hw := waitForWindow_steps k.slot k.streamId w
      generalize waitForWindow w = r at hw ⊢
      obtain ⟨status, w₁⟩ := r
      simp only at hw ⊢
      split
      · exact hw
      · split
        · exact hw
        · exact hw
    · next hav =>
      split
      · exact .refl w
      · next hend =>
        have hclosed : (w.conn.slot k.slot).responseState.streamClosed = false := by
          simp only [responseEnded, Bool.or_eq_true, not_or, Bool.not_eq_true] at hend
          exact hend.2
        have hpos : 0 < availableWindow w.conn (w.conn.slot k.slot).stream := not_le.1 hav
        set chunkLen := min (min rest.length k.maxPayload)
          (availableWindow w.conn (w.conn.slot k.slot).stream).toNat
        have hq : StepsKeep (Sends k.slot k.streamId) w (queueData w k.slot k.streamId
            (rest.take chunkLen) (decide (rest.length ≤ chunkLen))).2 := by
          intro hs
          obtain ⟨hsteps, hat⟩ := queueData_steps (decide (rest.length ≤ chunkLen)) hpos
            (length_take_le_available rest k.maxPayload hpos)
            (SlotOf.slotAt hs hclosed)
          exact ⟨hsteps, hat.slotOf⟩
        generalize queueData w k.slot k.streamId _ _ = r at hq ⊢
        obtain ⟨status, w₁⟩ := r
        simp only at hq ⊢
        split
        · exact hq
        · exact hq

theorem sendBody_steps (w : Http2World) (k : SendContext) (body : Bytes) :
    StepsKeep (Sends k.slot k.streamId) w (sendBody w k body).2 :=
  run_steps (bodyTurn_steps k) (fun _ => rfl) _ (w, body)

theorem finishRequest_steps (w : Http2World) (j : ℕ) :
    StepsKeep (Sends i streamId) w (finishRequest w j).2 := by
  unfold finishRequest
  split
  · exact .refl w
  · exact flushSendBuffer_steps i streamId w

theorem sendRequestBody_steps (w : Http2World) (k : SendContext) (body : Bytes) :
    StepsKeep (Sends k.slot k.streamId) w (sendRequestBody w k body).2 := by
  unfold sendRequestBody
  split
  · exact finishRequest_steps w k.slot
  · have hf := flushSendBuffer_steps k.slot k.streamId w
    generalize flushSendBuffer w = r at hf ⊢
    obtain ⟨status, w₁⟩ := r
    simp only at hf ⊢
    split
    · exact hf
    · have hb := hf.trans (sendBody_steps w₁ k body)
      generalize sendBody w₁ k body = r at hb ⊢
      obtain ⟨status, w₂⟩ := r
      simp only at hb ⊢
      split
      · exact hb
      · exact hb.trans (finishRequest_steps w₂ k.slot)

/-- A function that sends starts and ends with an empty send buffer. -/
theorem endSendBuffer_steps {J : Http2World → Prop} {r : NTSTATUS × Http2World}
    (h : StepsKeep J (clearSendBuffer w) r.2) (hJ : J (clearSendBuffer w)) :
    Steps none w (endSendBuffer r).2 ∧ SendIdle (endSendBuffer r).2 :=
  ⟨(Relation.ReflTransGen.head (.clear w) (h hJ).1).tail (.clear r.2), rfl⟩

theorem sendRequestFrames_steps (headers : List HttpHeader) (body : Bytes)
    (hb : SendIdle w) (hs : SlotAt w.conn i streamId) :
    Steps none w (sendRequestFrames w i headers body).2 ∧
      SendIdle (sendRequestFrames w i headers body).2 := by
  unfold sendRequestFrames
  generalize w.conn.encoder.encode headers w.conn.headerBlockCapacity = r
  obtain ⟨encoded, encoder⟩ := r
  simp only
  set w₁ : Http2World := { w with conn := { w.conn with encoder } } with hw₁
  have h₁ : Steps none w w₁ := .single (.bookkeeping w.incoming rfl)
  have hs₁ : SlotAt w₁.conn i streamId := hs
  cases encoded with
  | error status => exact ⟨h₁, hb⟩
  | ok block =>
    simp only
    have hid : (w₁.conn.slot i).stream.streamId = streamId := hs₁.2.2
    rw [hid]
    set k : SendContext :=
      { slot := i
        streamId
        endStream := !(w₁.conn.slot i).responseState.tunnelMode && body.isEmpty
        maxPayload := outboundPayloadLimit w₁.conn.peerSettings.maxFrameSize }
    have hblock := sendHeaderBlock_steps (clearSendBuffer w₁) k block
    have h : StepsKeep (Sends i streamId) (clearSendBuffer w₁)
        (let r := sendHeaderBlock (clearSendBuffer w₁) k block
          if ¬ ntSuccess r.1 then r else sendRequestBody r.2 k body).2 := by
      generalize sendHeaderBlock (clearSendBuffer w₁) k block = r at hblock ⊢
      obtain ⟨status, w₂⟩ := r
      simp only at hblock ⊢
      split
      · exact hblock
      · exact hblock.trans (sendRequestBody_steps w₂ k body)
    obtain ⟨hsteps, hidle⟩ := endSendBuffer_steps h hs₁.slotOf
    exact ⟨h₁.trans hsteps, hidle⟩

theorem reserveActiveStream_spec (h : c.reserveActiveStream = some i) :
    i < c.activeStreams.length ∧ (c.slot i).inUse = false := by
  unfold Http2Connection.reserveActiveStream at h
  split at h
  · cases h
  · obtain ⟨hi, hp, -⟩ := List.findIdx?_eq_some_iff_getElem.1 h
    refine ⟨hi, ?_⟩
    rw [slot_eq_getElem hi]
    simpa using hp

theorem openStream_slotAt (r : Http2Request) (t : Bool)
    (h : i < c.activeStreams.length) : SlotAt (openStream c i r t) i c.nextStreamId := by
  unfold openStream
  refine ⟨by simpa using h, ?_⟩
  rw [slot_setSlot_self (by simpa using h)]
  exact ⟨rfl, rfl⟩

theorem ensureDecodedHeaderScratch_bookkeeping (c : Http2Connection) (n : ℕ) :
    Bookkeeping c (ensureDecodedHeaderScratch c n).2 := by
  unfold ensureDecodedHeaderScratch
  split <;> rfl

theorem streamDataTurn_steps (k : SendContext) (s : Http2World × Bytes × Bool) :
    TurnSteps (Holds k.slot k.streamId) s.1 (fun s : Http2World × Bytes × Bool => s.1)
      (fun r : NTSTATUS × Http2World => r.2) (streamDataTurn k s) := by
  obtain ⟨w, rest, started⟩ := s
  unfold streamDataTurn
  simp only
  split
  · exact .refl w
  · split
    · exact .refl w
    · next hav =>
      have hpos : 0 < availableWindow w.conn (w.conn.slot k.slot).stream := not_le.1 hav
      set chunkLen := min (min rest.length k.maxPayload)
        (availableWindow w.conn (w.conn.slot k.slot).stream).toNat
      have hq : StepsKeep (Holds k.slot k.streamId) w (queueData w k.slot k.streamId
          (rest.take chunkLen) (k.endStream && decide (rest.length ≤ chunkLen))).2 :=
        queueData_steps _ hpos (length_take_le_available rest k.maxPayload hpos)
      generalize queueData w k.slot k.streamId _ _ = r at hq ⊢
      obtain ⟨status, w₁⟩ := r
      simp only at hq ⊢
      split
      · exact hq
      · exact hq

theorem tunnelSlot_spec (h : tunnelSlot c streamId = some i) :
    SlotAt c i streamId ∧ streamId ≠ 0 := by
  unfold tunnelSlot at h
  exact findActiveStream_spec (Option.filter_eq_some_iff.1 h).1

theorem awaitSendStreamData_idleSteps (w : Http2World) (streamId : ℕ) (data : Bytes)
    (endStream : Bool) : IdleSteps w (awaitSendStreamData w streamId data endStream).2 := by
  unfold awaitSendStreamData
  split
  · exact .refl w
  · next i hi =>
    intro _
    simp only
    set k : SendContext :=
      { slot := i, streamId, endStream
        maxPayload := outboundPayloadLimit w.conn.peerSettings.maxFrameSize }
    have hdata : StepsKeep (Holds i streamId) (clearSendBuffer w)
        (run (streamDataTurn k) (fun s => (statusSuccess, s.1)) (data.length + 2)
          (clearSendBuffer w, data, false)).2 :=
      run_steps (streamDataTurn_steps k) (fun _ => rfl) _ (clearSendBuffer w, data, false)
    have hs : SlotAt (clearSendBuffer w).conn i streamId := (tunnelSlot_spec hi).1
    refine endSendBuffer_steps (J := fun _ => True) (fun _ => ⟨?_, trivial⟩) trivial
    obtain ⟨h₁, -⟩ := hdata hs
    generalize run (streamDataTurn k) _ _ _ = r at h₁ ⊢
    obtain ⟨status, w₁⟩ := r
    simp only at h₁ ⊢
    split
    · exact h₁
    · exact h₁.tail (.flush w₁)

end Sending

/-! ## Tunnels -/

section Tunnels

variable {w : Http2World} {i streamId : ℕ}

variable {c : Http2Connection} {w' : Http2World}

theorem SlotAt.bookkeeping (h : SlotAt w.conn i streamId)
    (hb : Bookkeeping w.conn c) : SlotAt c i streamId := by
  unfold SlotAt Http2Connection.slot
  rw [hb.activeStreams]
  exact h

theorem SlotAt.calm (h : SlotAt w.conn i streamId) (hc : Calm w w') :
    SlotAt w'.conn i streamId := by
  have hs := hc.slot i
  exact ⟨by rw [← hc.streams.length_eq]; exact h.1, hs.inUse.trans h.2.1,
    hs.streamId.trans h.2.2⟩

theorem tunnelData_ne_again (w : Http2World) (i capacity : ℕ) (f : Http2Frame) :
    (tunnelData w i capacity f).2 ≠ .again := by
  unfold tunnelData
  split
  · rintro ⟨⟩
  · split
    · rintro ⟨⟩
    · simp only
      split
      · rintro ⟨⟩
      · split
        · rintro ⟨⟩
        · generalize sendWindowUpdateIfNeeded _ _ _ = r
          simp only
          split
          · rintro ⟨⟩
          · rintro ⟨⟩

theorem receiveStreamFrame_again {capacity : ℕ} {f : Http2Frame} (h : SlotAt w.conn i streamId)
    (ht : receiveStreamFrame w streamId i capacity f = (w', .again)) :
    SlotAt w'.conn i streamId := by
  unfold receiveStreamFrame at ht
  split at ht
  · cases ht
  · split at ht
    · have hc := handleConnectionFrame_calm w f (some (w.conn.slot i).stream.streamId)
      have hw : (outcomeOf (handleConnectionFrame w f (some (w.conn.slot i).stream.streamId))).1 =
          w' := congrArg Prod.fst ht
      rw [← hw]
      exact h.calm hc
    · next h0 =>
      split at ht
      · next hne =>
        split at ht
        · cases ht
          exact h
        · next j hj =>
          have hij : i ≠ j := by
            rintro rfl
            exact hne ((findActiveStream_spec hj).1.2.2.symm.trans h.2.2)
          have hs := processSlot_slotStep w j f
          have hw : (processSlot w j f).2 = w' := congrArg Prod.fst ht
          rw [hw] at hs
          unfold SlotAt
          rw [hs.length, hs.slot_ne hij]
          exact h
      · next heq =>
        have heq : f.streamId = streamId := not_not.1 heq
        have hprocess : ∀ {o : TunnelOutcome}, (let r := processSlot w i f
            (r.2, if ¬ ntSuccess r.1 then TunnelOutcome.failed r.1 [] false
              else if (r.2.conn.slot i).responseState.streamClosed then .closed else .again)) =
                (w', o) → o = .again → SlotAt w'.conn i streamId := by
          intro o ho hagain
          rw [← heq] at h ⊢
          have hof := h.slotOf.processSlot h h0
          simp only [Prod.mk.injEq] at ho
          obtain ⟨rfl, rfl⟩ := ho
          refine hof.slotAt ?_
          split at hagain
          · cases hagain
          · split at hagain
            · cases hagain
            · next hc => simpa using hc
        unfold tunnelFrame at ht
        split at ht
        · exact absurd (congrArg Prod.snd ht) (tunnelData_ne_again w i capacity f)
        · exact hprocess ht rfl
        · exact hprocess ht rfl
        · cases ht
        · cases ht
        · cases ht
          exact h

theorem tunnel_idleSteps (hb : Bookkeeping w.conn c)
    (incoming : List (Except NTSTATUS UInt8)) (capacity : ℕ) (f : Http2Frame)
    (h : SlotAt c i streamId) (h0 : streamId ≠ 0) :
    IdleSteps w (receiveStreamFrame (receiveFrame { w with conn := c, incoming }
      (.tunnel streamId i capacity) f) streamId i capacity f).1 :=
  read_idleSteps hb incoming (.tunnel streamId i capacity) f ⟨h, h0⟩

/-- A turn of `ReceiveStreamData`: steps, and the tunnel keeps its slot when it
    goes on. -/
def TunnelTurn (i streamId : ℕ) (w : Http2World) :
    Turn Http2World (Http2World × TunnelOutcome) → Prop
  | .done r => Steps none w r.1 ∧ SendIdle r.1
  | .again w' => Steps none w w' ∧ SendIdle w' ∧ SlotAt w'.conn i streamId

theorem receiveStreamTurn_steps (capacity : ℕ) (hidle : SendIdle w)
    (h : SlotAt w.conn i streamId) (h0 : streamId ≠ 0) :
    TunnelTurn i streamId w (receiveStreamTurn streamId i capacity w) := by
  unfold receiveStreamTurn
  have hreads := readFrame_reads w (.tunnel streamId i capacity)
  cases hr : readFrame w (.tunnel streamId i capacity) with
  | mk result w₁ =>
    rw [hr] at hreads
    cases hreads with
    | failed status c incoming hb _ =>
      exact ((bookkeeping_idleSteps incoming hb).trans
        (handleReadFrameFailure_idleSteps _ status)) hidle
    | read f c incoming hb _ _ =>
      simp only
      have hsteps := tunnel_idleSteps hb incoming capacity f (h.bookkeeping hb) h0 hidle
      have hslot : SlotAt (receiveFrame { w with conn := c, incoming }
          (.tunnel streamId i capacity) f).conn i streamId := h.bookkeeping hb
      generalize receiveFrame { w with conn := c, incoming } (.tunnel streamId i capacity) f = w₂
        at hsteps hslot ⊢
      cases ho : receiveStreamFrame w₂ streamId i capacity f with
      | mk w₃ outcome =>
        rw [ho] at hsteps
        cases outcome with
        | again => exact ⟨hsteps.1, hsteps.2, receiveStreamFrame_again hslot ho⟩
        | failed status content ended => exact hsteps
        | data content ended => exact hsteps
        | closed => exact hsteps

theorem awaitStreamData_idleSteps (w : Http2World) (streamId capacity : ℕ) :
    IdleSteps w (awaitStreamData w streamId capacity).1 := by
  intro hidle
  unfold awaitStreamData
  split
  · exact ⟨.refl, hidle⟩
  · next i hi =>
    obtain ⟨hslot, h0⟩ := tunnelSlot_spec hi
    refine run_induct (I := fun t => Steps none w t ∧ SendIdle t ∧ SlotAt t.conn i streamId)
      (Q := fun r : Http2World × TunnelOutcome => Steps none w r.1 ∧ SendIdle r.1) ?_ ?_ ?_ _ w ⟨.refl, hidle, hslot⟩
    · exact fun t h => ⟨h.1, h.2.1⟩
    · intro t r h ht
      have hturn := receiveStreamTurn_steps capacity h.2.1 h.2.2 h0
      rw [ht] at hturn
      exact ⟨h.1.trans hturn.1, hturn.2⟩
    · intro t t' h ht
      have hturn := receiveStreamTurn_steps capacity h.2.1 h.2.2 h0
      rw [ht] at hturn
      exact ⟨h.1.trans hturn.1, hturn.2⟩

end Tunnels

/-! ## Runs of calls are steps -/

section Calls

variable {fresh : Http2Connection → Prop}

/-- Steps of a call, which may free slots, and take one while the connection is
    `fresh`. -/
def CallSteps (fresh : Http2Connection → Prop) (w w' : Http2World) : Prop :=
  SendIdle w → Steps (some fresh) w w' ∧ SendIdle w'

namespace CallSteps

variable {w w' w'' : Http2World}

theorem refl (w : Http2World) : CallSteps fresh w w := fun h => ⟨.refl, h⟩

theorem trans (h : CallSteps fresh w w') (h' : CallSteps fresh w' w'') : CallSteps fresh w w'' := by
  intro hidle
  obtain ⟨hs, hidle'⟩ := h hidle
  obtain ⟨hs', hidle''⟩ := h' hidle'
  exact ⟨hs.trans hs', hidle''⟩

end CallSteps

theorem StepsKeep.call {w w' : Http2World} (h : IdleSteps w w') : CallSteps fresh w w' :=
  fun hidle => ⟨(h hidle).1.mono, (h hidle).2⟩

theorem release_callSteps (w : Http2World) (streamId : ℕ) :
    CallSteps fresh w { w with conn := w.conn.releaseActiveStream streamId } :=
  fun hidle => ⟨.single (.release w streamId),
    (releaseActiveStream_sendBuffer w.conn streamId).trans hidle⟩

theorem beginRequest_callSteps (w : Http2World) (r : Http2Request)
    (hbook : ∀ c c', Bookkeeping c c' → fresh c → fresh c') (hfresh : fresh w.conn) :
    CallSteps fresh w (beginRequest w r).2.1 := by
  have hb := ensureDecodedHeaderScratch_bookkeeping w.conn r.responseHeaderCapacity
  have h₁ : CallSteps fresh w _ := (bookkeeping_idleSteps w.incoming hb).call
  have hfresh₁ := hbook _ _ hb hfresh
  unfold beginRequest
  generalize ensureDecodedHeaderScratch w.conn r.responseHeaderCapacity = e at h₁ hfresh₁ ⊢
  obtain ⟨status, conn⟩ := e
  simp only at h₁ hfresh₁ ⊢
  set w₁ : Http2World := { w with conn }
  split
  · exact h₁
  · split
    · exact h₁
    · next tunnelMode _ =>
      split
      · exact h₁
      · split
        · exact h₁
        · next i hi =>
          refine h₁.trans fun hidle => ?_
          set w₂ : Http2World := { w₁ with conn := openStream w₁.conn i r tunnelMode }
          have hopen : Steps (some fresh) w₁ w₂ := .single (.openStream r tunnelMode hi hfresh₁)
          obtain ⟨hsteps, hidle'⟩ := sendRequestFrames_steps r.headers r.body
            (show SendIdle w₂ from hidle)
            (openStream_slotAt r tunnelMode (reserveActiveStream_spec hi).1)
          generalize sendRequestFrames w₂ i r.headers r.body = q at hsteps hidle' ⊢
          obtain ⟨status', w₃⟩ := q
          simp only at hsteps hidle' ⊢
          split
          · have hrelease : CallSteps fresh w₃ _ := release_callSteps w₃ w₁.conn.nextStreamId
            obtain ⟨hrel, hidle''⟩ := hrelease hidle'
            exact ⟨(hopen.trans hsteps.mono).trans hrel, hidle''⟩
          · exact ⟨hopen.trans hsteps.mono, hidle'⟩

theorem receiveResponse_callSteps (w : Http2World) (streamId : ℕ) :
    CallSteps fresh w (receiveResponse w streamId).2.1 := by
  have h : CallSteps fresh w _ := (awaitResponse_idleSteps w streamId).call
  unfold receiveResponse
  generalize awaitResponse w streamId = r at h ⊢
  obtain ⟨result, w₁⟩ := r
  cases result with
  | error status => exact h
  | ok i => exact h.trans (release_callSteps w₁ streamId)

theorem receiveResponseHeaders_callSteps (w : Http2World) (streamId : ℕ) :
    CallSteps fresh w (receiveResponseHeaders w streamId).2 := by
  have h : CallSteps fresh w _ := (awaitResponseHeaders_idleSteps w streamId).call
  unfold receiveResponseHeaders
  generalize awaitResponseHeaders w streamId = r at h ⊢
  obtain ⟨result, w₁⟩ := r
  cases result with
  | error status => exact h
  | ok i =>
    simp only
    split
    · exact h.trans (release_callSteps w₁ streamId)
    · exact h.trans (IdleSteps.of_sendBuffer (.publish w₁ i) rfl).call

theorem sendStreamData_callSteps (w : Http2World) (streamId : ℕ) (data : Bytes)
    (endStream : Bool) : CallSteps fresh w (sendStreamData w streamId data endStream).2 := by
  have h : CallSteps fresh w _ := (awaitSendStreamData_idleSteps w streamId data endStream).call
  unfold sendStreamData
  generalize awaitSendStreamData w streamId data endStream = r at h ⊢
  obtain ⟨status, w₁⟩ := r
  simp only
  split
  · exact h.trans (release_callSteps w₁ streamId)
  · exact h

theorem receiveStreamData_callSteps (w : Http2World) (streamId capacity : ℕ) :
    CallSteps fresh w (receiveStreamData w streamId capacity).2.1 := by
  have h : CallSteps fresh w _ := (awaitStreamData_idleSteps w streamId capacity).call
  unfold receiveStreamData
  generalize awaitStreamData w streamId capacity = r at h ⊢
  obtain ⟨w₁, outcome⟩ := r
  cases outcome with
  | again => exact h
  | failed status content ended => exact h
  | data content ended =>
    simp only
    split
    · exact h.trans (release_callSteps w₁ streamId)
    · exact h
  | closed => exact h.trans (release_callSteps w₁ streamId)

theorem shutdown_sendBuffer (w : Http2World) :
    (shutdown w).2.conn.sendBuffer = w.conn.sendBuffer := by
  unfold shutdown
  split <;> rfl

theorem sendPing_idleSteps (w : Http2World) (opaqueData : Bytes) :
    IdleSteps w (sendPing w opaqueData).2 := by
  unfold sendPing
  split
  · exact .refl w
  · exact IdleSteps.of_sendBuffer (.ping w opaqueData) rfl

theorem receiveUpgradedResponse_idleSteps (w : Http2World) (streamId : ℕ) (r : Http2Request) :
    IdleSteps w (receiveUpgradedResponse w streamId r).2.1 := by
  have h₁ := bookkeeping_idleSteps w.incoming
    (ensureDecodedHeaderScratch_bookkeeping w.conn r.responseHeaderCapacity)
  unfold receiveUpgradedResponse
  split
  · exact .refl w
  · simp only
    generalize ensureDecodedHeaderScratch w.conn r.responseHeaderCapacity = e at h₁ ⊢
    obtain ⟨status, conn⟩ := e
    simp only at h₁ ⊢
    split
    · exact h₁
    · exact h₁.trans (receiveResponseFramesWithState_idleSteps _ ⟨rfl, nofun⟩)

/-- The call opens a stream only on a connection that is `fresh`. -/
def Http2World.Opens (fresh : Http2Connection → Prop) (w : Http2World) : Http2Call → Prop
  | .beginRequest _ => fresh w.conn
  | _ => True

instance [DecidablePred fresh] (w : Http2World) : ∀ call : Http2Call, Decidable (w.Opens fresh call)
  | .beginRequest _ => inferInstanceAs (Decidable (fresh w.conn))
  | .receiveResponse _ | .releaseStream _ | .receiveResponseHeaders _ | .sendStreamData _ _ _
  | .receiveStreamData _ _ | .sendPing _ | .shutdown | .receiveUpgradedResponse _ _ =>
    inferInstanceAs (Decidable True)

/-- Every call opens streams only on a connection that is `fresh`. -/
def OpensWhile (fresh : Http2Connection → Prop) : Http2World → List Http2Call → Prop
  | _, [] => True
  | w, call :: calls => w.Opens fresh call ∧ OpensWhile fresh (w.call call) calls

instance instDecidableOpensWhile [DecidablePred fresh] :
    ∀ (w : Http2World) (calls : List Http2Call), Decidable (OpensWhile fresh w calls)
  | _, [] => inferInstanceAs (Decidable True)
  | w, call :: calls =>
    have : Decidable (OpensWhile fresh (w.call call) calls) :=
      instDecidableOpensWhile (w.call call) calls
    inferInstanceAs (Decidable (w.Opens fresh call ∧ OpensWhile fresh (w.call call) calls))

theorem call_callSteps (hbook : ∀ c c', Bookkeeping c c' → fresh c → fresh c') (w : Http2World)
    (call : Http2Call) (h : w.Opens fresh call) : CallSteps fresh w (w.call call) := by
  cases call with
  | beginRequest r => exact beginRequest_callSteps w r hbook h
  | receiveResponse streamId => exact receiveResponse_callSteps w streamId
  | releaseStream streamId => exact release_callSteps w streamId
  | receiveResponseHeaders streamId => exact receiveResponseHeaders_callSteps w streamId
  | sendStreamData streamId data endStream => exact sendStreamData_callSteps w streamId data endStream
  | receiveStreamData streamId capacity => exact receiveStreamData_callSteps w streamId capacity
  | sendPing opaqueData => exact (sendPing_idleSteps w opaqueData).call
  | shutdown => exact (IdleSteps.of_sendBuffer (.shutdown w) (shutdown_sendBuffer w)).call
  | receiveUpgradedResponse streamId r => exact (receiveUpgradedResponse_idleSteps w streamId r).call

/-- **Every run of calls is steps.** -/
theorem runCalls_callSteps (hbook : ∀ c c', Bookkeeping c c' → fresh c → fresh c') :
    ∀ (calls : List Http2Call) (w : Http2World), OpensWhile fresh w calls →
      CallSteps fresh w (w.runCalls calls)
  | [], w, _ => .refl w
  | call :: calls, w, h =>
    (call_callSteps hbook w call h.1).trans (runCalls_callSteps hbook calls (w.call call) h.2)

theorem opensWhile_true : ∀ (calls : List Http2Call) (w : Http2World),
    OpensWhile (fun _ => True) w calls
  | [], _ => trivial
  | call :: calls, w => ⟨by cases call <;> trivial, opensWhile_true calls (w.call call)⟩

theorem call_steps (w : Http2World) (call : Http2Call) : CallSteps (fun _ => True) w (w.call call) :=
  call_callSteps (fun _ _ _ h => h) w call (opensWhile_true [call] w).1

theorem runCalls_steps (calls : List Http2Call) (w : Http2World) :
    CallSteps (fun _ => True) w (w.runCalls calls) :=
  runCalls_callSteps (fun _ _ _ h => h) calls w (opensWhile_true calls w)

end Calls

/-! ## Reachable connections -/

/-- What `Initialize` leaves when it succeeds: SETTINGS were sent, those of the peer
    were received and acknowledged. -/
structure Started (w : Http2World) : Prop where
  conn : ∃ maxHeaderBlockBytes, w.conn = { freshConnection maxHeaderBlockBytes with
    peerSettings := w.conn.peerSettings
    encoder := w.conn.encoder
    readFrameErrorCode := w.conn.readFrameErrorCode
    connectionFramesRead := w.conn.connectionFramesRead
    connectionBytesRead := w.conn.connectionBytesRead
    decodedHeaderScratchCapacity := w.conn.decodedHeaderScratchCapacity }
  events : ∃ settings sent f c acked decoded, w.events =
      [.sent [settingsFrame settings] sent, .received f .dispatch c, .sent [settingsAck] acked] ∧
    f.type = .settings ∧ f.ack = false ∧ f.streamId = 0 ∧ ntSuccess sent = true ∧
    ntSuccess acked = true ∧ decodeSettingsPayload f.payload {} = (decoded, w.conn.peerSettings) ∧
    ntSuccess decoded = true ∧ w.conn.peerSettings.enablePush = 0

theorem handleReadFrameFailure_status (w : Http2World) (status : NTSTATUS) :
    (handleReadFrameFailure w status).1 = status := by
  unfold handleReadFrameFailure
  split
  · rfl
  · split <;> rfl

theorem acceptFirstSettings_started {f : Http2Frame}
    (h : acceptFirstSettings w f = (status, w')) (hs : ntSuccess status = true) :
    f.type = .settings ∧ f.ack = false ∧ f.streamId = 0 ∧ w'.conn.peerSettings.enablePush = 0 ∧
      ∃ decoded encoder acked, ntSuccess acked = true ∧
        decodeSettingsPayload f.payload w.conn.peerSettings = (decoded, w'.conn.peerSettings) ∧
        ntSuccess decoded = true ∧
        w'.conn = { w.conn with peerSettings := w'.conn.peerSettings, encoder } ∧
        w'.events = w.events ++ [.sent [settingsAck] acked] := by
  unfold acceptFirstSettings at h
  split at h
  · cases h
    cases hs
  · next hf =>
    simp only [ne_eq, not_or, not_not, Bool.not_eq_true] at hf
    generalize hd : decodeSettingsPayload f.payload w.conn.peerSettings = r at h
    obtain ⟨decoded, peerSettings⟩ := r
    simp only at h
    split at h
    · next hbad =>
      simp only [refuse, Prod.mk.injEq] at h
      rw [← h.1] at hs
      split at hs
      · cases hs
      · next hn => exact absurd hs hn
    · next hok =>
      simp only [ne_eq, not_or, not_not] at hok
      simp only [sendRaw, Prod.mk.injEq] at h
      obtain ⟨h1, h2⟩ := h
      subst h2
      refine ⟨hf.1, hf.2.1, hf.2.2, hok.2, decoded, _, nextAnswer w.sendAnswers, ?_, rfl, hok.1, rfl,
        rfl⟩
      rw [h1]
      exact hs

theorem initializeConnection_started {maxHeaderBlockBytes : ℕ}
    {incoming : List (Except NTSTATUS UInt8)} {sendAnswers : List NTSTATUS}
    (h : initializeConnection maxHeaderBlockBytes incoming sendAnswers = (status, w))
    (hs : ntSuccess status = true) : Started w := by
  unfold initializeConnection at h
  simp only at h
  split at h
  · cases h
    cases hs
  · generalize hsend : sendRaw _ _ = r at h
    obtain ⟨sent, w₁⟩ := r
    simp only [sendRaw, Prod.mk.injEq] at hsend
    obtain ⟨hanswer, hw₁⟩ := hsend
    simp only at h
    by_cases hsent : ntSuccess sent = true
    · rw [if_neg (not_not.2 hsent)] at h
      have hreads := readFrame_reads w₁ .dispatch
      cases hr : readFrame w₁ .dispatch with
      | mk result w₂ =>
        rw [hr] at h hreads
        cases hreads with
        | failed status' c incoming' hb hf =>
          have := congrArg Prod.fst h
          simp only [handleReadFrameFailure_status] at this
          rw [← this, hf] at hs
          cases hs
        | read f c incoming' hb _ _ =>
          obtain ⟨hty, hack, hid, hpush, decoded, encoder, acked, hacked, hdec, hok, hconn, hev⟩ :=
            acceptFirstSettings_started h hs
          rw [← hw₁] at hb hev
          simp only [receiveFrame] at hdec hconn hev
          refine ⟨⟨maxHeaderBlockBytes, ?_⟩, _, _, f, c, acked, decoded, hev, hty, hack, hid,
            by rw [hanswer]; exact hsent, hacked, ?_, hok, hpush⟩
          · rw [hconn, hb]
          · rw [hb] at hdec
            exact hdec
    · rw [if_pos hsent] at h
      rw [(Prod.mk.inj h).1] at hsent
      exact absurd hs hsent

/-- The states of a connection between calls: `Initialize` succeeded, and any calls
    followed. -/
def Reachable (w : Http2World) : Prop :=
  ∃ maxHeaderBlockBytes incoming sendAnswers status w₀ calls,
    initializeConnection maxHeaderBlockBytes incoming sendAnswers = (status, w₀) ∧
      ntSuccess status = true ∧ w = w₀.runCalls calls

theorem Started.sendIdle (h : Started w) : SendIdle w := by
  obtain ⟨n, hc⟩ := h.conn
  unfold SendIdle
  rw [hc]
  rfl

/-- **An invariant of the steps is an invariant of the connection.** -/
theorem Reachable.induct {P : Http2World → Prop} (hstart : ∀ w, Started w → P w)
    (hstep : ∀ w w', P w → Step (some fun _ => True) w w' → P w') (h : Reachable w) : P w := by
  obtain ⟨n, incoming, sendAnswers, status, w₀, calls, hinit, hs, rfl⟩ := h
  have hstarted := initializeConnection_started hinit hs
  exact Steps.induct hstep (runCalls_steps calls w₀ hstarted.sendIdle).1 (hstart w₀ hstarted)

def getRequest : Http2Request :=
  { headers := [⟨text ":method", text "GET"⟩]
    responseHeaderCapacity := 4
    nameValueCapacity := 16 }

/-- The state behind `Initialize` and calls, on a transport that delivers octets,
    closes, and takes whatever is sent. -/
def runOn (octets : Bytes) (calls : List Http2Call) : Http2World :=
  (initializeConnection 64 (octets.map .ok) []).2.runCalls calls

theorem runOn_reachable {octets : Bytes} {calls : List Http2Call}
    (h : ntSuccess (initializeConnection 64 (octets.map .ok) []).1 = true) :
    Reachable (runOn octets calls) :=
  ⟨64, octets.map .ok, [], _, _, calls, rfl, h, rfl⟩

end KernelHttp.Http2
