/-
  The steps of a connection.

  Every call of the public interface is a sequence of small steps (`Step`): a
  frame that is read and handled, a stream that is opened or released, a chunk
  that is queued, and so on.
-/
import KernelHttp.Http2.Effects

namespace KernelHttp.Http2

open Loop

/-! ## The steps -/

/-- Counters, the read error code, the scratch array and the encoder change, and
    nothing else. -/
def Bookkeeping (c c' : Http2Connection) : Prop :=
  c' = { c with
    readFrameErrorCode := c'.readFrameErrorCode
    connectionFramesRead := c'.connectionFramesRead
    connectionBytesRead := c'.connectionBytesRead
    decodedHeaderScratchCapacity := c'.decodedHeaderScratchCapacity
    encoder := c'.encoder }

def Http2Reader.handle (reader : Http2Reader) (w : Http2World) (f : Http2Frame) : Http2World :=
  match reader with
  | .dispatch => (dispatchFrame w f).2
  | .single a => (singleFrame w a f).2.1
  | .tunnel streamId i capacity => (receiveStreamFrame w streamId i capacity f).1

/-- The slot in use at an index holds a stream. -/
def SlotAt (c : Http2Connection) (i streamId : ℕ) : Prop :=
  i < c.activeStreams.length ∧ (c.slot i).inUse = true ∧ (c.slot i).stream.streamId = streamId

/-- A stream in use whose open header block is its own. -/
structure OwnBlock (a : Http2ActiveStream) : Prop where
  inUse : a.inUse = true
  continues : a.responseState.expectingContinuation = true →
    a.responseState.continuationStreamId = a.stream.streamId

/-- The slot of a tunnel is the slot of its stream; a single stream waits for
    CONTINUATION of its own. -/
def Http2Reader.Valid (reader : Http2Reader) (c : Http2Connection) : Prop :=
  match reader with
  | .tunnel streamId i _ => SlotAt c i streamId ∧ streamId ≠ 0
  | .single a => OwnBlock a
  | .dispatch => True

/-- The small steps.  With `none` no slot is taken or freed; with `some fresh`, a
    stream is opened only on connections that are `fresh`. -/
inductive Step : Option (Http2Connection → Prop) → Http2World → Http2World → Prop
  | bookkeeping {k} {w : Http2World} {c : Http2Connection} (incoming : List (Except NTSTATUS UInt8))
      (h : Bookkeeping w.conn c) : Step k w { w with conn := c, incoming }
  | frame {k} {w : Http2World} (reader : Http2Reader) (f : Http2Frame) (h : reader.Valid w.conn)
      (hb : w.conn.sendBuffer = []) : Step k w (reader.handle (receiveFrame w reader f) f)
  | goAway {k} (w : Http2World) (e : Http2ErrorCode) : Step k w (sendGoAway w e).2
  | ping {k} (w : Http2World) (d : Bytes) : Step k w (sendRaw w [pingFrame d false]).2
  | shutdown {k} (w : Http2World) : Step k w (Http2.shutdown w).2
  | openStream {fresh : Http2Connection → Prop} {w : Http2World} {i : ℕ} (r : Http2Request)
      (t : Bool) (h : w.conn.reserveActiveStream = some i) (hf : fresh w.conn) :
      Step (some fresh) w { w with conn := Http2.openStream w.conn i r t }
  | clear {k} (w : Http2World) : Step k w (clearSendBuffer w)
  | flush {k} (w : Http2World) : Step k w (flushSendBuffer w).2
  | sendHeaders {k} (w : Http2World) (i : ℕ) (b : Bool) :
      Step k w (setStream w i ((w.conn.slot i).stream.sendHeaders b).2)
  | queue {k} (w : Http2World) {f : Http2Frame} (h : f.type = .headers ∨ f.type = .continuation) :
      Step k w (queueFrame w f)
  | debit {k} {w w' : Http2World} {i streamId : ℕ} {chunk : Bytes} {last : Bool}
      (hslot : SlotAt w.conn i streamId)
      (hpos : 0 < availableWindow w.conn (w.conn.slot i).stream)
      (hle : (chunk.length : ℤ) ≤ availableWindow w.conn (w.conn.slot i).stream)
      (h : debitData w i streamId chunk last = (statusSuccess, w')) : Step k w w'
  | release {fresh : Http2Connection → Prop} (w : Http2World) (streamId : ℕ) :
      Step (some fresh) w (releaseStream w streamId)
  | publish {k} (w : Http2World) (i : ℕ) :
      Step k w { w with conn := w.conn.setSlot i { w.conn.slot i with
        responseState := (w.conn.slot i).responseState.publish } }

abbrev Steps (k : Option (Http2Connection → Prop)) := Relation.ReflTransGen (Step k)

variable {c : Http2Connection} {f : Http2Frame} {w w' : Http2World} {i streamId : ℕ}

/-- What every step keeps holds behind steps. -/
theorem Steps.induct {k : Option (Http2Connection → Prop)} {P : Http2World → Prop}
    (hstep : ∀ w w', P w → Step k w w' → P w') (h : Steps k w w') (hw : P w) :
    P w' := by
  induction h with
  | refl => exact hw
  | tail _ hs ih => exact hstep _ _ ih hs

theorem Step.mono {k : Option (Http2Connection → Prop)} (h : Step none w w') : Step k w w' := by
  cases h with
  | bookkeeping incoming h => exact .bookkeeping incoming h
  | frame reader f h hb => exact .frame reader f h hb
  | goAway _ e => exact .goAway w e
  | ping _ d => exact .ping w d
  | shutdown => exact .shutdown w
  | clear => exact .clear w
  | flush => exact .flush w
  | sendHeaders _ i b => exact .sendHeaders w i b
  | queue _ h => exact .queue w h
  | debit hslot hpos hle h => exact .debit hslot hpos hle h
  | publish _ i => exact .publish w i

theorem Steps.mono {k : Option (Http2Connection → Prop)} (h : Steps none w w') : Steps k w w' := by
  induction h with
  | refl => exact .refl
  | tail _ hs ih => exact ih.tail hs.mono

/-! ## Slots -/

section Slots

variable {c : Http2Connection} {i j streamId : ℕ} {a : Http2ActiveStream}

theorem slot_setSlot_self (h : i < c.activeStreams.length) : (c.setSlot i a).slot i = a := by
  simp only [Http2Connection.slot, Http2Connection.setSlot, List.getD_eq_getElem?_getD]
  rw [List.getElem?_set_self h]
  rfl

theorem slot_setSlot_ne (h : j ≠ i) : (c.setSlot i a).slot j = c.slot j := by
  simp only [Http2Connection.slot, Http2Connection.setSlot, List.getD_eq_getElem?_getD]
  rw [List.getElem?_set_ne (Ne.symm h)]

@[simp] theorem length_setSlot : (c.setSlot i a).activeStreams.length = c.activeStreams.length :=
  List.length_set

theorem slot_eq_getElem (h : i < c.activeStreams.length) : c.slot i = c.activeStreams[i] := by
  simp [Http2Connection.slot, List.getD_eq_getElem?_getD, h]

theorem findActiveStream_spec (h : c.findActiveStream streamId = some i) :
    SlotAt c i streamId ∧ streamId ≠ 0 := by
  unfold Http2Connection.findActiveStream at h
  split at h
  · cases h
  · next h0 =>
    obtain ⟨hi, hp, -⟩ := List.findIdx?_eq_some_iff_getElem.1 h
    simp only [Bool.and_eq_true, beq_iff_eq] at hp
    refine ⟨⟨hi, ?_⟩, h0⟩
    rw [slot_eq_getElem hi]
    exact hp

theorem findActiveStream_none (h : c.findActiveStream streamId = none) (h0 : streamId ≠ 0) :
    ¬ SlotAt c i streamId := by
  rintro ⟨hi, hu, hid⟩
  unfold Http2Connection.findActiveStream at h
  rw [if_neg h0, List.findIdx?_eq_none_iff] at h
  rw [slot_eq_getElem hi] at hu hid
  have := h _ (List.getElem_mem hi)
  simp [hu, hid] at this

theorem forall₂_getD {l l' : List Http2ActiveStream} (h : List.Forall₂ SameSlot l l') (i : ℕ) :
    SameSlot (l.getD i {}) (l'.getD i {}) := by
  induction h generalizing i with
  | nil => exact SameSlot.refl _
  | cons hh _ ih =>
    cases i with
    | zero => exact hh
    | succ i => exact ih i

theorem Calm.slot {w w' : Http2World} (h : Calm w w') (i : ℕ) :
    SameSlot (w.conn.slot i) (w'.conn.slot i) := forall₂_getD h.streams i

end Slots

/-- A slot that was taken for a stream: it has the id of the stream, or the peer
    reset the stream, which closed it. -/
def SlotOf (c : Http2Connection) (i streamId : ℕ) : Prop :=
  i < c.activeStreams.length ∧ (c.slot i).inUse = true ∧
    ((c.slot i).stream.streamId = streamId ∨
      (c.slot i).stream.streamId = 0 ∧ (c.slot i).responseState.streamClosed = true)

theorem SlotAt.slotOf (h : SlotAt c i streamId) :
    SlotOf c i streamId := ⟨h.1, h.2.1, .inl h.2.2⟩

/-- A slot that is not closed is the slot of its stream. -/
theorem SlotOf.slotAt (h : SlotOf c i streamId)
    (hc : (c.slot i).responseState.streamClosed = false) : SlotAt c i streamId := by
  refine ⟨h.1, h.2.1, ?_⟩
  rcases h.2.2 with h | h
  · exact h
  · rw [hc] at h
    exact absurd h.2 (by simp)

section SlotOf

variable {w w' : Http2World} {i j streamId : ℕ}

theorem SlotOf.of_slot {c c' : Http2Connection} (h : SlotOf c i streamId)
    (hl : c'.activeStreams.length = c.activeStreams.length) (hs : c'.slot i = c.slot i) :
    SlotOf c' i streamId := by
  unfold SlotOf
  rw [hl, hs]
  exact h

variable {a : Http2ActiveStream} {t : Touch}

theorem SlotOf.quiet (h : SlotOf w.conn i streamId) (hq : Quiet t w w') :
    SlotOf w'.conn i streamId := h.of_slot (by rw [hq.activeStreams]) (hq.slot i)

theorem SlotOf.calm (h : SlotOf w.conn i streamId) (hc : Calm w w') :
    SlotOf w'.conn i streamId := by
  have hs := hc.slot i
  refine ⟨by rw [← hc.streams.length_eq]; exact h.1, hs.inUse.trans h.2.1, ?_⟩
  rw [hs.streamId, hs.responseState]
  exact h.2.2

theorem SlotStep.slot_ne (h : SlotStep t w w' j a) (hij : i ≠ j) :
    w'.conn.slot i = w.conn.slot i := by
  simp only [Http2Connection.slot, h.activeStreams, List.getD_eq_getElem?_getD]
  rw [List.getElem?_set_ne (Ne.symm hij)]

theorem SlotStep.slot_self (h : SlotStep t w w' i a)
    (hi : i < w.conn.activeStreams.length) : w'.conn.slot i = a := by
  simp only [Http2Connection.slot, h.activeStreams, List.getD_eq_getElem?_getD]
  rw [List.getElem?_set_self hi]
  rfl

theorem SlotStep.length (h : SlotStep t w w' j a) :
    w'.conn.activeStreams.length = w.conn.activeStreams.length := by
  rw [h.activeStreams, List.length_set]

theorem SlotOf.processSlot (h : SlotOf w.conn i streamId) {f : Http2Frame}
    (hj : SlotAt w.conn j f.streamId) (h0 : f.streamId ≠ 0) :
    SlotOf (processSlot w j f).2.conn i streamId := by
  obtain ⟨-, hu, hc⟩ := processResponseFrame_change w (w.conn.slot j) f
  have hs := processSlot_slotStep w j f
  by_cases hij : i = j
  · subst hij
    have hid : (w.conn.slot i).stream.streamId = streamId := by
      rcases h.2.2 with h | h
      · exact h
      · exact absurd (hj.2.2.symm.trans h.1) h0
    unfold SlotOf
    rw [hs.length, hs.slot_self h.1]
    refine ⟨h.1, hu.trans h.2.1, ?_⟩
    cases hc with
    | keep hi _ => exact .inl (hi.trans hid)
    | credit _ _ _ hi _ _ => exact .inl (hi.trans hid)
    | reset _ _ hs hcl => exact .inr ⟨by rw [hs], hcl⟩
  · exact h.of_slot hs.length (hs.slot_ne hij)

theorem SlotOf.dispatchFrame (h : SlotOf w.conn i streamId) (f : Http2Frame) :
    SlotOf (dispatchFrame w f).2.conn i streamId := by
  unfold Http2.dispatchFrame
  split
  · exact h.calm (refuse_calm w _ _)
  · split
    · exact h.calm (handleConnectionFrame_calm w f none)
    · split
      · exact h.calm (refuse_calm w _ _)
      · split
        · unfold ignoreFrame
          split
          · split
            · exact h.quiet (t := .nothing) (sendRstStream_quiet w _ _)
            · exact h
          · exact h
        · next j hj => exact h.processSlot (findActiveStream_spec hj).1 (findActiveStream_spec hj).2

end SlotOf

/-! ## What a frame changes -/

/-- The ways a frame is handled. -/
inductive Handled (w : Http2World) (f : Http2Frame) : Http2World → Prop
  | refused (e : Http2ErrorCode) : Handled w f (sendGoAway w e).2
  | connection (s : Option ℕ) (h0 : f.streamId = 0) : Handled w f (handleConnectionFrame w f s).2
  | ignored : Handled w f w
  | ignoredReset (streamId : ℕ) (e : Http2ErrorCode) : Handled w f (sendRstStream w streamId e).2
  | slot (i : ℕ) (hi : SlotAt w.conn i f.streamId) (h0 : f.streamId ≠ 0) :
      Handled w f (processSlot w i f).2
  | single (a : Http2ActiveStream) : Handled w f (processResponseFrame w a f).2.1
  | tunnel (i capacity : ℕ) (hi : SlotAt w.conn i f.streamId) (h0 : f.streamId ≠ 0)
      (hf : f.type = .data) : Handled w f (tunnelData w i capacity f).1

theorem dispatchFrame_handled (w : Http2World) (f : Http2Frame) :
    Handled w f (dispatchFrame w f).2 := by
  unfold dispatchFrame
  split
  · exact .refused _
  · split
    · next h0 => exact .connection none h0
    · split
      · exact .refused _
      · split
        · unfold ignoreFrame
          split
          · split
            · exact .ignoredReset _ _
            · exact .ignored
          · exact .ignored
        · next i hi => exact .slot i (findActiveStream_spec hi).1 (findActiveStream_spec hi).2

theorem singleFrame_handled (w : Http2World) (a : Http2ActiveStream) (f : Http2Frame) :
    Handled w f (singleFrame w a f).2.1 := by
  unfold singleFrame
  split
  · exact .refused _
  · split
    · next h0 => exact .connection _ h0
    · split
      · exact .refused _
      · split
        · exact .ignored
        · exact .single a

theorem receiveStreamFrame_handled (capacity : ℕ) (f : Http2Frame) (hi : SlotAt w.conn i streamId) :
    Handled w f (receiveStreamFrame w streamId i capacity f).1 := by
  unfold receiveStreamFrame
  split
  · exact .refused _
  · split
    · next h0 => exact .connection _ h0
    · next h0 =>
      split
      · split
        · exact .ignored
        · next j hj => exact .slot j (findActiveStream_spec hj).1 h0
      · next heq =>
        have heq : f.streamId = streamId := not_not.1 heq
        rw [← heq] at hi
        unfold tunnelFrame
        split
        · next hf => exact .tunnel i capacity hi h0 hf
        · exact .slot i hi h0
        · exact .slot i hi h0
        · exact .ignoredReset _ _
        · exact .ignoredReset _ _
        · exact .ignored

/-- **Every reader handles a frame in one of the ways.** -/
theorem Http2Reader.handle_handled (reader : Http2Reader) (f : Http2Frame)
    (h : reader.Valid w.conn) : Handled w f (reader.handle w f) := by
  cases reader with
  | dispatch => exact dispatchFrame_handled w f
  | single a => exact singleFrame_handled w a f
  | tunnel streamId i capacity => exact receiveStreamFrame_handled capacity f h.1

/-- What a frame changes: nothing of the slots, their send windows only, or one
    slot. -/
inductive FrameEffect (w : Http2World) (f : Http2Frame) (w' : Http2World) : Prop
  | quiet (h : Quiet f.type.touch w w')
  | calm (h : Calm w w') (h0 : f.streamId = 0)
  | slot (i : ℕ) (a : Http2ActiveStream) (hi : SlotAt w.conn i f.streamId) (h0 : f.streamId ≠ 0)
      (h : SlotStep f.type.touch w w' i a) (hu : a.inUse = true) (hc : StreamChange f (w.conn.slot i) a)

theorem Handled.effect (h : Handled w f w') :
    FrameEffect w f w' := by
  cases h with
  | refused e => exact .quiet (sendGoAway_quiet w e)
  | connection s h0 => exact .calm (handleConnectionFrame_calm w f s) h0
  | ignored => exact .quiet (Quiet.refl w)
  | ignoredReset streamId e => exact .quiet (sendRstStream_quiet w streamId e)
  | slot i hi h0 =>
    obtain ⟨-, hu, hc⟩ := processResponseFrame_change w (w.conn.slot i) f
    exact .slot i _ hi h0 (processSlot_slotStep w i f) (hu.trans hi.2.1) hc
  | single a => exact .quiet (processResponseFrame_quiet w a f)
  | tunnel i capacity hi h0 hf =>
    obtain ⟨s, hs, hid, hw⟩ := tunnelData_slotStep w i capacity f hi.1
    exact .slot i { w.conn.slot i with stream := s } hi h0 (by rw [hf]; exact hs) hi.2.1
      (.keep hid hw)

/-- The effect of a frame that was just read. -/
theorem Http2Reader.frame_effect (reader : Http2Reader) (f : Http2Frame) (h : reader.Valid w.conn) :
    FrameEffect (receiveFrame w reader f) f (reader.handle (receiveFrame w reader f) f) :=
  (reader.handle_handled (w := receiveFrame w reader f) f h).effect

theorem FrameEffect.sendBuffer (h : FrameEffect w f w') :
    w'.conn.sendBuffer = w.conn.sendBuffer := by
  cases h with
  | quiet h => exact congrArg Prod.fst h.sendSide
  | calm h _ => rw [h.conn]
  | slot i a _ _ h _ _ => exact congrArg Prod.fst h.sendSide

/-! ## What every step keeps -/

/-- The events grow, and a GOAWAY that was sent stays sent. -/
structure Grows (w w' : Http2World) : Prop where
  events : w.events <+: w'.events
  goAway : w.conn.goAwaySent = true → w'.conn.goAwaySent = true

namespace Grows

variable {w w' w'' : Http2World}

theorem of_eq (he : w'.events = w.events) (hg : w'.conn.goAwaySent = w.conn.goAwaySent) :
    Grows w w' := ⟨by rw [he], fun h => hg.trans h⟩

theorem trans (h : Grows w w') (h' : Grows w' w'') : Grows w w'' :=
  ⟨h.events.trans h'.events, fun hg => h'.goAway (h.goAway hg)⟩

theorem of_append {es : List Http2Event} (he : w'.events = w.events ++ es)
    (hg : w.conn.goAwaySent = true → w'.conn.goAwaySent = true) : Grows w w' :=
  ⟨⟨es, he.symm⟩, hg⟩

end Grows

theorem Quiet.grows {t : Touch} (h : Quiet t w w') : Grows w w' := by
  obtain ⟨es, he, -⟩ := h.events
  exact .of_append he h.goAway

theorem FrameEffect.grows (h : FrameEffect w f w') :
    Grows w w' := by
  cases h with
  | quiet h => exact h.grows
  | calm h _ =>
    obtain ⟨es, he, -⟩ := h.events
    exact .of_append he h.goAway
  | slot i a _ _ h _ _ => exact ⟨h.quiet.grows.events, h.quiet.grows.goAway⟩

theorem receiveFrame_grows (w : Http2World) (reader : Http2Reader) (f : Http2Frame) :
    Grows w (receiveFrame w reader f) := .of_append rfl id

theorem releaseActiveStream_goAwaySent (c : Http2Connection) (streamId : ℕ) :
    (c.releaseActiveStream streamId).goAwaySent = c.goAwaySent := by
  unfold Http2Connection.releaseActiveStream
  split <;> rfl

theorem debitData_eq {chunk : Bytes} {last : Bool}
    (h : debitData w i streamId chunk last = (statusSuccess, w')) :
    ∃ g stream, encodeData streamId chunk last = .ok g ∧
      (w.conn.slot i).stream.sendData chunk.length last = (statusSuccess, stream) ∧
      w' = { queueFrame (setStream w i stream) g with conn := {
        (queueFrame (setStream w i stream) g).conn with
          connectionSendWindow := w.conn.connectionSendWindow - chunk.length } } := by
  unfold debitData at h
  cases hg : encodeData streamId chunk last with
  | error status =>
    rw [hg] at h
    rw [encodeData_error hg] at h
    cases h
  | ok g =>
    rw [hg] at h
    simp only at h
    by_cases hn : ntSuccess ((w.conn.slot i).stream.sendData chunk.length last).1 = true
    · rw [if_neg (by simpa using hn)] at h
      refine ⟨g, _, rfl, Prod.ext (Http2Stream.sendData_success _ hn).1 rfl, ?_⟩
      exact (congrArg Prod.snd h).symm
    · rw [if_pos hn] at h
      rw [congrArg Prod.fst h] at hn
      exact absurd rfl hn

theorem Step.grows {k : Option (Http2Connection → Prop)} (h : Step k w w') : Grows w w' := by
  cases h with
  | bookkeeping incoming h => exact .of_eq rfl (by rw [h])
  | frame reader f h _ =>
    exact (receiveFrame_grows w reader f).trans (reader.frame_effect f h).grows
  | goAway _ e => exact (sendGoAway_quiet (t := .nothing) w e).grows
  | ping _ d => exact .of_append rfl id
  | shutdown =>
    unfold Http2.shutdown
    split
    · exact .of_eq rfl rfl
    · exact .of_append rfl fun _ => rfl
  | openStream r t h _ => exact .of_eq rfl rfl
  | clear => exact .of_eq rfl rfl
  | flush => exact .of_append rfl id
  | sendHeaders _ i b => exact .of_eq rfl rfl
  | queue _ h => exact .of_eq rfl rfl
  | debit hslot hpos hle h =>
    obtain ⟨g, stream, -, -, rfl⟩ := debitData_eq h
    exact .of_eq rfl rfl
  | release _ streamId => exact .of_eq rfl (releaseActiveStream_goAwaySent w.conn streamId)
  | publish _ i => exact .of_eq rfl rfl

theorem Steps.grows {k : Option (Http2Connection → Prop)} (h : Steps k w w') : Grows w w' := by
  induction h with
  | refl => exact .of_eq rfl rfl
  | tail _ hs ih => exact ih.trans hs.grows

end KernelHttp.Http2
