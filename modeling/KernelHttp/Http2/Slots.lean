/-
  The accounting of the slots of a connection.

  RST_STREAM clears the stream id that a slot is found by.
-/
import KernelHttp.Http2.Runs

namespace KernelHttp.Http2

open Loop

/-! ## The streams a caller holds -/

/-- The streams the caller holds behind a call. -/
def outstandingAfter (w : Http2World) (ids : Finset ℕ) : Http2Call → Finset ℕ
  | .beginRequest r =>
    match Http2.beginRequest w r with
    | (status, _, streamId) => if ntSuccess status then insert streamId ids else ids
  | .receiveResponse streamId =>
    if ntSuccess (Http2.receiveResponse w streamId).1 then ids.erase streamId else ids
  | .releaseStream streamId => ids.erase streamId
  -- the calls of a tunnel end it when its stream ends
  | .receiveResponseHeaders streamId =>
    match awaitResponseHeaders w streamId with
    | (.ok i, w) => if (w.conn.slot i).responseState.streamClosed then ids.erase streamId else ids
    | (.error _, _) => ids
  | .sendStreamData streamId data endStream =>
    if ntSuccess (Http2.sendStreamData w streamId data endStream).1 ∧ endStream then
      ids.erase streamId else ids
  | .receiveStreamData streamId capacity =>
    match (awaitStreamData w streamId capacity).2 with
    | .data _ true | .closed => ids.erase streamId
    | _ => ids
  | _ => ids

/-- The streams the caller holds behind calls. -/
def outstanding : Http2World → Finset ℕ → List Http2Call → Finset ℕ
  | _, ids, [] => ids
  | w, ids, call :: calls => outstanding (w.call call) (outstandingAfter w ids call) calls

/-- The slots in use are the streams that are outstanding, each once. -/
structure SlotsAccounted (c : Http2Connection) (ids : Finset ℕ) : Prop where
  nonzero : ∀ i streamId, SlotAt c i streamId → streamId ≠ 0
  distinct : ∀ i j streamId, SlotAt c i streamId → SlotAt c j streamId → i = j
  outstanding : ∀ streamId, (∃ i, SlotAt c i streamId) ↔ streamId ∈ ids
  full : c.reserveActiveStream = none → c.maxConcurrentStreams ≤ ids.card

/-- No RST_STREAM reaches a slot. -/
def Http2Event.NoReset : Http2Event → Prop
  | .received f _ c =>
    f.type = .rstStream → f.payload.length = 4 → c.findActiveStream f.streamId = none
  | .sent _ _ => True

instance : ∀ e : Http2Event, Decidable e.NoReset
  | .received f _ c => inferInstanceAs (Decidable
      (f.type = .rstStream → f.payload.length = 4 → c.findActiveStream f.streamId = none))
  | .sent _ _ => inferInstanceAs (Decidable True)

def FreshId (c : Http2Connection) : Prop := c.findActiveStream c.nextStreamId = none

instance : DecidablePred FreshId := fun c =>
  inferInstanceAs (Decidable (c.findActiveStream c.nextStreamId = none))

/-! ## Steps that keep the ids -/

/-- The slots keep their ids. -/
structure SameIds (c c' : Http2Connection) : Prop where
  length : c'.activeStreams.length = c.activeStreams.length
  inUse : ∀ i, (c'.slot i).inUse = (c.slot i).inUse
  streamId : ∀ i, (c'.slot i).stream.streamId = (c.slot i).stream.streamId
  nextStreamId : c'.nextStreamId = c.nextStreamId

namespace SameIds

variable {c c' c'' : Http2Connection}

theorem refl (c : Http2Connection) : SameIds c c := ⟨rfl, fun _ => rfl, fun _ => rfl, rfl⟩

theorem trans (h : SameIds c c') (h' : SameIds c' c'') : SameIds c c'' :=
  ⟨h'.length.trans h.length, fun i => (h'.inUse i).trans (h.inUse i),
    fun i => (h'.streamId i).trans (h.streamId i), h'.nextStreamId.trans h.nextStreamId⟩

theorem of_eq (ha : c'.activeStreams = c.activeStreams) (hn : c'.nextStreamId = c.nextStreamId) :
    SameIds c c' := by
  refine ⟨by rw [ha], fun i => ?_, fun i => ?_, hn⟩ <;>
    simp only [Http2Connection.slot, ha]

variable {i : ℕ}

theorem slotAt (h : SameIds c c') {streamId : ℕ} : SlotAt c' i streamId ↔ SlotAt c i streamId := by
  unfold SlotAt
  rw [h.length, h.inUse, h.streamId]

/-- One slot changes and keeps its id. -/
theorem set {a : Http2ActiveStream} (ha : c'.activeStreams = c.activeStreams.set i a)
    (hu : a.inUse = (c.slot i).inUse) (hid : a.stream.streamId = (c.slot i).stream.streamId)
    (hn : c'.nextStreamId = c.nextStreamId) : SameIds c c' := by
  have hslot : ∀ j, c'.slot j = if j = i ∧ i < c.activeStreams.length then a else c.slot j := by
    intro j
    simp only [Http2Connection.slot, ha, List.getD_eq_getElem?_getD, List.getElem?_set]
    by_cases hij : i = j
    · subst hij
      by_cases hi : i < c.activeStreams.length
      · simp [hi]
      · simp [hi]
    · simp [hij, Ne.symm hij]
  refine ⟨by rw [ha, List.length_set], fun j => ?_, fun j => ?_, hn⟩
  · rw [hslot]
    split
    · next h => rw [h.1, hu]
    · rfl
  · rw [hslot]
    split
    · next h => rw [h.1, hid]
    · rfl

end SameIds

variable {w w' : Http2World}

theorem Calm.sameIds (h : Calm w w') : SameIds w.conn w'.conn :=
  ⟨h.streams.length_eq.symm, fun i => (h.slot i).inUse, fun i => (h.slot i).streamId,
    by rw [h.conn]⟩

theorem Quiet.nextStreamId {t : Touch} (h : Quiet t w w') :
    w'.conn.nextStreamId = w.conn.nextStreamId := congrArg (·.2.2.2) h.sendSide

theorem FrameEffect.sameIds {f : Http2Frame} (h : FrameEffect w f w')
    (hr : f.type = .rstStream → f.payload.length = 4 → w.conn.findActiveStream f.streamId = none) :
    SameIds w.conn w'.conn := by
  cases h with
  | quiet h => exact .of_eq h.activeStreams h.nextStreamId
  | calm h _ => exact h.sameIds
  | slot i a hi h0 h hu hc =>
    cases hc with
    | keep hid _ => exact .set h.activeStreams (hu.trans hi.2.1.symm) hid h.quiet.nextStreamId
    | credit _ _ _ hid _ _ =>
      exact .set h.activeStreams (hu.trans hi.2.1.symm) hid h.quiet.nextStreamId
    | reset hf hd _ _ => exact absurd hi (findActiveStream_none (hr hf hd) h0)

theorem setStream_sameIds (w : Http2World) (i : ℕ) {s : Http2Stream}
    (hs : s.streamId = (w.conn.slot i).stream.streamId) :
    SameIds w.conn (setStream w i s).conn := .set rfl rfl hs rfl

/-- A step that takes and frees no slot keeps the ids. -/
theorem Step.sameIds (h : Step none w w') (hn : ∀ e ∈ w'.events, e.NoReset) :
    SameIds w.conn w'.conn := by
  cases h with
  | bookkeeping incoming h => exact .of_eq h.activeStreams (by rw [h])
  | frame reader f h _ =>
    have he := reader.frame_effect f h
    have hmem : .received f reader w.conn ∈ (reader.handle (receiveFrame w reader f) f).events :=
      he.grows.events.subset (by simp [receiveFrame])
    exact he.sameIds (hn _ hmem)
  | goAway _ e => exact (sendGoAway_calm w e).sameIds
  | ping _ d => exact .refl _
  | shutdown =>
    unfold Http2.shutdown
    split
    · exact .refl _
    · exact .of_eq rfl rfl
  | clear => exact .of_eq rfl rfl
  | flush => exact .of_eq rfl rfl
  | sendHeaders _ i b => exact setStream_sameIds w i (by simp)
  | queue _ h => exact .of_eq rfl rfl
  | @debit _ _ _ i _ chunk last hslot hpos hle h =>
    obtain ⟨g, stream, -, hd, rfl⟩ := debitData_eq h
    have hid : stream.streamId = (w.conn.slot i).stream.streamId := by
      have := Http2Stream.sendData_streamId (w.conn.slot i).stream chunk.length last
      rw [hd] at this
      exact this
    exact (setStream_sameIds w i hid).trans (.of_eq rfl rfl)
  | publish _ i => exact .set rfl rfl rfl rfl

theorem Steps.sameIds (h : Steps none w w')
    (hn : ∀ e ∈ w'.events, e.NoReset) : SameIds w.conn w'.conn := by
  induction h with
  | refl => exact .refl _
  | tail hs hstep ih =>
    exact (ih fun e he => hn e (hstep.grows.events.subset he)).trans (hstep.sameIds hn)

/-! ## The table of slots -/

/-- What the accounting rests on: the slots in use are the streams outstanding, and
    stream ids are odd. -/
structure SlotTable (c : Http2Connection) (ids : Finset ℕ) : Prop where
  nonzero : ∀ i streamId, SlotAt c i streamId → streamId ≠ 0
  distinct : ∀ i j streamId, SlotAt c i streamId → SlotAt c j streamId → i = j
  outstanding : ∀ streamId, (∃ i, SlotAt c i streamId) ↔ streamId ∈ ids
  length : c.activeStreams.length = maxConcurrentStreamsLocal
  odd : c.nextStreamId % 2 = 1

namespace SlotTable

variable {c c' : Http2Connection} {ids : Finset ℕ}

theorem sameIds (h : SlotTable c ids) (hs : SameIds c c') : SlotTable c' ids := by
  refine ⟨?_, ?_, ?_, hs.length.trans h.length, by rw [hs.nextStreamId]; exact h.odd⟩
  · intro i streamId hi
    exact h.nonzero i streamId (hs.slotAt.1 hi)
  · intro i j streamId hi hj
    exact h.distinct i j streamId (hs.slotAt.1 hi) (hs.slotAt.1 hj)
  · intro streamId
    rw [← h.outstanding]
    exact exists_congr fun i => hs.slotAt

theorem slotAt_setSlot {i j streamId : ℕ} {a : Http2ActiveStream} :
    SlotAt (c.setSlot i a) j streamId ↔
      (j = i ∧ i < c.activeStreams.length ∧ a.inUse = true ∧ a.stream.streamId = streamId) ∨
        (j ≠ i ∧ SlotAt c j streamId) := by
  unfold SlotAt
  rw [length_setSlot]
  by_cases hij : j = i
  · subst hij
    constructor
    · rintro ⟨hj, h⟩
      rw [slot_setSlot_self hj] at h
      exact .inl ⟨rfl, hj, h⟩
    · rintro (⟨-, hj, h⟩ | ⟨hne, -⟩)
      · rw [slot_setSlot_self hj]
        exact ⟨hj, h⟩
      · exact absurd rfl hne
  · rw [slot_setSlot_ne hij]
    simp [hij]

/-- A released stream is not outstanding any more. -/
theorem release (h : SlotTable c ids) (streamId : ℕ) :
    SlotTable (c.releaseActiveStream streamId) (ids.erase streamId) := by
  unfold Http2Connection.releaseActiveStream
  cases hf : c.findActiveStream streamId with
  | none =>
    have hnot : streamId ∉ ids := by
      rw [← h.outstanding]
      rintro ⟨i, hi⟩
      exact findActiveStream_none hf (h.nonzero i streamId hi) hi
    rw [Finset.erase_eq_of_notMem hnot]
    exact h
  | some i =>
    obtain ⟨hi, -⟩ := findActiveStream_spec hf
    have hiff : ∀ j s, SlotAt (c.setSlot i {}) j s ↔ j ≠ i ∧ SlotAt c j s := by
      intro j s
      rw [slotAt_setSlot]
      simp
    refine ⟨?_, ?_, ?_, ?_, h.odd⟩
    · intro j s hj
      exact h.nonzero j s ((hiff j s).1 hj).2
    · intro j k s hj hk
      exact h.distinct j k s ((hiff j s).1 hj).2 ((hiff k s).1 hk).2
    · intro s
      rw [Finset.mem_erase, ← h.outstanding]
      constructor
      · rintro ⟨j, hj⟩
        obtain ⟨hne, hj⟩ := (hiff j s).1 hj
        refine ⟨?_, j, hj⟩
        rintro rfl
        exact hne (h.distinct j i s hj hi)
      · rintro ⟨hne, j, hj⟩
        refine ⟨j, (hiff j s).2 ⟨?_, hj⟩⟩
        rintro rfl
        exact hne (hj.2.2.symm.trans hi.2.2)
    · rw [length_setSlot]
      exact h.length

/-- An opened stream is outstanding. -/
theorem openStream (h : SlotTable c ids) {i : ℕ} (hi : c.reserveActiveStream = some i)
    (hfresh : c.findActiveStream c.nextStreamId = none) (r : Http2Request) (t : Bool) :
    SlotTable (openStream c i r t) (insert c.nextStreamId ids) ∧ c.nextStreamId ∉ ids := by
  have h0 : c.nextStreamId ≠ 0 := by
    have := h.odd
    omega
  obtain ⟨hlt, hunused⟩ := reserveActiveStream_spec hi
  have hiff : ∀ j s, SlotAt (Http2.openStream c i r t) j s ↔
      (j = i ∧ s = c.nextStreamId) ∨ SlotAt c j s := by
    intro j s
    unfold Http2.openStream
    rw [slotAt_setSlot]
    constructor
    · rintro (⟨rfl, -, -, rfl⟩ | ⟨-, hj⟩)
      · exact .inl ⟨rfl, rfl⟩
      · exact .inr hj
    · rintro (⟨rfl, rfl⟩ | hj)
      · exact .inl ⟨rfl, hlt, rfl, rfl⟩
      · refine .inr ⟨?_, hj⟩
        rintro rfl
        have := hj.2.1
        rw [hunused] at this
        cases this
  have hnot : ∀ j, ¬ SlotAt c j c.nextStreamId := fun j => findActiveStream_none hfresh h0
  refine ⟨⟨?_, ?_, ?_, ?_, ?_⟩, ?_⟩
  · intro j s hj
    rcases (hiff j s).1 hj with ⟨-, rfl⟩ | hj
    · exact h0
    · exact h.nonzero j s hj
  · intro j k s hj hk
    rcases (hiff j s).1 hj with ⟨hji, hs⟩ | hcj
    · rcases (hiff k s).1 hk with ⟨hki, -⟩ | hck
      · exact hji.trans hki.symm
      · rw [hs] at hck
        exact absurd hck (hnot k)
    · rcases (hiff k s).1 hk with ⟨-, hs⟩ | hck
      · rw [hs] at hcj
        exact absurd hcj (hnot j)
      · exact h.distinct j k s hcj hck
  · intro s
    rw [Finset.mem_insert, ← h.outstanding]
    constructor
    · rintro ⟨j, hj⟩
      rcases (hiff j s).1 hj with ⟨-, rfl⟩ | hj
      · exact .inl rfl
      · exact .inr ⟨j, hj⟩
    · rintro (rfl | ⟨j, hj⟩)
      · exact ⟨i, (hiff i _).2 (.inl ⟨rfl, rfl⟩)⟩
      · exact ⟨j, (hiff j s).2 (.inr hj)⟩
  · unfold Http2.openStream
    rw [length_setSlot]
    exact h.length
  · simp only [Http2.openStream, Http2Connection.setSlot]
    have := h.odd
    omega
  · rw [← h.outstanding]
    rintro ⟨j, hj⟩
    exact hnot j hj

theorem activeCount_le (h : SlotTable c ids) : c.activeCount ≤ ids.card := by
  have hpair : c.activeStreams.Pairwise fun a b =>
      a.inUse = true → b.inUse = true → a.stream.streamId ≠ b.stream.streamId := by
    rw [List.pairwise_iff_getElem]
    intro i j hi hj hij hui huj heq
    have hsi : SlotAt c i (c.activeStreams[j]).stream.streamId := by
      refine ⟨hi, ?_⟩
      rw [slot_eq_getElem hi]
      exact ⟨hui, heq⟩
    have hsj : SlotAt c j (c.activeStreams[j]).stream.streamId := by
      refine ⟨hj, ?_⟩
      rw [slot_eq_getElem hj]
      exact ⟨huj, rfl⟩
    exact absurd (h.distinct i j _ hsi hsj) hij.ne
  set used := (c.activeStreams.filter (·.inUse)).map (·.stream.streamId) with hused
  have hnodup : used.Nodup := by
    rw [hused, List.Nodup, List.pairwise_map]
    refine (hpair.filter _).imp_of_mem ?_
    intro a b ha hb hab
    exact hab (List.mem_filter.1 ha).2 (List.mem_filter.1 hb).2
  have hsub : used.toFinset ⊆ ids := by
    intro s hs
    rw [List.mem_toFinset, hused, List.mem_map] at hs
    obtain ⟨a, ha, rfl⟩ := hs
    obtain ⟨ha, hu⟩ := List.mem_filter.1 ha
    obtain ⟨i, hi, rfl⟩ := List.getElem_of_mem ha
    rw [← h.outstanding]
    refine ⟨i, hi, ?_⟩
    rw [slot_eq_getElem hi]
    exact ⟨hu, rfl⟩
  calc c.activeCount = used.length := by
        rw [Http2Connection.activeCount, List.countP_eq_length_filter, hused, List.length_map]
    _ = used.toFinset.card := (List.toFinset_card_of_nodup hnodup).symm
    _ ≤ ids.card := Finset.card_le_card hsub

theorem accounted (h : SlotTable c ids) : SlotsAccounted c ids := by
  refine ⟨h.nonzero, h.distinct, h.outstanding, fun hr => ?_⟩
  unfold Http2Connection.reserveActiveStream at hr
  split at hr
  · next hge => exact le_trans hge h.activeCount_le
  · next hlt =>
    -- no slot is free, so all are in use
    have hall : c.activeCount = c.activeStreams.length := by
      rw [Http2Connection.activeCount, List.countP_eq_length]
      intro a ha
      simpa using (List.findIdx?_eq_none_iff.1 hr) a ha
    have hmax : c.maxConcurrentStreams ≤ c.activeStreams.length := by
      unfold Http2Connection.maxConcurrentStreams
      have hne : c.activeStreams ≠ [] := by
        intro hnil
        have := h.length
        rw [hnil] at this
        cases this
      rw [if_neg hne]
      exact min_le_right _ _
    exact (hmax.trans hall.ge).trans h.activeCount_le

end SlotTable

/-! ## Calls -/

section Calls

variable {w w' : Http2World} {ids : Finset ℕ}

theorem SlotTable.idleSteps (h : SlotTable w.conn ids) (hs : IdleSteps w w') (hidle : SendIdle w)
    (hn : ∀ e ∈ w'.events, e.NoReset) : SlotTable w'.conn ids :=
  h.sameIds ((hs hidle).1.sameIds hn)

variable {status : NTSTATUS}

theorem receiveTurn_failed {streamId : ℕ} {s : ReceiveState}
    (h : receiveTurn streamId s = .done (.error status, w')) : ntSuccess status = false := by
  obtain ⟨w, observed⟩ := s
  unfold receiveTurn at h
  simp only at h
  split at h
  · simp only [Turn.done.injEq, Prod.mk.injEq, Except.error.injEq] at h
    rw [← h.1]
    split <;> rfl
  · split at h
    · cases h
    · have hreads := readCountedFrame_reads w
      cases hr : readCountedFrame w with
      | mk result w₁ =>
        rw [hr] at hreads h
        cases hreads with
        | failed st c incoming hb hf =>
          simp only [Turn.done.injEq, Prod.mk.injEq, Except.error.injEq,
            handleReadFrameFailure_status] at h
          rw [← h.1]
          exact hf
        | read f c incoming hb _ _ =>
          simp only at h
          generalize dispatchFrame _ f = r at h
          split at h
          · next hf =>
            simp only [Turn.done.injEq, Prod.mk.injEq, Except.error.injEq] at h
            rw [← h.1]
            simpa using hf
          · cases h

theorem awaitResponse_failed {streamId : ℕ}
    (h : awaitResponse w streamId = (.error status, w')) : ntSuccess status = false := by
  have hQ : ∀ status w', awaitResponse w streamId = (.error status, w') →
      ntSuccess status = false := by
    refine run_induct (I := fun _ => True) (Q := fun r : Except NTSTATUS ℕ × Http2World =>
      ∀ status w', r = (.error status, w') → ntSuccess status = false) ?_ ?_ ?_ _ _ trivial
    · intro s _ status w' hr
      cases hr
      rfl
    · intro s r _ ht status w' hr
      rw [hr] at ht
      exact receiveTurn_failed ht
    · exact fun _ _ _ _ => trivial
  exact hQ status w' h

theorem SlotTable.receiveResponse (h : SlotTable w.conn ids) (hidle : SendIdle w) (streamId : ℕ)
    (hn : ∀ e ∈ (receiveResponse w streamId).2.1.events, e.NoReset) :
    SlotTable (receiveResponse w streamId).2.1.conn
      (outstandingAfter w ids (.receiveResponse streamId)) := by
  have hsteps := awaitResponse_idleSteps w streamId
  simp only [outstandingAfter]
  cases hr : awaitResponse w streamId with
  | mk result w₁ =>
    rw [hr] at hsteps
    cases result with
    | error status =>
      have heq : Http2.receiveResponse w streamId = (status, w₁, none) := by
        unfold Http2.receiveResponse
        rw [hr]
      rw [heq] at hn ⊢
      rw [if_neg (by simp [awaitResponse_failed hr])]
      exact h.idleSteps hsteps hidle hn
    | ok i =>
      have heq : Http2.receiveResponse w streamId = (statusSuccess,
          { w₁ with conn := w₁.conn.releaseActiveStream streamId },
          some (w₁.conn.slot i).responseState.publish) := by
        unfold Http2.receiveResponse
        rw [hr]
      rw [heq] at hn ⊢
      rw [if_pos (show ntSuccess statusSuccess = true from rfl)]
      exact (h.idleSteps hsteps hidle hn).release streamId

theorem SlotTable.receiveResponseHeaders (h : SlotTable w.conn ids) (hidle : SendIdle w)
    (streamId : ℕ) (hn : ∀ e ∈ (receiveResponseHeaders w streamId).2.events, e.NoReset) :
    SlotTable (receiveResponseHeaders w streamId).2.conn
      (outstandingAfter w ids (.receiveResponseHeaders streamId)) := by
  have hsteps := awaitResponseHeaders_idleSteps w streamId
  simp only [outstandingAfter]
  unfold Http2.receiveResponseHeaders at hn ⊢
  generalize awaitResponseHeaders w streamId = r at hsteps hn ⊢
  obtain ⟨result, w₁⟩ := r
  cases result with
  | error status => exact h.idleSteps hsteps hidle hn
  | ok i =>
    simp only at hn ⊢
    by_cases hc : (w₁.conn.slot i).responseState.streamClosed = true
    · rw [if_pos hc] at hn ⊢
      rw [if_pos hc]
      exact (h.idleSteps hsteps hidle hn).release streamId
    · rw [if_neg hc] at hn ⊢
      rw [if_neg hc]
      exact (h.idleSteps hsteps hidle hn).sameIds (.set rfl rfl rfl rfl)

theorem SlotTable.sendStreamData (h : SlotTable w.conn ids) (hidle : SendIdle w) (streamId : ℕ)
    (data : Bytes) (endStream : Bool)
    (hn : ∀ e ∈ (sendStreamData w streamId data endStream).2.events, e.NoReset) :
    SlotTable (sendStreamData w streamId data endStream).2.conn
      (outstandingAfter w ids (.sendStreamData streamId data endStream)) := by
  have hsteps := awaitSendStreamData_idleSteps w streamId data endStream
  simp only [outstandingAfter]
  unfold Http2.sendStreamData at hn ⊢
  generalize awaitSendStreamData w streamId data endStream = r at hsteps hn ⊢
  obtain ⟨status, w₁⟩ := r
  simp only at hsteps hn ⊢
  by_cases hc : ntSuccess status = true ∧ endStream = true
  · rw [if_pos hc] at hn ⊢
    rw [if_pos hc]
    exact (h.idleSteps hsteps hidle hn).release streamId
  · rw [if_neg hc] at hn ⊢
    rw [if_neg hc]
    exact h.idleSteps hsteps hidle hn

theorem SlotTable.receiveStreamData (h : SlotTable w.conn ids) (hidle : SendIdle w)
    (streamId capacity : ℕ)
    (hn : ∀ e ∈ (receiveStreamData w streamId capacity).2.1.events, e.NoReset) :
    SlotTable (receiveStreamData w streamId capacity).2.1.conn
      (outstandingAfter w ids (.receiveStreamData streamId capacity)) := by
  have hsteps := awaitStreamData_idleSteps w streamId capacity
  simp only [outstandingAfter]
  unfold Http2.receiveStreamData at hn ⊢
  generalize awaitStreamData w streamId capacity = r at hsteps hn ⊢
  obtain ⟨w₁, outcome⟩ := r
  cases outcome with
  | again => exact h.idleSteps hsteps hidle hn
  | failed status content ended => exact h.idleSteps hsteps hidle hn
  | data content ended =>
    cases ended with
    | false => exact h.idleSteps hsteps hidle hn
    | true => exact (h.idleSteps hsteps hidle hn).release streamId
  | closed => exact (h.idleSteps hsteps hidle hn).release streamId

theorem validateExtendedConnectLoop_failed : ∀ {headers : List HttpHeader} {m u : Bool}
    {status : NTSTATUS}, validateExtendedConnectLoop headers m u = .error status →
      ntSuccess status = false
  | [], m, u, status, h => by cases h
  | x :: headers, m, u, status, h => by
    unfold validateExtendedConnectLoop at h
    split at h
    · exact validateExtendedConnectLoop_failed h
    · split at h
      · split at h
        · cases h
          rfl
        · exact validateExtendedConnectLoop_failed h
      · exact validateExtendedConnectLoop_failed h

theorem validateExtendedConnectRequest_failed {headers : List HttpHeader}
    (h : validateExtendedConnectRequest headers = .error status) : ntSuccess status = false := by
  unfold validateExtendedConnectRequest at h
  cases hl : validateExtendedConnectLoop headers false false with
  | error s =>
    rw [hl] at h
    cases h
    exact validateExtendedConnectLoop_failed hl
  | ok p =>
    rw [hl] at h
    change (if _ then _ else _) = _ at h
    split at h
    · cases h
      rfl
    · cases h

theorem SlotTable.beginRequest (h : SlotTable w.conn ids) (hidle : SendIdle w) (r : Http2Request)
    (hfresh : w.conn.findActiveStream w.conn.nextStreamId = none)
    (hn : ∀ e ∈ (beginRequest w r).2.1.events, e.NoReset) :
    SlotTable (beginRequest w r).2.1.conn (outstandingAfter w ids (.beginRequest r)) := by
  have hbook := ensureDecodedHeaderScratch_bookkeeping w.conn r.responseHeaderCapacity
  simp only [outstandingAfter]
  unfold Http2.beginRequest at hn ⊢
  generalize ensureDecodedHeaderScratch w.conn r.responseHeaderCapacity = e at hbook hn ⊢
  obtain ⟨status, conn⟩ := e
  simp only at hbook hn ⊢
  have h₁ : SlotTable conn ids := h.sameIds (.of_eq hbook.activeStreams (by rw [hbook]))
  have hfresh₁ : conn.findActiveStream conn.nextStreamId = none := by
    rw [hbook]
    exact hfresh
  have hidle₁ : conn.sendBuffer = [] := by
    rw [hbook]
    exact hidle
  by_cases hs : ntSuccess status = true
  · rw [if_neg (not_not.2 hs)] at hn ⊢
    cases hv : validateExtendedConnectRequest r.headers with
    | error status' =>
      simp only [validateExtendedConnectRequest_failed hv, Bool.false_eq_true, if_false]
      exact h₁
    | ok tunnelMode =>
      rw [hv] at hn
      simp only at hn ⊢
      by_cases ht : tunnelMode = true ∧ conn.peerSettings.enableConnectProtocol ≠ 1
      · rw [if_pos ht]
        exact h₁
      · rw [if_neg ht] at hn ⊢
        cases hi : conn.reserveActiveStream with
        | none => exact h₁
        | some i =>
          rw [hi] at hn
          simp only at hn ⊢
          obtain ⟨hopen, hnot⟩ := h₁.openStream hi hfresh₁ r tunnelMode
          set w₂ : Http2World := { w with conn := Http2.openStream conn i r tunnelMode }
          obtain ⟨hsteps, -⟩ := sendRequestFrames_steps r.headers r.body (show SendIdle w₂ from hidle₁)
            (openStream_slotAt r tunnelMode (reserveActiveStream_spec hi).1)
          generalize sendRequestFrames w₂ i r.headers r.body = q at hsteps hn ⊢
          obtain ⟨status', w₃⟩ := q
          simp only at hsteps hn ⊢
          by_cases hs' : ntSuccess status' = true
          · rw [if_neg (not_not.2 hs')] at hn ⊢
            simp only [ntSuccess_success, if_true]
            exact hopen.sameIds (hsteps.sameIds hn)
          · rw [if_pos hs'] at hn ⊢
            simp only [hs', Bool.false_eq_true, if_false]
            have hrel := (hopen.sameIds (hsteps.sameIds hn)).release conn.nextStreamId
            rw [Finset.erase_insert hnot] at hrel
            exact hrel
  · rw [if_pos hs]
    simp only [hs, Bool.false_eq_true, if_false]
    exact h₁

/-- A call keeps the accounting. -/
theorem SlotTable.call (h : SlotTable w.conn ids) (hidle : SendIdle w) (call : Http2Call)
    (hfresh : w.Opens FreshId call) (hn : ∀ e ∈ (w.call call).events, e.NoReset) :
    SlotTable (w.call call).conn (outstandingAfter w ids call) := by
  cases call with
  | beginRequest r => exact h.beginRequest hidle r hfresh hn
  | receiveResponse streamId => exact h.receiveResponse hidle streamId hn
  | releaseStream streamId => exact h.release streamId
  | receiveResponseHeaders streamId => exact h.receiveResponseHeaders hidle streamId hn
  | sendStreamData streamId data endStream => exact h.sendStreamData hidle streamId data endStream hn
  | receiveStreamData streamId capacity => exact h.receiveStreamData hidle streamId capacity hn
  | sendPing opaqueData => exact h.idleSteps (sendPing_idleSteps w opaqueData) hidle hn
  | shutdown =>
    exact h.idleSteps (IdleSteps.of_sendBuffer (.shutdown w) (shutdown_sendBuffer w)) hidle hn
  | receiveUpgradedResponse streamId r =>
    exact h.idleSteps (receiveUpgradedResponse_idleSteps w streamId r) hidle hn

theorem SlotTable.runCalls : ∀ (calls : List Http2Call) {w : Http2World} {ids : Finset ℕ},
    SlotTable w.conn ids → SendIdle w → OpensWhile FreshId w calls →
      (∀ e ∈ (w.runCalls calls).events, e.NoReset) →
      SlotTable (w.runCalls calls).conn (Http2.outstanding w ids calls)
  | [], _, _, h, _, _, _ => h
  | call :: calls, w, ids, h, hidle, hfresh, hn => by
    have hrest := (runCalls_steps calls (w.call call) (call_steps w call hidle).2).1
    have hcall := h.call hidle call hfresh.1 fun e he => hn e (hrest.grows.events.subset he)
    exact SlotTable.runCalls calls hcall (call_steps w call hidle).2 hfresh.2 hn

end Calls

theorem Started.slotTable (h : Started w) : SlotTable w.conn ∅ := by
  obtain ⟨n, hc⟩ := h.conn
  have hnone : ∀ i streamId, ¬ SlotAt w.conn i streamId := by
    rintro i streamId ⟨-, hu, -⟩
    rw [hc] at hu
    simp only [Http2Connection.slot, freshConnection, List.getD_eq_getElem?_getD,
      List.getElem?_replicate] at hu
    split at hu <;> cases hu
  refine ⟨fun i s hi => absurd hi (hnone i s), fun i j s hi => absurd hi (hnone i s), ?_, ?_, ?_⟩
  · intro s
    constructor
    · rintro ⟨i, hi⟩
      exact absurd hi (hnone i s)
    · exact fun hs => absurd hs (Finset.notMem_empty s)
  · rw [hc]
    exact List.length_replicate
  · rw [hc]
    rfl

/-- **The slots in use are the streams the caller holds**, as long as no RST_STREAM
    reaches a slot and no stream id is taken twice. -/
theorem slots_accounted {maxHeaderBlockBytes : ℕ} {incoming : List (Except NTSTATUS UInt8)}
    {sendAnswers : List NTSTATUS} {status : NTSTATUS} {w : Http2World}
    (h : initializeConnection maxHeaderBlockBytes incoming sendAnswers = (status, w))
    (hs : ntSuccess status = true) (calls : List Http2Call) (hfresh : OpensWhile FreshId w calls)
    (hn : ∀ e ∈ (w.runCalls calls).events, e.NoReset) :
    SlotsAccounted (w.runCalls calls).conn (outstanding w ∅ calls) := by
  have hstarted := initializeConnection_started h hs
  exact (hstarted.slotTable.runCalls calls hstarted.sendIdle hfresh hn).accounted

/-- SETTINGS, and a response without a body on stream 1. -/
def emptyResponse : Bytes :=
  [0, 0, 0, 4, 0, 0, 0, 0, 0,
    0, 0, 1, 1, 5, 0, 0, 0, 1, 0x88]

theorem slots_accounted_twoRequests :
    outstanding (initializeConnection 64 (emptyResponse.map .ok) []).2 ∅
        [.beginRequest getRequest, .beginRequest getRequest, .receiveResponse 1] = {3} ∧
      SlotsAccounted (runOn emptyResponse
          [.beginRequest getRequest, .beginRequest getRequest, .receiveResponse 1]).conn
        (outstanding (initializeConnection 64 (emptyResponse.map .ok) []).2 ∅
          [.beginRequest getRequest, .beginRequest getRequest, .receiveResponse 1]) :=
  ⟨by decide +kernel,
    slots_accounted (Prod.eta _).symm (by decide) _ (by decide)
      (by decide)⟩

/-- SETTINGS, and RST_STREAM (CANCEL) on stream 1. -/
def resetStream : Bytes :=
  [0, 0, 0, 4, 0, 0, 0, 0, 0,
    0, 0, 4, 3, 0, 0, 0, 0, 1, 0, 0, 0, 8]

/-- A stream that was reset and released keeps its slot. -/
theorem slots_resetStream :
    OpensWhile FreshId (initializeConnection 64 (resetStream.map .ok) []).2
        [.beginRequest getRequest, .receiveResponse 1, .releaseStream 1] ∧
      outstanding (initializeConnection 64 (resetStream.map .ok) []).2 ∅
        [.beginRequest getRequest, .receiveResponse 1, .releaseStream 1] = ∅ ∧
      ¬ SlotsAccounted (runOn resetStream
          [.beginRequest getRequest, .receiveResponse 1, .releaseStream 1]).conn ∅ := by
  refine ⟨by decide, by decide, fun h => ?_⟩
  exact h.nonzero 0 0 (by unfold SlotAt; decide) rfl

end KernelHttp.Http2
