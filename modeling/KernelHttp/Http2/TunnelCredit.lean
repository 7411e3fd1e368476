/-
  The credit `SendStreamData` takes.

  A frame is charged when it goes into the send buffer, and may be lost there.
-/
import KernelHttp.Http2.SendWindow
import KernelHttp.Lib.Buffering

namespace KernelHttp.Http2

open Loop Buffering

/-! ## Credit of a call -/

/-- The DATA octets that were handed to the transport between two states. -/
def handedSince (w w' : Http2World) : ℕ :=
  dataSent Http2Frame.dataLength (w'.events.drop w.events.length)

/-- If the call fails for want of window, both windows went down by the octets it
    handed to the transport. -/
def KeepsCredit (w : Http2World) (streamId : ℕ) (data : Bytes) (endStream : Bool) : Prop :=
  ∀ w' i, sendStreamData w streamId data endStream = (statusBufferTooSmall, w') →
    tunnelSlot w.conn streamId = some i →
    w'.conn.connectionSendWindow = w.conn.connectionSendWindow - handedSince w w' ∧
      (w'.conn.slot i).stream.remoteWindow =
        (w.conn.slot i).stream.remoteWindow - handedSince w w'

/-- The stream takes DATA frames, and they can be encoded. -/
def TakesData (c : Http2Connection) (i streamId : ℕ) : Prop :=
  streamId < 2 ^ 31 ∧ ((c.slot i).stream.state = .open_ ∨ (c.slot i).stream.state = .halfClosedRemote)

/-- The send buffer behind DATA frames of these lengths, and what it was sent with. -/
def buffered (lengths : List ℕ) : Writer ℕ :=
  write (http2FrameHeaderLength + ·) sendBufferCapacity {} lengths

/-- The stream of a slot takes DATA, its window ends in the middle of the data, and
    the buffers that are full before it ends are sent. -/
def RunsOutAt (w : Http2World) (i streamId : ℕ) (data : Bytes) : Prop :=
  TakesData w.conn i streamId ∧
    0 < outboundPayloadLimit w.conn.peerSettings.maxFrameSize ∧
    0 < availableWindow w.conn (w.conn.slot i).stream ∧
    availableWindow w.conn (w.conn.slot i).stream < data.length ∧
    ∀ n < (buffered (cut (outboundPayloadLimit w.conn.peerSettings.maxFrameSize)
        (availableWindow w.conn (w.conn.slot i).stream).toNat)).sent.length,
      ntSuccess (w.sendAnswers.getD n statusSuccess) = true

/-- The window of the tunnel ends in the middle of the data. -/
def WindowRunsOut (w : Http2World) (streamId : ℕ) (data : Bytes) : Prop :=
  ∃ i, tunnelSlot w.conn streamId = some i ∧ RunsOutAt w i streamId data

instance (c : Http2Connection) (i streamId : ℕ) : Decidable (TakesData c i streamId) :=
  inferInstanceAs (Decidable (_ ∧ _))

instance (w : Http2World) (i streamId : ℕ) (data : Bytes) :
    Decidable (RunsOutAt w i streamId data) :=
  inferInstanceAs (Decidable (_ ∧ _))

instance (w : Http2World) (streamId : ℕ) (data : Bytes) :
    Decidable (WindowRunsOut w streamId data) :=
  match h : tunnelSlot w.conn streamId with
  | none => isFalse fun ⟨_, hi, _⟩ => absurd (h.symm.trans hi) nofun
  | some i => decidable_of_iff (RunsOutAt w i streamId data)
      ⟨fun hr => ⟨i, h, hr⟩, fun ⟨_, hj, hr⟩ => Option.some.inj (h.symm.trans hj) ▸ hr⟩

/-- The windows are `LONG` values. -/
def LongWindows (c : Http2Connection) : Prop :=
  ∀ a ∈ c.activeStreams, a.stream.remoteWindow ≤ http2MaxWindowSize

instance (c : Http2Connection) : Decidable (LongWindows c) := inferInstanceAs (Decidable (∀ _ ∈ _, _))

/-! ## What is charged -/

section Charged

variable {i : ℕ} {w₀ w w' : Http2World} {n : ℕ}

/-- Both windows went down by `n`. -/
structure Charged (i : ℕ) (w₀ w : Http2World) (n : ℕ) : Prop where
  connection : w.conn.connectionSendWindow = w₀.conn.connectionSendWindow - n
  stream : (w.conn.slot i).stream.remoteWindow = (w₀.conn.slot i).stream.remoteWindow - n

theorem Charged.available (h : Charged i w₀ w n) : availableWindow w.conn (w.conn.slot i).stream =
    availableWindow w₀.conn (w₀.conn.slot i).stream - n := by
  unfold availableWindow
  rw [h.connection, h.stream]
  split_ifs <;> omega

/-- `n` octets of DATA were handed to the transport. -/
def Handed (w₀ w : Http2World) (n : ℕ) : Prop :=
  ∃ es, w.events = w₀.events ++ es ∧ dataSent Http2Frame.dataLength es = n

theorem Handed.since (h : Handed w₀ w n) : handedSince w₀ w = n := by
  obtain ⟨es, he, rfl⟩ := h
  rw [handedSince, he, List.drop_left]

theorem Handed.flush (h : Handed w₀ w n) :
    Handed w₀ (flushSendBuffer w).2
      (n + (w.conn.sendBuffer.map Http2Frame.dataLength).sum) := by
  obtain ⟨es, he, rfl⟩ := h
  refine ⟨es ++ [.sent w.conn.sendBuffer (nextAnswer w.sendAnswers)], ?_, ?_⟩
  · rw [← List.append_assoc, ← he]
    rfl
  · rw [dataSent_append]
    rfl

def Settled (i : ℕ) (w₀ w : Http2World) : Prop := ∃ n, Charged i w₀ w n ∧ Handed w₀ w n

end Charged

/-! ## Progress -/

/-- Frames of these lengths were charged; those that are not in the send buffer were
    sent. -/
structure Progress (i : ℕ) (w₀ : Http2World) (lengths : List ℕ) (w : Http2World) : Prop where
  charged : Charged i w₀ w lengths.sum
  answers : w.sendAnswers = w₀.sendAnswers.drop (buffered lengths).sent.length
  accepted : ∀ n < (buffered lengths).sent.length,
    ntSuccess (w₀.sendAnswers.getD n statusSuccess) = true
  handed : Handed w₀ w (buffered lengths).sent.flatten.sum
  queued : w.conn.sendBuffer.map (·.payload.length) = (buffered lengths).buffer
  data : ∀ f ∈ w.conn.sendBuffer, f.type = .data
  index : i < w.conn.activeStreams.length

section Progress

variable {i : ℕ} {w₀ w : Http2World} {lengths : List ℕ}

theorem buffered_sum (lengths : List ℕ) :
    (buffered lengths).sent.flatten.sum + (buffered lengths).buffer.sum = lengths.sum := by
  rw [← List.sum_append, buffered, write_flatten]
  simp

theorem Progress.dataLength (h : Progress i w₀ lengths w) :
    (w.conn.sendBuffer.map Http2Frame.dataLength).sum = (buffered lengths).buffer.sum := by
  rw [← h.queued]
  congr 1
  refine List.map_congr_left fun f hf => ?_
  rw [Http2Frame.dataLength, if_pos (h.data f hf)]

theorem Progress.sendOffset (h : Progress i w₀ lengths w) :
    sendOffset w.conn.sendBuffer = ((buffered lengths).buffer.map (http2FrameHeaderLength + ·)).sum := by
  rw [← h.queued, List.map_map]
  rfl

/-- The buffer is sent, with or without success. -/
theorem Progress.flush (h : Progress i w₀ lengths w) :
    (flushSendBuffer w).1 = w₀.sendAnswers.getD (buffered lengths).sent.length statusSuccess ∧
      Settled i w₀ (flushSendBuffer w).2 := by
  constructor
  · change nextAnswer w.sendAnswers = _
    rw [nextAnswer, h.answers, List.headD_eq_head?_getD, List.head?_drop, List.getD_eq_getElem?_getD]
  · refine ⟨lengths.sum, ⟨h.charged.connection, h.charged.stream⟩, ?_⟩
    have hflush := h.handed.flush
    rwa [h.dataLength, buffered_sum] at hflush

end Progress

/-! ## One frame -/

/-- A frame of `n` octets fits behind those in the send buffer. -/
structure Roomy (i : ℕ) (w₀ : Http2World) (lengths : List ℕ) (n : ℕ) (w : Http2World) : Prop where
  charged : Charged i w₀ w lengths.sum
  answers : w.sendAnswers = w₀.sendAnswers.drop (buffered (lengths ++ [n])).sent.length
  accepted : ∀ m < (buffered (lengths ++ [n])).sent.length,
    ntSuccess (w₀.sendAnswers.getD m statusSuccess) = true
  handed : Handed w₀ w (buffered (lengths ++ [n])).sent.flatten.sum
  queued : w.conn.sendBuffer.map (·.payload.length) ++ [n] = (buffered (lengths ++ [n])).buffer
  data : ∀ f ∈ w.conn.sendBuffer, f.type = .data
  index : i < w.conn.activeStreams.length

section Frame

variable {i streamId : ℕ} {w₀ w w' : Http2World} {lengths : List ℕ}

theorem buffered_concat (lengths : List ℕ) (n : ℕ) : buffered (lengths ++ [n]) =
    put (http2FrameHeaderLength + ·) sendBufferCapacity (buffered lengths) n :=
  write_concat _ _ _

theorem buffered_sent_le (as bs : List ℕ) :
    (buffered as).sent.length ≤ (buffered (as ++ bs)).sent.length := by
  unfold buffered
  rw [write_append]
  exact (sent_le_write _ _).length_le

theorem buffer_sum_pos {lengths : List ℕ} (hne : lengths ≠ []) (hpos : ∀ n ∈ lengths, 0 < n) :
    0 < (buffered lengths).buffer.sum := by
  obtain ⟨init, n, rfl⟩ := List.eq_nil_or_concat lengths |>.resolve_left hne
  rw [List.concat_eq_append] at hpos ⊢
  have hmem : n ∈ (buffered (init ++ [n])).buffer := by
    rw [buffered_concat]
    exact mem_buffer_put _ n
  exact (hpos n (by simp)).trans_le (List.single_le_sum (fun _ _ => Nat.zero_le _) n hmem)

/-- **Room for a frame**: it is there, or the full buffer could not be sent. -/
theorem Progress.makeRoom (h : Progress i w₀ lengths w) {n : ℕ}
    (hn : http2FrameHeaderLength + n ≤ sendBufferCapacity) :
    (∃ status w', Http2.makeRoom w n = (status, w') ∧ ntSuccess status = true ∧
        Roomy i w₀ lengths n w' ∧ w'.conn.slot i = w.conn.slot i) ∨
      ∃ status w', Http2.makeRoom w n = (status, w') ∧ ntSuccess status = false ∧
        Settled i w₀ w' ∧
        ntSuccess (w₀.sendAnswers.getD (buffered lengths).sent.length statusSuccess) = false ∧
        (buffered lengths).sent.length < (buffered (lengths ++ [n])).sent.length := by
  unfold Http2.makeRoom
  rw [if_neg (by omega), h.sendOffset]
  by_cases hfull : ((buffered lengths).buffer.map (http2FrameHeaderLength + ·)).sum +
      http2FrameHeaderLength + n > sendBufferCapacity
  · rw [if_pos hfull]
    have hput : buffered (lengths ++ [n]) =
        ⟨(buffered lengths).sent ++ [(buffered lengths).buffer], [n]⟩ := by
      rw [buffered_concat, put, if_pos (by omega)]
    have hlength : (buffered (lengths ++ [n])).sent.length = (buffered lengths).sent.length + 1 := by
      rw [hput, List.length_append, List.length_singleton]
    obtain ⟨hstatus, hsettled⟩ := h.flush
    cases hok : ntSuccess (flushSendBuffer w).1 with
    | true =>
      refine .inl ⟨_, _, rfl, hok, ⟨⟨h.charged.connection, h.charged.stream⟩, ?_, ?_, ?_, ?_, ?_,
        h.index⟩, rfl⟩
      · change w.sendAnswers.tail = _
        rw [h.answers, List.tail_drop, hlength]
      · intro m hm
        rw [hlength] at hm
        rcases Nat.lt_succ_iff_lt_or_eq.1 hm with hlt | rfl
        · exact h.accepted m hlt
        · rw [← hstatus]
          exact hok
      · have hflush := h.handed.flush
        rw [h.dataLength] at hflush
        rw [hput, List.flatten_append, List.sum_append, List.flatten_singleton]
        exact hflush
      · rw [hput]
        rfl
      · exact fun f hf => absurd hf List.not_mem_nil
    | false =>
      refine .inr ⟨_, _, rfl, hok, hsettled, hstatus ▸ hok, ?_⟩
      rw [hlength]
      exact Nat.lt_succ_self _
  · rw [if_neg hfull]
    have hput : buffered (lengths ++ [n]) =
        ⟨(buffered lengths).sent, (buffered lengths).buffer ++ [n]⟩ := by
      rw [buffered_concat, put, if_neg (by omega)]
    refine .inl ⟨_, w, rfl, rfl, ⟨h.charged, ?_, ?_, ?_, ?_, h.data, h.index⟩, rfl⟩
    · rw [hput]
      exact h.answers
    · rw [hput]
      exact h.accepted
    · rw [hput]
      exact h.handed
    · rw [hput, h.queued]

theorem Http2Stream.sendData_state (s : Http2Stream) (n : ℕ) :
    (s.sendData n false).2.state = s.state := by
  unfold sendData
  simp only [Bool.false_eq_true, if_false]
  split_ifs <;> rfl

/-- The frame is charged and queued. -/
theorem Roomy.debit {chunk : Bytes} {last : Bool} (h : Roomy i w₀ lengths chunk.length w)
    (hd : debitData w i streamId chunk last = (statusSuccess, w')) :
    Progress i w₀ (lengths ++ [chunk.length]) w' ∧
      (last = false → (w'.conn.slot i).stream.state = (w.conn.slot i).stream.state) := by
  obtain ⟨g, stream, hg, hs, rfl⟩ := debitData_eq hd
  obtain ⟨-, -, rfl⟩ := encodeData_eq hg
  have hstream : stream = ((w.conn.slot i).stream.sendData chunk.length last).2 := by rw [hs]
  have hok : ntSuccess ((w.conn.slot i).stream.sendData chunk.length last).1 = true := by rw [hs]; rfl
  have hslot : ((setStream w i stream).conn.slot i).stream = stream := by
    rw [setStream, slot_setSlot_self h.index]
  refine ⟨⟨⟨?_, ?_⟩, h.answers, h.accepted, h.handed, ?_, ?_, ?_⟩, ?_⟩
  · change w.conn.connectionSendWindow - chunk.length = _
    rw [h.charged.connection, List.sum_append, List.sum_singleton]
    push_cast
    ring
  · change ((setStream w i stream).conn.slot i).stream.remoteWindow = _
    rw [hslot, hstream, (Http2Stream.sendData_success _ hok).2.2, h.charged.stream, List.sum_append,
      List.sum_singleton]
    push_cast
    ring
  · rw [← h.queued]
    change (w.conn.sendBuffer ++ [_]).map _ = _
    rw [List.map_append]
    rfl
  · intro f hf
    rcases List.mem_append.1 hf with hf | hf
    · exact h.data f hf
    · rw [List.mem_singleton.1 hf]
  · change i < (w.conn.activeStreams.set i _).length
    rw [List.length_set]
    exact h.index
  · intro hlast
    change ((setStream w i stream).conn.slot i).stream.state = _
    rw [hslot, hstream, hlast, Http2Stream.sendData_state]

variable {chunk : Bytes}

theorem debitData_takes (last : Bool) (h0 : streamId ≠ 0)
    (ht : TakesData w.conn i streamId) (hlen : chunk.length ≤ http2MaxAllowedFrameSize)
    (hfit : exceedsWindow chunk.length (w.conn.slot i).stream.remoteWindow = false) :
    (debitData w i streamId chunk last).1 = statusSuccess := by
  have henc : encodeData streamId chunk last =
      .ok { type := .data, streamId, payload := chunk, flags := if last then 0x01 else 0 } := by
    rw [encodeData, if_neg h0, encodeFrame, if_neg]
    have := ht.1
    simp only
    omega
  have hsend : ((w.conn.slot i).stream.sendData chunk.length last).1 = statusSuccess := by
    unfold Http2Stream.sendData
    rcases ht.2 with hopen | hhalf
    · simp [hopen, hfit]
    · simp [hhalf, hfit]
  unfold debitData
  simp only [henc]
  rw [if_neg (by rw [hsend]; simp)]

theorem debitData_refused (last : Bool) (ht : ¬ TakesData w.conn i streamId) :
    (debitData w i streamId chunk last).1 ≠ statusBufferTooSmall ∧
      ntSuccess (debitData w i streamId chunk last).1 = false := by
  unfold debitData
  cases henc : encodeData streamId chunk last with
  | error status =>
    obtain rfl := encodeData_error henc
    exact ⟨show statusInvalidParameter ≠ statusBufferTooSmall by decide, rfl⟩
  | ok frame =>
    have hstate : (w.conn.slot i).stream.state ≠ .open_ ∧
        (w.conn.slot i).stream.state ≠ .halfClosedRemote := by
      rw [← not_or]
      exact fun h => ht ⟨(encodeData_eq henc).2.1, h⟩
    have hsend : ((w.conn.slot i).stream.sendData chunk.length last).1 = statusInvalidDeviceState := by
      unfold Http2Stream.sendData
      rw [if_pos hstate]
    simp only
    rw [if_pos (by rw [hsend]; simp), hsend]
    exact ⟨show statusInvalidDeviceState ≠ statusBufferTooSmall by decide, rfl⟩

end Frame

/-! ## The loop -/

/-- The window `SendStreamData` starts with. -/
def startWindow (k : SendContext) (w₀ : Http2World) : ℤ :=
  availableWindow w₀.conn (w₀.conn.slot k.slot).stream

/-- The loop behind frames of these lengths: `rest` is what is left of `n` octets. -/
structure Upto (k : SendContext) (w₀ : Http2World) (n : ℕ) (lengths : List ℕ) (w : Http2World)
    (rest : Bytes) (started : Bool) : Prop where
  progress : Progress k.slot w₀ lengths w
  length : lengths.sum + rest.length = n
  started : started = true ↔ lengths ≠ []
  window : lengths ≠ [] → 0 < startWindow k w₀ ∧ (lengths.sum : ℤ) ≤ startWindow k w₀ ∧
    TakesData w₀.conn k.slot k.streamId
  state : rest ≠ [] ∨ lengths = [] →
    (w.conn.slot k.slot).stream.state = (w₀.conn.slot k.slot).stream.state
  -- the window ends first: it is cut into full frames
  pieces : 0 < k.maxPayload → startWindow k w₀ < n → cut k.maxPayload (startWindow k w₀).toNat =
    lengths ++ cut k.maxPayload ((startWindow k w₀).toNat - lengths.sum)
  zero : k.maxPayload = 0 → lengths.sum = 0

/-- How the loop over `n` octets ends. -/
inductive SendEnd (k : SendContext) (w₀ : Http2World) (n : ℕ) : NTSTATUS × Http2World → Prop
  | exhausted {lengths : List ℕ} {w : Http2World} {rest : Bytes} {started : Bool}
      (h : Upto k w₀ n lengths w rest started) (hw : startWindow k w₀ ≤ lengths.sum)
      (hr : ¬ (rest = [] ∧ started = true)) : SendEnd k w₀ n (statusBufferTooSmall, w)
  | sendFailed {status : NTSTATUS} {w : Http2World} (hs : Settled k.slot w₀ w)
      (hstatus : ntSuccess status = false)
      (hfail : 0 < k.maxPayload → startWindow k w₀ < n →
        ∃ m < (buffered (cut k.maxPayload (startWindow k w₀).toNat)).sent.length,
          ntSuccess (w₀.sendAnswers.getD m statusSuccess) = false) :
      SendEnd k w₀ n (status, w)
  | refused {status : NTSTATUS} {w : Http2World} (ht : ¬ TakesData w₀.conn k.slot k.streamId)
      (hstatus : ntSuccess status = false) (hne : status ≠ statusBufferTooSmall) :
      SendEnd k w₀ n (status, w)
  | finished {lengths : List ℕ} {w : Http2World} (hp : Progress k.slot w₀ lengths w)
      (hle : 0 < k.maxPayload → (n : ℤ) ≤ startWindow k w₀) : SendEnd k w₀ n (statusSuccess, w)

section Loop

variable {k : SendContext} {w₀ w : Http2World} {n : ℕ} {lengths : List ℕ} {rest : Bytes}
  {started : Bool}

theorem Upto.available (h : Upto k w₀ n lengths w rest started) :
    availableWindow w.conn (w.conn.slot k.slot).stream = startWindow k w₀ - lengths.sum :=
  h.progress.charged.available

/-- A frame within the window of the stream passes the test of `SendData`. -/
theorem fits_of_available {c : Http2Connection} {s : Http2Stream} {length : ℕ}
    (hlong : s.remoteWindow ≤ http2MaxWindowSize) (hpos : 0 < availableWindow c s)
    (hle : length ≤ (availableWindow c s).toNat) : exceedsWindow length s.remoteWindow = false := by
  have hmin : availableWindow c s ≤ s.remoteWindow := by
    unfold availableWindow
    split_ifs with h
    · exact h.le
    · exact le_rfl
  unfold exceedsWindow
  rw [castSizeT_of_nonneg (by omega) hlong]
  simp only [Bool.or_eq_false_iff, Bool.and_eq_false_iff, decide_eq_false_iff_not]
  exact ⟨.inr (by omega), by omega⟩

theorem cut_next {m a sum left c : ℕ} (hc : c = min (min left m) (a - sum)) (hm : 0 < m)
    (ha : sum < a) (hleft : a < sum + left) : cut m (a - sum) = c :: cut m (a - (sum + c)) := by
  rw [cut_of_pos hm (by omega)]
  rcases Nat.le_total m (a - sum) with hle | hle
  · rw [show min (a - sum) m = c by omega, show a - sum - m = a - (sum + c) by omega]
  · rw [show min (a - sum) m = c by omega, show a - sum - m = 0 by omega,
      show a - (sum + c) = 0 by omega]

/-- **One turn**: the loop ends, or one more frame is charged and queued. -/
theorem streamDataTurn_cases (h : Upto k w₀ n lengths w rest started)
    (hm : k.maxPayload ≤ sendBufferCapacity - http2FrameHeaderLength) (h0 : k.streamId ≠ 0)
    (hlong : (w₀.conn.slot k.slot).stream.remoteWindow ≤ http2MaxWindowSize) :
    (∃ r, streamDataTurn k (w, rest, started) = .done r ∧ SendEnd k w₀ n r) ∨
      ∃ w' c, streamDataTurn k (w, rest, started) = .again (w', rest.drop c, true) ∧
        Upto k w₀ n (lengths ++ [c]) w' (rest.drop c) true ∧
        (rest = [] → started = false) ∧ (0 < k.maxPayload → rest ≠ [] → 0 < c) := by
  unfold streamDataTurn
  simp only
  by_cases hdone : rest = [] ∧ started = true
  · rw [if_pos hdone]
    refine .inl ⟨_, rfl, .finished h.progress fun _ => ?_⟩
    obtain ⟨rfl, hstarted⟩ := hdone
    have hlen := h.length
    rw [List.length_nil, Nat.add_zero] at hlen
    rw [← hlen]
    exact (h.window (h.started.1 hstarted)).2.1
  · rw [if_neg hdone, h.available]
    by_cases hempty : startWindow k w₀ - lengths.sum ≤ 0
    · rw [if_pos hempty]
      exact .inl ⟨_, rfl, .exhausted h (by omega) hdone⟩
    · rw [if_neg hempty]
      have hrest : rest ≠ [] ∨ lengths = [] := by
        by_contra hno
        push Not at hno
        exact hdone ⟨hno.1, h.started.2 hno.2⟩
      set c := min (min rest.length k.maxPayload) (startWindow k w₀ - lengths.sum).toNat with hc
      have hlength : (rest.take c).length = c := by
        rw [List.length_take]
        omega
      have hpieces : 0 < k.maxPayload → startWindow k w₀ < n →
          cut k.maxPayload (startWindow k w₀).toNat = lengths ++
            c :: cut k.maxPayload ((startWindow k w₀).toNat - (lengths.sum + c)) := by
        intro hpos hshort
        have hlen := h.length
        have hc' : c = min (min rest.length k.maxPayload)
          ((startWindow k w₀).toNat - lengths.sum) := by omega
        rw [h.pieces hpos hshort, cut_next hc' hpos (by omega) (by omega)]
      have hfits : http2FrameHeaderLength + c ≤ sendBufferCapacity := by
        simp only [http2FrameHeaderLength, sendBufferCapacity] at hm ⊢
        omega
      have htakes : TakesData w.conn k.slot k.streamId ↔ TakesData w₀.conn k.slot k.streamId := by
        unfold TakesData
        rw [h.state hrest]
      unfold queueData
      rw [hlength]
      rcases h.progress.makeRoom hfits with ⟨status, w₁, hroom, hok, hr, hslot⟩ |
        ⟨status, w₁, hroom, hbad, hs, hanswer, hlt⟩
      · rw [hroom]
        simp only [hok, not_true_eq_false, if_false]
        have htakes₁ : TakesData w₁.conn k.slot k.streamId ↔
            TakesData w₀.conn k.slot k.streamId := by
          rw [← htakes]
          unfold TakesData
          rw [hslot]
        have hchunk : (rest.take c).length ≤ http2MaxAllowedFrameSize := by
          simp only [http2FrameHeaderLength, sendBufferCapacity, http2MaxAllowedFrameSize] at hfits ⊢
          omega
        have hwindow : exceedsWindow (rest.take c).length
            (w₁.conn.slot k.slot).stream.remoteWindow = false := by
          rw [hslot]
          refine fits_of_available ?_ (by rw [h.available]; omega) (by rw [h.available]; omega)
          rw [h.progress.charged.stream]
          omega
        generalize hlast : (k.endStream && decide (rest.length ≤ c)) = last
        by_cases ht : TakesData w₀.conn k.slot k.streamId
        · have hsent := debitData_takes last h0 (htakes₁.2 ht) hchunk hwindow
          obtain ⟨w', hw'⟩ : ∃ w', debitData w₁ k.slot k.streamId (rest.take c) last =
              (statusSuccess, w') := ⟨_, Prod.ext hsent rfl⟩
          rw [← hlength] at hr
          obtain ⟨hprogress, hstate⟩ := hr.debit hw'
          rw [hlength] at hprogress
          simp only [hw', ntSuccess_success, not_true_eq_false, if_false]
          refine .inr ⟨w', c, rfl, ⟨hprogress, ?_, ?_, ?_, ?_, ?_, ?_⟩, ?_, ?_⟩
          · rw [List.sum_append, List.sum_singleton, List.length_drop]
            have := h.length
            omega
          · simp
          · rw [List.sum_append, List.sum_singleton]
            exact fun _ => ⟨by omega, by omega, ht⟩
          · rintro (hmore | hnil)
            · have hshort : ¬ rest.length ≤ c := by
                rwa [← List.drop_eq_nil_iff]
              rw [decide_eq_false hshort, Bool.and_false] at hlast
              rw [hstate hlast.symm, hslot, h.state hrest]
            · exact absurd hnil (by simp)
          · intro hpos hshort
            rw [hpieces hpos hshort, List.append_assoc, List.sum_append, List.sum_singleton]
            rfl
          · intro hzero
            rw [List.sum_append, List.sum_singleton, h.zero hzero]
            omega
          · intro hnil
            by_contra hstarted
            exact hdone ⟨hnil, by simpa using hstarted⟩
          · intro hpos hne
            have := List.length_pos_iff.2 hne
            omega
        · obtain ⟨hne, hbad⟩ := debitData_refused last (fun h' => ht (htakes₁.1 h'))
          rw [if_pos (by rw [hbad]; simp)]
          exact .inl ⟨_, rfl, .refused ht hbad hne⟩
      · rw [hroom]
        simp only [hbad, Bool.false_eq_true, not_false_eq_true, if_true]
        refine .inl ⟨_, rfl, .sendFailed hs hbad fun hpos hshort => ?_⟩
        refine ⟨_, hlt.trans_le ?_, hanswer⟩
        have hle := buffered_sent_le (lengths ++ [c])
          (cut k.maxPayload ((startWindow k w₀).toNat - (lengths.sum + c)))
        rw [List.append_assoc] at hle
        rw [hpieces hpos hshort]
        exact hle

/-- **The whole loop**, which has the turns it needs. -/
theorem streamData_run (hm : k.maxPayload ≤ sendBufferCapacity - http2FrameHeaderLength)
    (h0 : k.streamId ≠ 0)
    (hlong : (w₀.conn.slot k.slot).stream.remoteWindow ≤ http2MaxWindowSize) :
    ∀ (fuel : ℕ) {lengths : List ℕ} {w : Http2World} {rest : Bytes} {started : Bool},
    Upto k w₀ n lengths w rest started →
    (0 < k.maxPayload → rest.length + (if started then 0 else 1) < fuel) →
    SendEnd k w₀ n (run (streamDataTurn k) (fun s => (statusSuccess, s.1)) fuel
      (w, rest, started)) := by
  intro fuel
  induction fuel with
  | zero =>
    intro lengths w rest started h hfuel
    exact .finished h.progress fun hpos => absurd (hfuel hpos) (Nat.not_lt_zero _)
  | succ fuel ih =>
    intro lengths w rest started h hfuel
    rcases streamDataTurn_cases h hm h0 hlong with ⟨r, hturn, hend⟩ | ⟨w', c, hturn, h', hnil, hpos⟩
    · rw [run_done hturn]
      exact hend
    · rw [run_again hturn]
      refine ih h' fun hpayload => ?_
      have hlt := hfuel hpayload
      rw [List.length_drop, if_pos rfl]
      by_cases hrest : rest = []
      · rw [hnil hrest, if_neg (by simp)] at hlt
        omega
      · have := hpos hpayload hrest
        have := List.length_pos_iff.2 hrest
        omega

theorem Upto.start (w : Http2World) (data : Bytes) (hi : k.slot < w.conn.activeStreams.length) :
    Upto k (clearSendBuffer w) data.length [] (clearSendBuffer w) data false := by
  refine ⟨⟨⟨by simp, by simp⟩, rfl, fun n hn => absurd hn (Nat.not_lt_zero n),
    ⟨[], (List.append_nil _).symm, rfl⟩, rfl, fun f hf => absurd hf List.not_mem_nil, hi⟩, by simp,
    by simp, fun hne => absurd rfl hne, fun _ => rfl, fun _ _ => by simp, fun _ => rfl⟩

end Loop

/-! ## The call -/

section Call

variable {w w' : Http2World} {i streamId : ℕ} {data : Bytes} {endStream : Bool}

/-- What stays the same while `SendStreamData` sends. -/
def streamDataContext (w : Http2World) (i streamId : ℕ) (endStream : Bool) : SendContext :=
  { slot := i, streamId, endStream
    maxPayload := outboundPayloadLimit w.conn.peerSettings.maxFrameSize }

/-- The loop of `SendStreamData`. -/
def streamDataLoop (w : Http2World) (i streamId : ℕ) (data : Bytes) (endStream : Bool) :
    NTSTATUS × Http2World :=
  run (streamDataTurn (streamDataContext w i streamId endStream)) (fun s => (statusSuccess, s.1))
    (data.length + 2) (clearSendBuffer w, data, false)

theorem streamDataLoop_end (h : tunnelSlot w.conn streamId = some i)
    (hlong : (w.conn.slot i).stream.remoteWindow ≤ http2MaxWindowSize) (data : Bytes)
    (endStream : Bool) : SendEnd (streamDataContext w i streamId endStream) (clearSendBuffer w)
      data.length (streamDataLoop w i streamId data endStream) := by
  obtain ⟨hslot, h0⟩ := findActiveStream_spec (Option.filter_eq_some_iff.1 h).1
  refine streamData_run (min_le_right _ _) h0 hlong _ (Upto.start w data hslot.1) fun _ => ?_
  simp

variable {w₁ : Http2World} {status : NTSTATUS}

/-- The call behind its loop: what is left in the send buffer is sent. -/
theorem awaitSendStreamData_of_loop (h : tunnelSlot w.conn streamId = some i)
    (hloop : streamDataLoop w i streamId data endStream = (status, w₁)) :
    awaitSendStreamData w streamId data endStream =
      endSendBuffer (if ¬ ntSuccess status then (status, w₁) else flushSendBuffer w₁) := by
  unfold awaitSendStreamData
  rw [streamDataLoop, streamDataContext] at hloop
  rw [h]
  simp only [hloop]

/-- A call that fails releases nothing. -/
theorem sendStreamData_failed (hbad : ntSuccess status = false) :
    sendStreamData w streamId data endStream = (status, w') ↔
      awaitSendStreamData w streamId data endStream = (status, w') := by
  unfold sendStreamData
  cases awaitSendStreamData w streamId data endStream with
  | mk s w₁ =>
    simp only [Prod.mk.injEq]
    refine and_congr_right fun hs => ?_
    subst hs
    rw [if_neg (by simp [hbad])]

theorem sendStreamData_tooSmall (h : tunnelSlot w.conn streamId = some i)
    (hloop : streamDataLoop w i streamId data endStream = (status, w₁))
    (hs : sendStreamData w streamId data endStream = (statusBufferTooSmall, w')) :
    (status = statusBufferTooSmall ∧ w' = clearSendBuffer w₁) ∨
      (ntSuccess status = true ∧ w' = clearSendBuffer (flushSendBuffer w₁).2) := by
  rw [sendStreamData_failed (by simp), awaitSendStreamData_of_loop h hloop] at hs
  by_cases hok : ntSuccess status = true
  · rw [if_neg (by simpa using hok)] at hs
    exact .inr ⟨hok, (congrArg Prod.snd hs).symm⟩
  · rw [if_pos hok] at hs
    exact .inl ⟨congrArg Prod.fst hs, (congrArg Prod.snd hs).symm⟩

theorem Settled.windows (h : Settled i w w') :
    w'.conn.connectionSendWindow = w.conn.connectionSendWindow - handedSince w w' ∧
      (w'.conn.slot i).stream.remoteWindow =
        (w.conn.slot i).stream.remoteWindow - handedSince w w' := by
  obtain ⟨n, hcharged, hhanded⟩ := h
  rw [hhanded.since]
  exact ⟨hcharged.connection, hcharged.stream⟩

theorem Settled.clear (h : Settled i (clearSendBuffer w) w') : Settled i w (clearSendBuffer w') := by
  obtain ⟨n, hcharged, hhanded⟩ := h
  exact ⟨n, ⟨hcharged.connection, hcharged.stream⟩, hhanded⟩

theorem LongWindows.slot {c : Http2Connection} (h : LongWindows c) (i : ℕ) :
    (c.slot i).stream.remoteWindow ≤ http2MaxWindowSize := by
  rw [Http2Connection.slot, List.getD_eq_getElem?_getD]
  rcases lt_or_ge i c.activeStreams.length with hi | hi
  · rw [List.getElem?_eq_getElem hi]
    exact h _ (List.getElem_mem hi)
  · rw [List.getElem?_eq_none hi]
    decide

theorem settled_of_not_runsOut (h : tunnelSlot w.conn streamId = some i)
    (hlong : LongWindows w.conn)
    (hno : ¬ WindowRunsOut w streamId data)
    (hs : sendStreamData w streamId data endStream = (statusBufferTooSmall, w')) :
    Settled i w w' := by
  have hend := streamDataLoop_end h (hlong.slot i) data endStream
  generalize hloop : streamDataLoop w i streamId data endStream = r at hend
  cases hend with
  | @exhausted lengths w₁ rest started hupto hw hr =>
    obtain ⟨-, rfl⟩ | ⟨habs, -⟩ := sendStreamData_tooSmall h hloop hs
    · have hp := hupto.progress
      by_cases hnil : lengths = []
      · subst hnil
        exact ⟨0, ⟨hp.charged.connection, hp.charged.stream⟩, hp.handed⟩
      · -- behind a frame, the window ran out
        obtain ⟨hpos, hle, ht⟩ := hupto.window hnil
        have hrest : rest ≠ [] := fun hrest => hr ⟨hrest, hupto.started.2 hnil⟩
        have hlen := hupto.length
        have hrestpos := List.length_pos_iff.2 hrest
        have hm : 0 < outboundPayloadLimit w.conn.peerSettings.maxFrameSize := by
          by_contra hzero
          have := hupto.zero (by simp only [streamDataContext]; omega)
          omega
        have hcut := hupto.pieces hm (by omega)
        rw [show (startWindow (streamDataContext w i streamId endStream) (clearSendBuffer w)).toNat -
          lengths.sum = 0 by omega, cut_zero, List.append_nil] at hcut
        refine absurd ⟨i, h, ht, hm, hpos, ?_, fun n hn => ?_⟩ hno
        · have : startWindow (streamDataContext w i streamId endStream) (clearSendBuffer w) <
            data.length := by omega
          exact this
        · refine hp.accepted n ?_
          rw [← hcut]
          exact hn
    · exact absurd habs (by simp)
  | sendFailed hsettled hbad _ =>
    obtain ⟨-, rfl⟩ | ⟨habs, -⟩ := sendStreamData_tooSmall h hloop hs
    · exact hsettled.clear
    · rw [hbad] at habs
      cases habs
  | refused _ hbad hne =>
    obtain ⟨habs, -⟩ | ⟨habs, -⟩ := sendStreamData_tooSmall h hloop hs
    · exact absurd habs hne
    · rw [hbad] at habs
      cases habs
  | finished hp _ =>
    obtain ⟨habs, -⟩ | ⟨-, rfl⟩ := sendStreamData_tooSmall h hloop hs
    · exact absurd habs (by decide)
    · exact hp.flush.2.clear

/-- A window that runs out: the frames in the send buffer are charged and lost. -/
theorem leaks_of_runsOut (hlong : LongWindows w.conn)
    (hrun : WindowRunsOut w streamId data) (endStream : Bool) :
    ∃ w' i, sendStreamData w streamId data endStream = (statusBufferTooSmall, w') ∧
      tunnelSlot w.conn streamId = some i ∧
      w'.conn.connectionSendWindow < w.conn.connectionSendWindow - handedSince w w' := by
  obtain ⟨i, h, ht, hm, hpos, hshort, haccepted⟩ := hrun
  have hend := streamDataLoop_end h (hlong.slot i) data endStream
  generalize hloop : streamDataLoop w i streamId data endStream = r at hend
  have hstart : startWindow (streamDataContext w i streamId endStream) (clearSendBuffer w) =
      availableWindow w.conn (w.conn.slot i).stream := rfl
  cases hend with
  | @exhausted lengths w₁ rest started hupto hw hr =>
    have hp := hupto.progress
    have hnil : lengths ≠ [] := by
      rintro rfl
      simp only [List.sum_nil] at hw
      omega
    refine ⟨clearSendBuffer w₁, i, ?_, h, ?_⟩
    · rw [sendStreamData_failed (by simp), awaitSendStreamData_of_loop h hloop, if_pos (by simp)]
      rfl
    · have hsum := buffered_sum lengths
      have hle := (hupto.window hnil).2.1
      have hcut := hupto.pieces hm (by rw [hstart]; exact hshort)
      rw [show (startWindow (streamDataContext w i streamId endStream) (clearSendBuffer w)).toNat -
        lengths.sum = 0 by omega, cut_zero, List.append_nil] at hcut
      have hbuffer : 0 < (buffered lengths).buffer.sum :=
        buffer_sum_pos hnil fun n hn => pos_of_mem_cut hm (hcut ▸ hn)
      have hhanded : handedSince w (clearSendBuffer w₁) = (buffered lengths).sent.flatten.sum :=
        hp.handed.since
      rw [hhanded]
      have hconn := hp.charged.connection
      change w₁.conn.connectionSendWindow < _
      rw [hconn]
      change w.conn.connectionSendWindow - _ < _
      omega
  | sendFailed _ _ hfail =>
    obtain ⟨n, hn, hbad⟩ := hfail hm (by rw [hstart]; exact hshort)
    have hok : ntSuccess ((clearSendBuffer w).sendAnswers.getD n statusSuccess) = true :=
      haccepted n hn
    rw [hbad] at hok
    cases hok
  | refused hno _ _ => exact absurd ht hno
  | finished _ hle =>
    have := hle hm
    omega

end Call

/-- **`SendStreamData` charges what it sends** on exactly the calls whose window does
    not end in the middle of the data. -/
theorem sendStreamData_credit_iff {w : Http2World} (hlong : LongWindows w.conn) (streamId : ℕ)
    (data : Bytes) (endStream : Bool) :
    KeepsCredit w streamId data endStream ↔ ¬ WindowRunsOut w streamId data := by
  constructor
  · intro hkeeps hrun
    obtain ⟨w', i, hs, h, hlt⟩ := leaks_of_runsOut hlong hrun endStream
    exact absurd (hkeeps w' i hs h).1 hlt.ne
  · intro hno w' i hs h
    exact (settled_of_not_runsOut h hlong hno hs).windows

/-- SETTINGS (ENABLE_CONNECT_PROTOCOL), the response on stream 1 and SETTINGS with an
    initial window of `n` octets. -/
def windowOf (n : UInt8) : Bytes :=
  [0, 0, 6, 4, 0, 0, 0, 0, 0, 0, 8, 0, 0, 0, 1,
    0, 0, 1, 1, 4, 0, 0, 0, 1, 0x88,
    0, 0, 6, 4, 0, 0, 0, 0, 0, 0, 4, 0, 0, 0, n]

/-- A tunnel whose window is `n` octets. -/
def tunnelOf (n : UInt8) : Http2World :=
  runOn (windowOf n) [.beginRequest tunnelRequest, .receiveResponseHeaders 1, .receiveStreamData 1 16]

/-- The window is used up before the call: it fails, and charges nothing. -/
theorem sendStreamData_credit_usedUp : KeepsCredit (tunnelOf 0) 1 (text "ab") false ∧
    (sendStreamData (tunnelOf 0) 1 (text "ab") false).1 = statusBufferTooSmall := by
  have hrun : LongWindows (tunnelOf 0).conn ∧ ¬ WindowRunsOut (tunnelOf 0) 1 (text "ab") ∧
      (sendStreamData (tunnelOf 0) 1 (text "ab") false).1 = statusBufferTooSmall := by
    decide +kernel
  exact ⟨(sendStreamData_credit_iff hrun.1 1 (text "ab") false).2 hrun.2.1, hrun.2.2⟩

/-- A window of two octets for three: two are charged, and none is sent. -/
theorem sendStreamData_leaks : ¬ KeepsCredit (tunnelOf 2) 1 (text "abc") false := by
  have hrun : LongWindows (tunnelOf 2).conn ∧ WindowRunsOut (tunnelOf 2) 1 (text "abc") := by
    decide +kernel
  obtain ⟨w', i, hs, h, hlt⟩ := leaks_of_runsOut hrun.1 hrun.2 false
  exact fun hkeeps => absurd (hkeeps w' i hs h).1 hlt.ne

end KernelHttp.Http2
