/-
  The frames of a request (`SendRequestFrames`).
-/
import KernelHttp.Http2.SendWindow

namespace KernelHttp.Http2

open Loop

/-! ## Frames of a request -/

/-- The frames of a call of `Send`. -/
def Http2Event.frames : Http2Event → List Http2Frame
  | .sent frames _ => frames
  | .received _ _ _ => []

/-- A call of `Send`. -/
def Http2Event.IsSend (e : Http2Event) : Prop := ∃ frames status, e = .sent frames status

/-- The frames handed to the transport, in order. -/
def framesSent (events : List Http2Event) : List Http2Frame := events.flatMap Http2Event.frames

/-- `n` flags, of which the last is set. -/
def lastOnly : ℕ → List Bool
  | 0 => []
  | 1 => [true]
  | n + 2 => false :: lastOnly (n + 1)

/-- HEADERS and CONTINUATION frames of a header block. -/
structure HeaderFrames (streamId : ℕ) (block : Bytes) (endStream : Bool)
    (frames : List Http2Frame) : Prop where
  types : frames.map (·.type) = .headers :: List.replicate (frames.length - 1) .continuation
  stream : ∀ f ∈ frames, f.streamId = streamId
  payload : frames.flatMap (·.payload) = block
  endHeaders : frames.map (·.endHeaders) = lastOnly frames.length
  endStream : frames.map (·.endStream) = endStream :: List.replicate (frames.length - 1) false

structure DataFrames (streamId : ℕ) (body : Bytes) (frames : List Http2Frame) : Prop where
  types : ∀ f ∈ frames, f.type = .data
  stream : ∀ f ∈ frames, f.streamId = streamId
  payload : frames.flatMap (·.payload) = body
  endStream : frames.map (·.endStream) = if body = [] then [] else lastOnly frames.length

/-- Frames of a request are sent with success, and no frame is read into a send
    buffer that holds frames. -/
def Http2Event.Delivers : Http2Event → Prop
  | .sent frames status => (∃ f ∈ frames, f.carriesRequest = true) → ntSuccess status = true
  | .received _ _ conn => conn.sendBuffer = []

/-! ## What is emitted -/

/-- Behind `w`, `frames` were written to the send buffer: of the frames that `p`
    selects, those in the buffer of `w` and `frames` were handed to the transport or are
    still in the buffer. -/
structure Emits (ok : Bool) (p : Http2Frame → Bool) (w w' : Http2World)
    (frames : List Http2Frame) (es : List Http2Event) : Prop where
  events : w'.events = w.events ++ es
  line : (framesSent es ++ w'.conn.sendBuffer).filter p = w.conn.sendBuffer ++ frames
  queued : ∀ f ∈ w'.conn.sendBuffer, p f = true
  delivers : ok = true → ∀ e ∈ es, e.Delivers

namespace Emits

variable {ok : Bool} {p : Http2Frame → Bool} {w w' w'' : Http2World} {fs gs : List Http2Frame}
  {es es' : List Http2Event}

/-- Nothing is written, and the send buffer stays. -/
theorem of_eq (hq : ∀ f ∈ w.conn.sendBuffer, p f = true) (he : w'.events = w.events)
    (hb : w'.conn.sendBuffer = w.conn.sendBuffer) : Emits ok p w w' [] [] := by
  refine ⟨by rw [he, List.append_nil], ?_, by rwa [hb], fun _ e he => absurd he List.not_mem_nil⟩
  rw [hb, List.append_nil]
  exact List.filter_eq_self.2 hq

theorem trans (h : Emits true p w w' fs es) (h' : Emits ok p w' w'' gs es') :
    Emits ok p w w'' (fs ++ gs) (es ++ es') := by
  refine ⟨?_, ?_, h'.queued, fun hok e he => ?_⟩
  · rw [h'.events, h.events, List.append_assoc]
  · have hsplit : framesSent (es ++ es') = framesSent es ++ framesSent es' := List.flatMap_append
    have hqueued : w'.conn.sendBuffer.filter p = w'.conn.sendBuffer :=
      List.filter_eq_self.2 h.queued
    calc (framesSent (es ++ es') ++ w''.conn.sendBuffer).filter p
        = (framesSent es).filter p ++ (framesSent es' ++ w''.conn.sendBuffer).filter p := by
          rw [hsplit, List.append_assoc, List.filter_append]
      _ = (framesSent es ++ w'.conn.sendBuffer).filter p ++ gs := by
          rw [h'.line, List.filter_append, hqueued, List.append_assoc]
      _ = w.conn.sendBuffer ++ (fs ++ gs) := by rw [h.line, List.append_assoc]
  · rcases List.mem_append.1 he with he | he
    · exact h.delivers rfl e he
    · exact h'.delivers hok e he

/-- What succeeded is emitted, whatever follows. -/
theorem weaken (h : Emits true p w w' fs es) : Emits ok p w w' fs es :=
  ⟨h.events, h.line, h.queued, fun _ => h.delivers rfl⟩

/-- A frame is written behind those in the send buffer. -/
theorem write (h : Emits true p w w' fs es) {f : Http2Frame} (hf : p f = true) :
    Emits true p w (queueFrame w' f) (fs ++ [f]) es := by
  refine ⟨h.events, ?_, ?_, h.delivers⟩
  · change (framesSent es ++ (w'.conn.sendBuffer ++ [f])).filter p = _
    rw [← List.append_assoc, List.filter_append, h.line, List.append_assoc, List.filter_cons_of_pos hf]
    rfl
  · intro g hg
    rcases List.mem_append.1 hg with hg | hg
    · exact h.queued g hg
    · rwa [List.mem_singleton.1 hg]

/-- The send buffer is sent. -/
theorem flush (hq : ∀ f ∈ w.conn.sendBuffer, p f = true) :
    Emits (ntSuccess (flushSendBuffer w).1) p w (flushSendBuffer w).2 []
      [.sent w.conn.sendBuffer (flushSendBuffer w).1] := by
  refine ⟨rfl, ?_, fun f hf => absurd hf List.not_mem_nil, fun hok e he => ?_⟩
  · have hframes : framesSent [.sent w.conn.sendBuffer (flushSendBuffer w).1] ++
        (flushSendBuffer w).2.conn.sendBuffer = w.conn.sendBuffer := by
      change List.flatten [_] ++ [] = _
      simp
      rfl
    rw [hframes, List.append_nil]
    exact List.filter_eq_self.2 hq
  · rw [List.mem_singleton.1 he]
    exact fun _ => hok

theorem makeRoom (hq : ∀ f ∈ w.conn.sendBuffer, p f = true) (n : ℕ) :
    ∃ es, Emits (ntSuccess (makeRoom w n).1) p w (makeRoom w n).2 [] es ∧ ∀ e ∈ es, e.IsSend := by
  unfold Http2.makeRoom
  split_ifs
  · exact ⟨[], of_eq hq rfl rfl, fun e he => absurd he List.not_mem_nil⟩
  · exact ⟨_, flush hq, fun e he => List.mem_singleton.1 he ▸ ⟨_, _, rfl⟩⟩
  · exact ⟨[], of_eq hq rfl rfl, fun e he => absurd he List.not_mem_nil⟩

theorem of_control (hidle : SendIdle w) (he : w'.events = w.events ++ es) (hidle' : SendIdle w')
    (hc : ∀ e ∈ es, (∃ t, e.IsControl t) ∨ ∃ f r c, e = .received f r c ∧ c.sendBuffer = []) :
    Emits ok Http2Frame.carriesRequest w w' [] es := by
  have hframes : ∀ f ∈ framesSent es, f.carriesRequest = false := by
    intro f hf
    obtain ⟨e, hmem, hf⟩ := List.mem_flatMap.1 hf
    rcases hc e hmem with ⟨t, g, status, rfl, hg, -⟩ | ⟨g, r, c, rfl, -⟩
    · rw [List.mem_singleton.1 hf]
      exact hg
    · exact absurd hf List.not_mem_nil
  unfold SendIdle at hidle hidle'
  refine ⟨he, ?_, ?_, fun _ e hmem => ?_⟩
  · rw [hidle, hidle', List.append_nil, List.append_nil]
    refine List.filter_eq_nil_iff.2 fun f hf => ?_
    rw [hframes f hf]
    exact Bool.false_ne_true
  · rw [hidle']
    exact fun f hf => absurd hf List.not_mem_nil
  · rcases hc e hmem with ⟨t, g, status, rfl, hg, -⟩ | ⟨g, r, c, rfl, hidle⟩
    · rintro ⟨f, hf, hcarries⟩
      rw [List.mem_singleton.1 hf, hg] at hcarries
      cases hcarries
    · exact hidle

end Emits

variable {w : Http2World}

theorem FrameEffect.incoming {w' : Http2World} {f : Http2Frame} (h : FrameEffect w f w') :
    w'.incoming = w.incoming := by
  cases h with
  | quiet h => exact h.incoming
  | calm h _ => exact h.incoming
  | slot i a _ _ h _ _ => exact h.quiet.incoming

/-- **A frame is read and handled** while the send buffer is empty; a frame takes
    octets. -/
theorem dispatchNextFrame_emits (hidle : SendIdle w) :
    ∃ es, Emits true Http2Frame.carriesRequest w (dispatchNextFrame w).2 [] es ∧
      SendIdle (dispatchNextFrame w).2 ∧ (ntSuccess (dispatchNextFrame w).1 = true →
        (dispatchNextFrame w).2.incoming.length < w.incoming.length) := by
  have hidle' : SendIdle (dispatchNextFrame w).2 := (dispatchNextFrame_idleSteps w hidle).2
  unfold dispatchNextFrame at hidle' ⊢
  have hreads := readFrame_reads w .dispatch
  cases hr : readFrame w .dispatch with
  | mk result w₁ =>
    rw [hr] at hreads hidle'
    cases hreads with
    | failed status c incoming hb hf =>
      simp only at hidle' ⊢
      obtain ⟨es, he, hc⟩ := (handleReadFrameFailure_calm { w with conn := c, incoming } status).events
      refine ⟨es, .of_control hidle he hidle' fun e hmem => .inl ⟨_, hc e hmem⟩, hidle', fun hok => ?_⟩
      rw [handleReadFrameFailure_status, hf] at hok
      cases hok
    | read f c incoming hb hlt _ =>
      simp only at hidle' ⊢
      have heff := Http2Reader.dispatch.frame_effect (w := { w with conn := c, incoming }) f trivial
      change FrameEffect _ f (dispatchFrame _ f).2 at heff
      obtain ⟨t, es, he, hc⟩ := heff.events
      have hsend : c.sendBuffer = [] := by
        rw [hb]
        exact hidle
      refine ⟨.received f .dispatch c :: es, .of_control hidle ?_ hidle' ?_, hidle', fun _ => ?_⟩
      · rw [he]
        exact List.append_assoc _ _ _
      · rintro e (_ | ⟨_, hmem⟩)
        · exact .inr ⟨f, .dispatch, c, rfl, hsend⟩
        · exact .inl ⟨t, hc e hmem⟩
      · rw [heff.incoming]
        exact hlt

/-! ## The header block -/

/-- The next frame of a header block of which `rest` is left. -/
def blockFrame (k : SendContext) (first : Bool) (rest : Bytes) : Except NTSTATUS Http2Frame :=
  if first then
    encodeHeaders k.streamId (rest.take k.maxPayload) k.endStream
      (decide (rest.length ≤ k.maxPayload))
  else encodeContinuation k.streamId (rest.take k.maxPayload) (decide (rest.length ≤ k.maxPayload))

/-- The frames of a header block, up to what is `left` of it. -/
inductive BlockFrames (k : SendContext) : Bool → Bytes → List Http2Frame → Bytes → Prop
  | stop (first : Bool) (rest : Bytes) : BlockFrames k first rest [] rest
  | cons {first : Bool} {rest left : Bytes} {frame : Http2Frame} {frames : List Http2Frame}
      (hne : rest ≠ []) (hf : blockFrame k first rest = .ok frame)
      (h : BlockFrames k false (rest.drop k.maxPayload) frames left) :
      BlockFrames k first rest (frame :: frames) left

section Header

variable {k : SendContext}

theorem blockFrame_error {first : Bool} {rest : Bytes} {status : NTSTATUS}
    (h : blockFrame k first rest = .error status) : ntSuccess status = false := by
  have hframe : ∀ {f : Http2Frame}, (if k.streamId = 0 then .error statusInvalidParameter
      else encodeFrame f) = .error status → ntSuccess status = false := by
    intro f hf
    split_ifs at hf
    · rw [← Except.error.inj hf]
      rfl
    · rw [encodeFrame_error hf]
      rfl
  unfold blockFrame at h
  cases first with
  | true => exact hframe h
  | false => exact hframe h

/-- What a turn over the header block does: it ends the loop, or one more frame is
    written. -/
inductive HeaderTurn (k : SendContext) (w : Http2World) (first : Bool) (rest : Bytes) :
    Turn (Http2World × Bool × Bytes) (NTSTATUS × Http2World) → Prop
  | done {r : NTSTATUS × Http2World} {es : List Http2Event}
      (h : Emits (ntSuccess r.1) (fun _ => true) w r.2 [] es) (hsends : ∀ e ∈ es, e.IsSend)
      (hrest : ntSuccess r.1 = true → rest = []) : HeaderTurn k w first rest (.done r)
  | written {w' : Http2World} {frame : Http2Frame} {es : List Http2Event} (hne : rest ≠ [])
      (hf : blockFrame k first rest = .ok frame)
      (h : Emits true (fun _ => true) w w' [frame] es) (hsends : ∀ e ∈ es, e.IsSend) :
      HeaderTurn k w first rest (.again (w', false, rest.drop k.maxPayload))

theorem headerBlockTurn_emits (k : SendContext) (w : Http2World) (first : Bool) (rest : Bytes) :
    HeaderTurn k w first rest (headerBlockTurn k (w, first, rest)) := by
  unfold headerBlockTurn
  simp only
  by_cases hrest : rest = []
  · rw [if_pos hrest]
    exact .done (.of_eq (fun _ _ => rfl) rfl rfl) (fun e he => absurd he List.not_mem_nil)
      fun _ => hrest
  · rw [if_neg hrest]
    obtain ⟨es, hroom, hsends⟩ := Emits.makeRoom (p := fun _ => true) (w := w) (fun _ _ => rfl)
      (rest.take k.maxPayload).length
    generalize makeRoom w (rest.take k.maxPayload).length = room at hroom
    obtain ⟨status, w₁⟩ := room
    simp only at hroom ⊢
    by_cases hok : ntSuccess status = true
    · rw [if_neg (by simpa using hok)]
      rw [hok] at hroom
      rw [show (if first = true then encodeHeaders k.streamId (rest.take k.maxPayload) k.endStream
          (decide (rest.length ≤ k.maxPayload)) else encodeContinuation k.streamId
          (rest.take k.maxPayload) (decide (rest.length ≤ k.maxPayload))) =
        blockFrame k first rest from rfl]
      cases hframe : blockFrame k first rest with
      | error status =>
        have hbad := blockFrame_error hframe
        exact .done hroom.weaken hsends fun h => by rw [hbad] at h; cases h
      | ok frame =>
        simp only
        generalize (if first = true then (w₁.conn.slot k.slot).stream.sendHeaders k.endStream
          else (statusSuccess, (w₁.conn.slot k.slot).stream)) = sent
        have hset : Emits true (fun _ => true) w (setStream w₁ k.slot sent.2) [] es :=
          ⟨hroom.events, hroom.line, hroom.queued, hroom.delivers⟩
        by_cases hsent : ntSuccess sent.1 = true
        · rw [if_neg (by simpa using hsent)]
          exact .written hrest hframe (hset.write rfl) hsends
        · rw [if_pos hsent]
          exact .done hset.weaken hsends fun h => absurd h hsent
    · rw [if_pos hok]
      exact .done hroom hsends fun h => absurd h hok

/-- **The loop over the header block.** -/
theorem headerBlock_run : ∀ (fuel : ℕ) (w : Http2World) (first : Bool) (rest : Bytes),
    ∃ frames left es, BlockFrames k first rest frames left ∧ (∀ e ∈ es, e.IsSend) ∧
      Emits (ntSuccess (run (headerBlockTurn k) (fun s => (statusSuccess, s.1)) fuel
        (w, first, rest)).1) (fun _ => true) w (run (headerBlockTurn k)
        (fun s => (statusSuccess, s.1)) fuel (w, first, rest)).2 frames es ∧
      (ntSuccess (run (headerBlockTurn k) (fun s => (statusSuccess, s.1)) fuel
        (w, first, rest)).1 = true → 0 < k.maxPayload → rest.length < fuel → left = []) := by
  intro fuel
  induction fuel with
  | zero =>
    intro w first rest
    exact ⟨[], rest, [], .stop first rest, fun e he => absurd he List.not_mem_nil,
      .of_eq (fun _ _ => rfl) rfl rfl, fun _ _ hlt => absurd hlt (Nat.not_lt_zero _)⟩
  | succ fuel ih =>
    intro w first rest
    have hturn := headerBlockTurn_emits k w first rest
    generalize hresult : headerBlockTurn k (w, first, rest) = result at hturn
    cases hturn with
    | @done r es h hsends hrest =>
      rw [run_done hresult]
      exact ⟨[], rest, es, .stop first rest, hsends, h, fun hok _ _ => hrest hok⟩
    | @written w' frame es hne hf h hsends =>
      rw [run_again hresult]
      obtain ⟨frames, left, es', hframes, hsends', hemits, hleft⟩ :=
        ih w' false (rest.drop k.maxPayload)
      refine ⟨frame :: frames, left, es ++ es', .cons hne hf hframes, ?_, h.trans hemits,
        fun hok hpos hlt => hleft hok hpos ?_⟩
      · intro e he
        exact (List.mem_append.1 he).elim (hsends e) (hsends' e)
      · have := List.length_pos_iff.2 hne
        rw [List.length_drop]
        omega

end Header

/-! ## The body -/

/-- The DATA frames of a body, up to what is `left` of it. -/
inductive BodyFrames (k : SendContext) : Bytes → List Http2Frame → Bytes → Prop
  | stop (rest : Bytes) : BodyFrames k rest [] rest
  | cons {rest left : Bytes} {n : ℕ} {frame : Http2Frame} {frames : List Http2Frame}
      (hne : rest ≠ []) (hn : n ≤ k.maxPayload)
      (hf : encodeData k.streamId (rest.take n) (decide (rest.length ≤ n)) = .ok frame)
      (h : BodyFrames k (rest.drop n) frames left) : BodyFrames k rest (frame :: frames) left

section Body

variable {k : SendContext} {w : Http2World}

/-- What is queued for a chunk of a body. -/
inductive Queued (w : Http2World) (streamId : ℕ) (chunk : Bytes) (last : Bool) :
    NTSTATUS × Http2World → Prop
  | failed {r : NTSTATUS × Http2World} {es : List Http2Event} (hbad : ntSuccess r.1 = false)
      (h : Emits false Http2Frame.carriesRequest w r.2 [] es) : Queued w streamId chunk last r
  | written {w' : Http2World} {frame : Http2Frame} {es : List Http2Event}
      (hf : encodeData streamId chunk last = .ok frame)
      (h : Emits true Http2Frame.carriesRequest w w' [frame] es)
      (hin : w'.incoming = w.incoming) : Queued w streamId chunk last (statusSuccess, w')

theorem makeRoom_incoming (w : Http2World) (n : ℕ) : (makeRoom w n).2.incoming = w.incoming := by
  rcases makeRoom_cases w n with h | h
  · rw [h]
  · rw [h]
    rfl

theorem debitData_cases (w : Http2World) (i streamId : ℕ) (chunk : Bytes) (last : Bool) :
    (∃ status, debitData w i streamId chunk last = (status, w) ∧ ntSuccess status = false) ∨
      ∃ w', debitData w i streamId chunk last = (statusSuccess, w') := by
  unfold debitData
  cases hf : encodeData streamId chunk last with
  | error status =>
    refine .inl ⟨status, rfl, ?_⟩
    rw [encodeData_error hf]
    rfl
  | ok frame =>
    simp only
    by_cases hok : ntSuccess ((w.conn.slot i).stream.sendData chunk.length last).1 = true
    · rw [if_neg (by simpa using hok)]
      exact .inr ⟨_, rfl⟩
    · rw [if_pos hok]
      exact .inl ⟨_, rfl, by simpa using hok⟩

theorem queueData_queued (hq : ∀ f ∈ w.conn.sendBuffer, f.carriesRequest = true) (i streamId : ℕ)
    (chunk : Bytes) (last : Bool) :
    Queued w streamId chunk last (queueData w i streamId chunk last) := by
  obtain ⟨es, hroom, -⟩ := Emits.makeRoom hq chunk.length
  have hin := makeRoom_incoming w chunk.length
  unfold queueData
  generalize makeRoom w chunk.length = room at hroom hin
  obtain ⟨status, w₁⟩ := room
  simp only at hroom hin ⊢
  by_cases hok : ntSuccess status = true
  · rw [if_neg (by simpa using hok)]
    rw [hok] at hroom
    rcases debitData_cases w₁ i streamId chunk last with ⟨status, hd, hbad⟩ | ⟨w', hd⟩
    · rw [hd]
      exact .failed hbad hroom.weaken
    · obtain ⟨g, stream, hg, -, rfl⟩ := debitData_eq hd
      rw [hd]
      have hdata : g.carriesRequest = true := by
        rw [(encodeData_eq hg).2.2]
        rfl
      have hset : Emits true Http2Frame.carriesRequest w (setStream w₁ i stream) [] es :=
        ⟨hroom.events, hroom.line, hroom.queued, hroom.delivers⟩
      have hwritten := hset.write hdata
      exact .written hg ⟨hwritten.events, hwritten.line, hwritten.queued, hwritten.delivers⟩ hin
  · rw [if_pos hok]
    rw [Bool.not_eq_true] at hok
    rw [hok] at hroom
    exact .failed hok hroom

theorem waitForWindow_emits (hq : ∀ f ∈ w.conn.sendBuffer, f.carriesRequest = true) :
    ∃ es, Emits (ntSuccess (waitForWindow w).1) Http2Frame.carriesRequest w (waitForWindow w).2 []
        es ∧ (ntSuccess (waitForWindow w).1 = true →
          (waitForWindow w).2.incoming.length < w.incoming.length) := by
  unfold waitForWindow
  by_cases hidle : w.conn.sendBuffer ≠ []
  · rw [if_pos hidle]
    have hflush := Emits.flush hq
    have hin : (flushSendBuffer w).2.incoming = w.incoming := rfl
    have hbuffer : SendIdle (flushSendBuffer w).2 := rfl
    generalize flushSendBuffer w = r at hflush hin hbuffer
    obtain ⟨status, w₁⟩ := r
    simp only at hflush hin hbuffer ⊢
    by_cases hok : ntSuccess status = true
    · rw [if_neg (by simpa using hok)]
      rw [hok] at hflush
      obtain ⟨es, hemits, -, hlt⟩ := dispatchNextFrame_emits hbuffer
      exact ⟨_, (hflush.trans hemits).weaken, fun h => hin ▸ hlt h⟩
    · rw [if_pos hok]
      exact ⟨_, hflush, fun h => absurd h hok⟩
  · rw [if_neg hidle]
    obtain ⟨es, hemits, -, hlt⟩ := dispatchNextFrame_emits (not_not.1 hidle)
    exact ⟨es, hemits.weaken, hlt⟩

/-- What a turn over the body does: it ends the loop, a frame is read, or one more
    frame is written. -/
inductive BodyTurn (k : SendContext) (w : Http2World) (rest : Bytes) :
    Turn (Http2World × Bytes) (NTSTATUS × Http2World) → Prop
  | done {r : NTSTATUS × Http2World} {es : List Http2Event}
      (h : Emits (ntSuccess r.1) Http2Frame.carriesRequest w r.2 [] es)
      (hrest : ntSuccess r.1 = true → rest = [] ∨ responseEnded (r.2.conn.slot k.slot) = true) :
      BodyTurn k w rest (.done r)
  | waited {w' : Http2World} {es : List Http2Event}
      (h : Emits true Http2Frame.carriesRequest w w' [] es)
      (hlt : w'.incoming.length < w.incoming.length) : BodyTurn k w rest (.again (w', rest))
  | written {w' : Http2World} {n : ℕ} {frame : Http2Frame} {es : List Http2Event} (hne : rest ≠ [])
      (hn : n ≤ k.maxPayload) (hpos : 0 < k.maxPayload → 0 < n)
      (hf : encodeData k.streamId (rest.take n) (decide (rest.length ≤ n)) = .ok frame)
      (h : Emits true Http2Frame.carriesRequest w w' [frame] es)
      (hin : w'.incoming = w.incoming) : BodyTurn k w rest (.again (w', rest.drop n))

theorem bodyTurn_emits (hq : ∀ f ∈ w.conn.sendBuffer, f.carriesRequest = true) (rest : Bytes) :
    BodyTurn k w rest (bodyTurn k (w, rest)) := by
  unfold bodyTurn
  simp only
  by_cases hrest : rest = []
  · rw [if_pos hrest]
    exact .done (.of_eq hq rfl rfl) fun _ => .inl hrest
  · rw [if_neg hrest]
    generalize hwindow : availableWindow w.conn (w.conn.slot k.slot).stream = available
    by_cases hempty : available ≤ 0
    · rw [if_pos hempty]
      obtain ⟨es, hemits, hlt⟩ := waitForWindow_emits hq
      generalize waitForWindow w = r at hemits hlt
      obtain ⟨status, w₁⟩ := r
      simp only at hemits hlt ⊢
      by_cases hok : ntSuccess status = true
      · rw [if_neg (by simpa using hok)]
        rw [hok] at hemits
        by_cases hended : responseEnded (w₁.conn.slot k.slot) = true
        · rw [if_pos hended]
          exact .done hemits fun _ => .inr hended
        · rw [if_neg hended]
          exact .waited hemits (hlt hok)
      · rw [if_pos hok]
        exact .done hemits fun h => absurd h hok
    · rw [if_neg hempty]
      by_cases hended : responseEnded (w.conn.slot k.slot) = true
      · rw [if_pos hended]
        exact .done (.of_eq hq rfl rfl) fun _ => .inr hended
      · rw [if_neg hended]
        have hlength := List.length_pos_iff.2 hrest
        set n := min (min rest.length k.maxPayload) available.toNat with hn
        have hqueued := queueData_queued hq k.slot k.streamId (rest.take n) (decide (rest.length ≤ n))
        generalize queueData w k.slot k.streamId (rest.take n) (decide (rest.length ≤ n)) = r
          at hqueued
        cases hqueued with
        | failed hbad h =>
          simp only [hbad, Bool.false_eq_true, not_false_eq_true, if_true]
          exact .done (by simpa only [hbad] using h) fun hok => by simp [hbad] at hok
        | written hf h hin =>
          simp only [ntSuccess_success, not_true_eq_false, if_false]
          exact .written hrest (by omega) (by omega) hf h hin

/-- **The loop over the body.** -/
theorem body_run : ∀ (fuel : ℕ) (w : Http2World) (rest : Bytes),
    (∀ f ∈ w.conn.sendBuffer, f.carriesRequest = true) →
    ∃ frames left es, BodyFrames k rest frames left ∧
      Emits (ntSuccess (run (bodyTurn k) (fun s => (statusSuccess, s.1)) fuel (w, rest)).1)
        Http2Frame.carriesRequest w
        (run (bodyTurn k) (fun s => (statusSuccess, s.1)) fuel (w, rest)).2 frames es ∧
      (ntSuccess (run (bodyTurn k) (fun s => (statusSuccess, s.1)) fuel (w, rest)).1 = true →
        0 < k.maxPayload → w.incoming.length + rest.length < fuel →
        left = [] ∨ responseEnded ((run (bodyTurn k) (fun s => (statusSuccess, s.1)) fuel
          (w, rest)).2.conn.slot k.slot) = true) := by
  intro fuel
  induction fuel with
  | zero =>
    intro w rest hq
    exact ⟨[], rest, [], .stop rest, .of_eq hq rfl rfl, fun _ _ hlt => absurd hlt (Nat.not_lt_zero _)⟩
  | succ fuel ih =>
    intro w rest hq
    have hturn := bodyTurn_emits (k := k) hq rest
    generalize hresult : bodyTurn k (w, rest) = result at hturn
    cases hturn with
    | @done r es h hrest =>
      rw [run_done hresult]
      exact ⟨[], rest, es, .stop rest, h, fun hok _ _ => hrest hok⟩
    | @waited w' es h hlt =>
      rw [run_again hresult]
      obtain ⟨frames, left, es', hframes, hemits, hleft⟩ := ih w' rest h.queued
      exact ⟨frames, left, es ++ es', hframes, h.trans hemits,
        fun hok hpos hfuel => hleft hok hpos (by omega)⟩
    | @written w' n frame es hne hn hpos hf h hin =>
      rw [run_again hresult]
      obtain ⟨frames, left, es', hframes, hemits, hleft⟩ := ih w' (rest.drop n) h.queued
      refine ⟨frame :: frames, left, es ++ es', .cons hne hn hf hframes, h.trans hemits,
        fun hok hpayload hfuel => hleft hok hpayload ?_⟩
      have hlength := List.length_pos_iff.2 hne
      have := hpos hpayload
      rw [List.length_drop, hin]
      omega

end Body

/-! ## How blocks and bodies are cut -/

section Cut

variable {k : SendContext}

theorem lastOnly_succ {n : ℕ} (hn : n ≠ 0) : lastOnly (n + 1) = false :: lastOnly n := by
  obtain ⟨m, rfl⟩ := Nat.exists_eq_succ_of_ne_zero hn
  rfl

variable {endHeaders first : Bool} {block rest : Bytes} {g : Http2Frame} {streamId : ℕ}

theorem encodeHeaders_eq {endStream : Bool}
    (h : encodeHeaders streamId block endStream endHeaders = .ok g) :
    g = { type := .headers, streamId, payload := block
          flags := (if endStream then 0x01 else 0) + (if endHeaders then 0x04 else 0) } := by
  unfold encodeHeaders at h
  by_cases h0 : streamId = 0
  · rw [if_pos h0] at h
    cases h
  · rw [if_neg h0] at h
    exact (encodeFrame_eq h).1

theorem encodeContinuation_eq (h : encodeContinuation streamId block endHeaders = .ok g) :
    g = { type := .continuation, streamId, payload := block
          flags := if endHeaders then 0x04 else 0 } := by
  unfold encodeContinuation at h
  by_cases h0 : streamId = 0
  · rw [if_pos h0] at h
    cases h
  · rw [if_neg h0] at h
    exact (encodeFrame_eq h).1

theorem hasFlag_headers (a b : Bool) :
    hasFlag ((if a then 0x01 else 0) + (if b then 0x04 else 0)) 2 = b ∧
      hasFlag ((if a then 0x01 else 0) + (if b then 0x04 else 0)) 0 = a := by
  cases a <;> cases b <;> decide

theorem hasFlag_continuation (b : Bool) :
    hasFlag (if b then 0x04 else 0) 2 = b ∧ hasFlag (if b then 0x04 else 0) 0 = false := by
  cases b <;> decide

theorem hasFlag_data (b : Bool) : hasFlag (if b then 0x01 else 0) 0 = b := by
  cases b <;> decide

/-- The fields of the next frame of a header block. -/
theorem blockFrame_fields (h : blockFrame k first rest = .ok g) :
    g.type = (if first then .headers else .continuation) ∧ g.streamId = k.streamId ∧
      g.payload = rest.take k.maxPayload ∧ g.endHeaders = decide (rest.length ≤ k.maxPayload) ∧
      g.endStream = (first && k.endStream) := by
  unfold blockFrame at h
  cases first with
  | true =>
    rw [encodeHeaders_eq h]
    exact ⟨rfl, rfl, rfl, (hasFlag_headers _ _).1, (hasFlag_headers _ _).2⟩
  | false =>
    rw [encodeContinuation_eq h]
    exact ⟨rfl, rfl, rfl, (hasFlag_continuation _).1, (hasFlag_continuation _).2⟩

theorem dataFrame_fields {data : Bytes} {last : Bool} (h : encodeData streamId data last = .ok g) :
    g.type = .data ∧ g.streamId = streamId ∧ g.payload = data ∧ g.endStream = last := by
  rw [(encodeData_eq h).2.2]
  exact ⟨rfl, rfl, rfl, hasFlag_data last⟩

/-- A header block without anything left has a frame, unless it is empty. -/
theorem BlockFrames.nil_iff {frames : List Http2Frame}
    (h : BlockFrames k first rest frames []) : frames = [] ↔ rest = [] := by
  cases h with
  | stop => simp
  | cons hne _ _ => simp [hne]

/-- The frames of what is left of a header block that was sent whole. -/
theorem BlockFrames.fields {frames : List Http2Frame} (h : BlockFrames k first rest frames []) :
    (∀ f ∈ frames, f.streamId = k.streamId) ∧ frames.flatMap (·.payload) = rest ∧
      frames.map (·.endHeaders) = lastOnly frames.length ∧
      (first = false → frames.map (·.type) = List.replicate frames.length .continuation ∧
        frames.map (·.endStream) = List.replicate frames.length false) := by
  generalize hleft : ([] : Bytes) = left at h
  induction h with
  | stop first rest =>
    subst hleft
    exact ⟨fun f hf => absurd hf List.not_mem_nil, rfl, rfl, fun _ => ⟨rfl, rfl⟩⟩
  | @cons first rest left frame frames hne hf h ih =>
    subst hleft
    obtain ⟨hstream, hpayload, hheaders, hmore⟩ := ih rfl
    obtain ⟨h1, h2, h3, h4, h5⟩ := blockFrame_fields hf
    refine ⟨?_, ?_, ?_, ?_⟩
    · rintro g (_ | ⟨_, hg⟩)
      · exact h2
      · exact hstream g hg
    · rw [List.flatMap_cons, hpayload, h3, List.take_append_drop]
    · -- the last frame is the one behind which nothing is left
      rw [List.map_cons, List.length_cons, h4, hheaders]
      by_cases hnil : frames = []
      · have hdrop := h.nil_iff.1 hnil
        rw [List.drop_eq_nil_iff] at hdrop
        rw [hnil, decide_eq_true hdrop]
        rfl
      · have hdrop := mt h.nil_iff.2 hnil
        rw [List.drop_eq_nil_iff] at hdrop
        rw [decide_eq_false hdrop, lastOnly_succ (by simpa using hnil)]
    · rintro rfl
      obtain ⟨htypes, hends⟩ := hmore rfl
      rw [List.map_cons, List.map_cons, htypes, hends, h1, h5]
      exact ⟨rfl, rfl⟩

/-- **The frames of a header block.** -/
theorem BlockFrames.headerFrames {frames : List Http2Frame} (hne : block ≠ [])
    (h : BlockFrames k true block frames []) :
    HeaderFrames k.streamId block k.endStream frames := by
  obtain ⟨hstream, hpayload, hheaders, -⟩ := h.fields
  cases h with
  | stop => exact absurd rfl hne
  | @cons _ _ _ frame frames _ hf h =>
    obtain ⟨-, -, -, hmore⟩ := h.fields
    obtain ⟨htypes, hends⟩ := hmore rfl
    obtain ⟨h1, -, -, -, h5⟩ := blockFrame_fields hf
    refine ⟨?_, hstream, hpayload, hheaders, ?_⟩
    · rw [List.map_cons, htypes, h1]
      rfl
    · rw [List.map_cons, hends, h5]
      rfl

theorem BodyFrames.nil_iff {frames : List Http2Frame}
    (h : BodyFrames k rest frames []) : frames = [] ↔ rest = [] := by
  cases h with
  | stop => simp
  | cons hne _ _ _ => simp [hne]

/-- **The frames of a body.** -/
theorem BodyFrames.dataFrames {frames : List Http2Frame}
    (h : BodyFrames k rest frames []) : DataFrames k.streamId rest frames := by
  generalize hleft : ([] : Bytes) = left at h
  induction h with
  | stop rest =>
    subst hleft
    exact ⟨fun f hf => absurd hf List.not_mem_nil, fun f hf => absurd hf List.not_mem_nil, rfl, rfl⟩
  | @cons rest left n frame frames hne hn hf h ih =>
    subst hleft
    obtain ⟨htypes, hstream, hpayload, hends⟩ := ih rfl
    obtain ⟨h1, h2, h3, h4⟩ := dataFrame_fields hf
    refine ⟨?_, ?_, ?_, ?_⟩
    · rintro g (_ | ⟨_, hg⟩)
      · exact h1
      · exact htypes g hg
    · rintro g (_ | ⟨_, hg⟩)
      · exact h2
      · exact hstream g hg
    · rw [List.flatMap_cons, hpayload, h3, List.take_append_drop]
    · rw [List.map_cons, List.length_cons, hends, if_neg hne, h4]
      by_cases hnil : frames = []
      · have hdrop := h.nil_iff.1 hnil
        rw [hnil, if_pos hdrop, decide_eq_true (List.drop_eq_nil_iff.1 hdrop)]
        rfl
      · have hdrop := mt h.nil_iff.2 hnil
        rw [if_neg hdrop, lastOnly_succ (by simpa using hnil),
          decide_eq_false (mt List.drop_eq_nil_iff.2 hdrop)]

end Cut

/-! ## The request -/

section Request

variable {k : SendContext} {w : Http2World}

/-- A request that ended well and was not cut short by its response. -/
def Completed (k : SendContext) (r : NTSTATUS × Http2World) : Prop :=
  ntSuccess r.1 = true ∧ responseEnded (r.2.conn.slot k.slot) = false

theorem finishRequest_emits (hq : ∀ f ∈ w.conn.sendBuffer, f.carriesRequest = true) :
    ∃ es, Emits (ntSuccess (finishRequest w k.slot).1) Http2Frame.carriesRequest w
        (finishRequest w k.slot).2 [] es ∧ (es = [] ∨ ∃ status, es = [.sent w.conn.sendBuffer status]) ∧
        (Completed k (finishRequest w k.slot) → SendIdle (finishRequest w k.slot).2 ∧ es ≠ []) := by
  unfold finishRequest
  by_cases hended : responseEnded (w.conn.slot k.slot) = true
  · rw [if_pos hended]
    refine ⟨[], .of_eq hq rfl rfl, .inl rfl, fun hc => ?_⟩
    have := hc.2
    rw [hended] at this
    cases this
  · rw [if_neg hended]
    exact ⟨_, .flush hq, .inr ⟨_, rfl⟩, fun _ => ⟨rfl, List.cons_ne_nil _ _⟩⟩

theorem sendRequestBody_emits (hq : ∀ f ∈ w.conn.sendBuffer, f.carriesRequest = true)
    (body : Bytes) :
    ∃ frames left es, BodyFrames k body frames left ∧
      Emits (ntSuccess (sendRequestBody w k body).1) Http2Frame.carriesRequest w
        (sendRequestBody w k body).2 frames es ∧
      (es = [] ∨ ∃ status es', es = .sent w.conn.sendBuffer status :: es') ∧
      (Completed k (sendRequestBody w k body) → 0 < k.maxPayload →
        SendIdle (sendRequestBody w k body).2 ∧ es ≠ [] ∧
        if k.endStream then frames = [] else left = []) := by
  unfold sendRequestBody
  by_cases hend : k.endStream = true
  · rw [if_pos hend]
    obtain ⟨es, hemits, hfirst, hdone⟩ := finishRequest_emits (k := k) hq
    refine ⟨[], body, es, .stop body, hemits, ?_, fun hc _ => ?_⟩
    · exact hfirst.imp id fun ⟨status, he⟩ => ⟨status, [], he⟩
    · obtain ⟨hidle, hne⟩ := hdone hc
      exact ⟨hidle, hne, by rw [if_pos hend]⟩
  · rw [if_neg hend]
    have hflush := Emits.flush hq
    generalize flushSendBuffer w = r at hflush
    obtain ⟨status, w₁⟩ := r
    simp only at hflush ⊢
    by_cases hok : ntSuccess status = true
    · rw [if_neg (by simpa using hok)]
      rw [hok] at hflush
      obtain ⟨frames, left, es, hframes, hemits, hleft⟩ :=
        body_run (k := k) (w₁.incoming.length + body.length + 1) w₁ body hflush.queued
      change Emits (ntSuccess (sendBody w₁ k body).1) _ w₁ (sendBody w₁ k body).2 frames es at hemits
      change ntSuccess (sendBody w₁ k body).1 = true → _ → _ → left = [] ∨
        responseEnded ((sendBody w₁ k body).2.conn.slot k.slot) = true at hleft
      generalize sendBody w₁ k body = r at hemits hleft
      obtain ⟨status', w₂⟩ := r
      simp only at hemits hleft ⊢
      by_cases hok' : ntSuccess status' = true
      · rw [if_neg (by simpa using hok')]
        rw [hok'] at hemits
        obtain ⟨es', hfinish, -, hdone⟩ := finishRequest_emits (k := k) hemits.queued
        have hall := (hflush.trans hemits).trans hfinish
        rw [List.append_nil] at hall
        refine ⟨frames, left, _, hframes, hall, .inr ⟨status, es ++ es', List.append_assoc _ _ _⟩,
          fun hc hpos => ?_⟩
        obtain ⟨hidle, -⟩ := hdone hc
        refine ⟨hidle, by simp, ?_⟩
        rw [if_neg hend]
        refine (hleft hok' hpos (by omega)).resolve_right fun hended => ?_
        -- `finishRequest` leaves the slots
        have hc' := hc.2
        unfold finishRequest at hc'
        rw [if_pos hended] at hc'
        exact absurd hended (by rw [hc']; simp)
      · rw [if_pos hok']
        exact ⟨frames, left, _, hframes, hflush.trans hemits, .inr ⟨status, es, rfl⟩,
          fun hc => absurd hc.1 hok'⟩
    · rw [if_pos hok]
      exact ⟨[], body, _, .stop body, hflush, .inr ⟨status, [], rfl⟩, fun hc => absurd hc.1 hok⟩

theorem BlockFrames.carries {first : Bool} {rest left : Bytes} {frames : List Http2Frame}
    (h : BlockFrames k first rest frames left) : ∀ f ∈ frames, f.carriesRequest = true := by
  induction h with
  | stop => exact fun f hf => absurd hf List.not_mem_nil
  | @cons first _ _ frame _ _ hf _ ih =>
    rintro g (_ | ⟨_, hg⟩)
    · have htype := (blockFrame_fields hf).1
      rw [Http2Frame.carriesRequest, htype]
      cases first <;> rfl
    · exact ih g hg

variable {ok : Bool} {block : Bytes} {encoder : HpackEncoder} {w' : Http2World}
    {es : List Http2Event} {fs : List Http2Frame} {headers : List HttpHeader} {i : ℕ}

theorem Emits.restrict {q : Http2Frame → Bool} (h : Emits ok (fun _ => true) w w' fs es)
    (hq : ∀ f ∈ w.conn.sendBuffer ++ fs, q f = true) : Emits ok q w w' fs es := by
  have hline := h.line
  rw [List.filter_eq_self.2 fun _ _ => rfl] at hline
  refine ⟨h.events, ?_, fun f hf => hq f ?_, h.delivers⟩
  · rw [hline]
    exact List.filter_eq_self.2 hq
  · rw [← hline]
    exact List.mem_append_right _ hf

theorem Emits.sent_mem {p : Http2Frame → Bool} (h : Emits ok p w w' fs es)
    {f : Http2Frame} (hf : f ∈ framesSent es) (hp : p f = true) : f ∈ w.conn.sendBuffer ++ fs := by
  rw [← h.line]
  exact List.mem_filter.2 ⟨List.mem_append_left _ hf, hp⟩

/-- What stays the same while a request is sent. -/
def requestContext (w : Http2World) (i : ℕ) (body : Bytes) : SendContext :=
  { slot := i
    streamId := (w.conn.slot i).stream.streamId
    endStream := !(w.conn.slot i).responseState.tunnelMode && body.isEmpty
    maxPayload := outboundPayloadLimit w.conn.peerSettings.maxFrameSize }

def startRequest (w : Http2World) (encoder : HpackEncoder) : Http2World :=
  clearSendBuffer { w with conn := { w.conn with encoder } }

theorem sendRequestFrames_of_encode
    (h : w.conn.encoder.encode headers w.conn.headerBlockCapacity = (.ok block, encoder))
    (body : Bytes) : sendRequestFrames w i headers body = endSendBuffer
      (match sendHeaderBlock (startRequest w encoder) (requestContext w i body) block with
      | (status, w') =>
        if ¬ ntSuccess status then (status, w')
        else sendRequestBody w' (requestContext w i body) body) := by
  unfold sendRequestFrames
  rw [h]
  rfl

/-- What was emitted in a call of `SendRequestFrames`: frames of the header block
    `before` and of the body `after`. -/
structure RequestEmitted (k : SendContext) (block body : Bytes) (w : Http2World)
    (r : NTSTATUS × Http2World) (heads datas : List Http2Frame)
    (before after : List Http2Event) : Prop where
  header : ∃ left, BlockFrames k true block heads left ∧
    (Completed k r → 0 < k.maxPayload → left = [])
  data : ∃ left, BodyFrames k body datas left ∧
    (Completed k r → 0 < k.maxPayload → if k.endStream then datas = [] else left = [])
  events : r.2.events = w.events ++ before ++ after
  first : ∀ e es, before ++ after = e :: es →
    ∃ frames status, e = .sent frames status ∧ ∀ f ∈ frames, f.carriesRequest = true
  sent : ∀ f ∈ framesSent (before ++ after), f.carriesRequest = true → f ∈ heads ++ datas
  whole : Completed k r → 0 < k.maxPayload → framesSent before = heads ∧
    (framesSent after).filter Http2Frame.carriesRequest = datas ∧
    ∀ e ∈ before ++ after, e.Delivers

/-- **A request in frames**, sent as a whole or in part. -/
theorem sendRequestFrames_emitted
    (h : w.conn.encoder.encode headers w.conn.headerBlockCapacity = (.ok block, encoder))
    (body : Bytes) : ∃ heads datas before after, RequestEmitted (requestContext w i body) block body
      w (sendRequestFrames w i headers body) heads datas before after := by
  rw [sendRequestFrames_of_encode h]
  set k := requestContext w i body
  obtain ⟨heads, left, es, hframes, hsends, hemits, hleft⟩ :=
    headerBlock_run (k := k) (block.length + 1) (startRequest w encoder) true block
  change Emits (ntSuccess (sendHeaderBlock (startRequest w encoder) k block).1) _ _
    (sendHeaderBlock (startRequest w encoder) k block).2 heads es at hemits
  change ntSuccess (sendHeaderBlock (startRequest w encoder) k block).1 = true → _ at hleft
  generalize sendHeaderBlock (startRequest w encoder) k block = r at hemits hleft
  obtain ⟨status, w₁⟩ := r
  simp only at hemits hleft ⊢
  have hcarries := hframes.carries
  have hrestrict := hemits.restrict (q := Http2Frame.carriesRequest) hcarries
  -- a `Send` of the loop over the header block has frames of it only
  have hheader : ∀ e ∈ es, ∃ frames status, e = .sent frames status ∧
      ∀ f ∈ frames, f.carriesRequest = true := by
    intro e he
    obtain ⟨frames, status', rfl⟩ := hsends e he
    refine ⟨frames, status', rfl, fun f hf => hcarries f ?_⟩
    exact hemits.sent_mem (List.mem_flatMap.2 ⟨_, he, hf⟩) rfl
  by_cases hok : ntSuccess status = true
  · rw [if_neg (by simpa using hok)]
    rw [hok] at hrestrict hemits
    obtain ⟨datas, left', es', hdatas, hbody, hshape, hwhole⟩ :=
      sendRequestBody_emits (k := k) hrestrict.queued body
    generalize sendRequestBody w₁ k body = r at hbody hwhole
    have hall := hrestrict.trans hbody
    have hsent : ∀ f ∈ framesSent (es ++ es'), f.carriesRequest = true → f ∈ heads ++ datas :=
      fun f hf hp => hall.sent_mem hf hp
    have hfirst : ∀ e rest, es ++ es' = e :: rest → ∃ frames status, e = .sent frames status ∧
        ∀ f ∈ frames, f.carriesRequest = true := by
      intro e rest heq
      rcases List.append_eq_cons_iff.1 heq with ⟨-, heq⟩ | ⟨es₁, rfl, -⟩
      · obtain hnil | ⟨status', es'', hcons⟩ := hshape
        · rw [hnil] at heq
          cases heq
        · rw [hcons, List.cons.injEq] at heq
          exact ⟨_, status', heq.1.symm, hrestrict.queued⟩
      · exact hheader e List.mem_cons_self
    have hevents : (endSendBuffer r).2.events = w.events ++ es ++ es' := by
      have hevents := hall.events
      rw [← List.append_assoc] at hevents
      exact hevents
    by_cases hdone : Completed k r ∧ 0 < k.maxPayload
    · obtain ⟨hc, hpos⟩ := hdone
      obtain ⟨hidle, hne, hrest⟩ := hwhole hc hpos
      obtain ⟨status', es'', rfl⟩ := hshape.resolve_left hne
      -- the first `Send` behind the header block has the end of it
      have hassoc : es ++ .sent w₁.conn.sendBuffer status' :: es'' =
          (es ++ [.sent w₁.conn.sendBuffer status']) ++ es'' := by simp
      rw [List.append_assoc, hassoc, ← List.append_assoc] at hevents
      rw [hassoc] at hsent hfirst
      refine ⟨heads, datas, es ++ [.sent w₁.conn.sendBuffer status'], es'',
        ⟨left, hframes, fun _ hp => hleft hok hp (Nat.lt_succ_self _)⟩,
        ⟨left', hdatas, fun _ _ => hrest⟩, hevents, hfirst, hsent, fun _ _ => ⟨?_, ?_, ?_⟩⟩
      · have hline := hemits.line
        rw [List.filter_eq_self.2 fun _ _ => rfl] at hline
        rw [framesSent, List.flatMap_append]
        exact (congrArg (framesSent es ++ ·) (List.append_nil _)).trans hline
      · have hline := hbody.line
        rw [hidle, List.append_nil] at hline
        change (w₁.conn.sendBuffer ++ framesSent es'').filter _ = _ at hline
        rw [List.filter_append, List.filter_eq_self.2 hrestrict.queued] at hline
        exact List.append_cancel_left hline
      · have hdelivers := hall.delivers hc.1
        rwa [hassoc] at hdelivers
    · exact ⟨heads, datas, es, es', ⟨left, hframes, fun hc hp => absurd ⟨hc, hp⟩ hdone⟩,
        ⟨left', hdatas, fun hc hp => absurd ⟨hc, hp⟩ hdone⟩, hevents, hfirst, hsent,
        fun hc hp => absurd ⟨hc, hp⟩ hdone⟩
  · rw [if_pos hok]
    refine ⟨heads, [], es, [], ⟨left, hframes, fun hc => absurd hc.1 hok⟩,
      ⟨body, .stop body, fun hc => absurd hc.1 hok⟩, ?_, ?_, ?_, fun hc => absurd hc.1 hok⟩
    · rw [List.append_nil]
      exact hemits.events
    · intro e rest heq
      rw [List.append_nil] at heq
      exact hheader e (heq ▸ List.mem_cons_self)
    · intro f hf hp
      rw [List.append_nil] at hf ⊢
      exact hrestrict.sent_mem hf hp

end Request

/-- **A request is cut exactly**: a request that was sent, outside a tunnel and without
    a response that came first, is HEADERS and CONTINUATION frames of its header block
    without anything between them, and DATA frames of its body. -/
theorem sendRequestFrames_exact {w w' : Http2World} {i : ℕ} {headers : List HttpHeader}
    {block body : Bytes} {encoder : HpackEncoder} {status : NTSTATUS}
    (htunnel : (w.conn.slot i).responseState.tunnelMode = false)
    (hencode : w.conn.encoder.encode headers w.conn.headerBlockCapacity = (.ok block, encoder))
    (hblock : block ≠ []) (hsize : 0 < w.conn.peerSettings.maxFrameSize)
    (h : sendRequestFrames w i headers body = (status, w')) (hs : ntSuccess status = true)
    (hearly : responseEnded (w'.conn.slot i) = false) :
    ∃ before after, w'.events = w.events ++ before ++ after ∧
      HeaderFrames (w.conn.slot i).stream.streamId block body.isEmpty (framesSent before) ∧
      DataFrames (w.conn.slot i).stream.streamId body
        ((framesSent after).filter Http2Frame.carriesRequest) ∧
      ∀ e ∈ before ++ after, e.Delivers := by
  obtain ⟨heads, datas, before, after, hemitted⟩ := sendRequestFrames_emitted hencode body
  rw [h] at hemitted
  have hc : Completed (requestContext w i body) (status, w') := ⟨hs, hearly⟩
  have hpos : 0 < (requestContext w i body).maxPayload :=
    lt_min hsize (by norm_num [sendBufferCapacity, http2FrameHeaderLength])
  have hend : (requestContext w i body).endStream = body.isEmpty := by
    simp [requestContext, htunnel]
  obtain ⟨left, hblockFrames, hleft⟩ := hemitted.header
  obtain rfl := hleft hc hpos
  obtain ⟨left, hbodyFrames, hrest⟩ := hemitted.data
  obtain ⟨hbefore, hafter, hdelivers⟩ := hemitted.whole hc hpos
  refine ⟨before, after, hemitted.events, ?_, ?_, hdelivers⟩
  · rw [hbefore, ← hend]
    exact hblockFrames.headerFrames hblock
  · rw [hafter]
    have hrest := hrest hc hpos
    cases hbody : body with
    | nil =>
      rw [hend, hbody] at hrest
      obtain rfl : datas = [] := hrest
      exact (BodyFrames.stop (k := requestContext w i body) []).dataFrames
    | cons b body' =>
      rw [hend, hbody] at hrest
      obtain rfl : left = [] := hrest
      rw [← hbody]
      exact hbodyFrames.dataFrames

def postHeaders : List HttpHeader := [⟨text ":method", text "POST"⟩]

/-- SETTINGS with an initial window of 2 octets, and WINDOW_UPDATE on stream 1 with
    1 octet. -/
def stalledWindow : Bytes :=
  [0, 0, 6, 4, 0, 0, 0, 0, 0, 0, 4, 0, 0, 0, 2,
    0, 0, 4, 8, 0, 0, 0, 0, 1, 0, 0, 0, 1]

/-- A connection on these octets with a slot for stream 1. -/
def openedOn (octets : Bytes) : Http2World :=
  let w := (initializeConnection 64 (octets.map .ok) []).2
  { w with conn := openStream w.conn 0 { headers := postHeaders } false }

/-- Two octets of the body are sent, the window is waited for, and the third is sent. -/
theorem sendRequestFrames_exact_stalled :
    ∃ before after, (sendRequestFrames (openedOn stalledWindow) 0 postHeaders (text "abc")).2.events =
        (openedOn stalledWindow).events ++ before ++ after ∧
      HeaderFrames ((openedOn stalledWindow).conn.slot 0).stream.streamId [0x83] false
        (framesSent before) ∧
      DataFrames ((openedOn stalledWindow).conn.slot 0).stream.streamId (text "abc")
        ((framesSent after).filter Http2Frame.carriesRequest) ∧
      ∀ e ∈ before ++ after, e.Delivers := by
  have hrun : ((openedOn stalledWindow).conn.slot 0).responseState.tunnelMode = false ∧
      ((openedOn stalledWindow).conn.encoder.encode postHeaders
        (openedOn stalledWindow).conn.headerBlockCapacity).1 = .ok [0x83] ∧
      0 < (openedOn stalledWindow).conn.peerSettings.maxFrameSize ∧
      ntSuccess (sendRequestFrames (openedOn stalledWindow) 0 postHeaders (text "abc")).1 = true ∧
      responseEnded ((sendRequestFrames (openedOn stalledWindow) 0 postHeaders
        (text "abc")).2.conn.slot 0) = false := by
    decide +kernel
  obtain ⟨htunnel, hencode, hsize, hs, hearly⟩ := hrun
  exact sendRequestFrames_exact htunnel (Prod.ext hencode rfl) (List.cons_ne_nil _ _) hsize
    (Prod.eta _).symm hs hearly

end KernelHttp.Http2
