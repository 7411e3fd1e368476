/-
  What a failed receive leaves behind.

  What was read behind the last frame that was consumed is lost when a call fails.
-/
import KernelHttp.WebSocket.Inbound

namespace KernelHttp.WebSocket

open Relation

/-- The arguments of a call, with the capacity of the buffer for what is read. -/
structure ReceiveCall where
  outputCapacity : ℕ
  frameBufferLength : ℕ
  autoReplyPing : Bool
  receiveFrameCapacity : ℕ

/-- The octets that have been received and those that are still to come. -/
def unread (c : WebSocketClient) (t : Transport) : Bytes := c.bufferedFrame ++ t.incoming.flatten

/-! ## Waiting for a frame -/

section

variable (call : ReceiveCall) (c : WebSocketClient)

/-- `opcode` is that of a frame of a message. -/
def ofMessage (opcode : WebSocketOpcode) : Bool := isDataFrame opcode || opcode == .continuation

/-- No whole frame is in `data`, and its header shows no fault. -/
def Awaits (data : Bytes) : Prop :=
  match readHeader data with
  | .incomplete => True
  | .invalid => False
  | .header _ opcode n rest =>
    badFragmentOrder opcode c = false ∧
      (ofMessage opcode && messageTooBig n call.outputCapacity c) = false ∧ rest.length < n

/-- A whole frame is at the head of `data`, and its header shows no fault. -/
structure Arrived (data : Bytes) (header : WebSocketFrameHeader) (rest : Bytes) : Prop where
  read : readHeader data = .header header.fin header.opcode header.payloadLength rest
  masked : header.masked = false
  length : header.headerLength = data.length - rest.length
  order : badFragmentOrder header.opcode c = false
  fits : (ofMessage header.opcode && messageTooBig header.payloadLength call.outputCapacity c) =
    false
  whole : header.payloadLength ≤ rest.length

/-- What a read of `data` and `t` answers for a DATA frame at the head of what is to come. -/
def ReceiveCall.dataFrameStatus (call : ReceiveCall) (data : Bytes) (t : Transport) (chunk : Bytes)
    (rest : List Bytes) : NTSTATUS :=
  WebSocket.dataFrameStatus (call.receiveFrameCapacity - data.length) t chunk rest.length

/-- A read of octets, behind which the connection is open. -/
inductive ReadStep : Bytes × Transport → Bytes × Transport → Prop
  | read {data chunk : Bytes} {t : Transport} {rest left : List Bytes}
      (hawaits : Awaits call c data) (hincoming : t.incoming = chunk :: rest)
      (hchunk : chunk ≠ [])
      (hstatus : c.http2 = true → ntSuccess (call.dataFrameStatus data t chunk rest) = true)
      (hleft : left = if chunk.length ≤ call.receiveFrameCapacity - data.length then rest
        else chunk.drop (call.receiveFrameCapacity - data.length) :: rest)
      (hopen : ¬ (c.http2 = true ∧ t.endStream = true ∧ left = [])) :
      ReadStep (data, t)
        (data ++ chunk.take (call.receiveFrameCapacity - data.length), { t with incoming := left })

/-- A frame to the server that cannot be sent, without an end of the connection. -/
def SendFails (t : Transport) (opcode : WebSocketOpcode) (payload : Bytes) : Prop :=
  let status := (transmit c.http2 (t.answers t.attempts) opcode payload call.frameBufferLength
    true).1
  ntSuccess status = false ∧ isConnectionTerminalStatus status = false

def AnswersClose (payload : Bytes) : Prop :=
  payload.length ≠ 1 ∧ (2 ≤ payload.length →
    isValidCloseStatus (BigEndian.ofBigEndian (payload.take 2)) = true ∧
      isValidUtf8 (payload.drop 2) = true)

/-- Control frames that the client leaves in its buffer: one more than `count`, for which the
output is too small, or for which the answer cannot be sent. -/
def Refuses (count : ℕ) (t : Transport) (opcode : WebSocketOpcode) (payload : Bytes) : Prop :=
  match opcode with
  | .ping => count + 1 ≤ khWsMaxControlFramesPerReceive ∧
      if call.autoReplyPing then SendFails call c t .pong payload
      else c.receiveFragmentOpen = false ∧ call.outputCapacity < payload.length
  | .pong => count + 1 ≤ khWsMaxControlFramesPerReceive ∧ call.autoReplyPing = false ∧
      c.receiveFragmentOpen = false ∧ call.outputCapacity < payload.length
  | .close => AnswersClose payload ∧ c.closeSent = false ∧ SendFails call c t .close payload
  | _ => False

/-- A read without octets: its status, and what is still to come behind it.  The transport has
nothing more, or over HTTP/2 a DATA frame is not handed over. -/
inductive ReadsNothing (data : Bytes) (t : Transport) : NTSTATUS → List Bytes → Prop
  | ending (hin : t.incoming = []) : ReadsNothing data t t.ending []
  | refused {chunk : Bytes} {rest : List Bytes} (hhttp2 : c.http2 = true)
      (hin : t.incoming = chunk :: rest) :
      ReadsNothing data t (call.dataFrameStatus data t chunk rest) rest

/-- A read that fails inside a frame, without an end of the connection. -/
def Breaks (data : Bytes) (t : Transport) (status : NTSTATUS) (left : List Bytes) : Prop :=
  Awaits call c data ∧ ReadsNothing call c data t status left ∧ ntSuccess status = false ∧
    isConnectionTerminalStatus status = false

/-- An end that leaves the connection open, behind reads that are not in the buffer or with the
loss of a DATA frame. -/
def Strands : ReceiveState → Prop
  | (count, c, t) => c.connected = true ∧ ∃ data t',
      ReflTransGen (ReadStep call c) (c.bufferedFrame, t) (data, t') ∧
      ((∃ status left, Breaks call c data t' status left ∧
          (data ≠ c.bufferedFrame ∨ left.flatten ≠ t'.incoming.flatten)) ∨
        (data ≠ c.bufferedFrame ∧ ∃ header rest, Arrived call c data header rest ∧
          Refuses call c count t' header.opcode (rest.take header.payloadLength)))

end

section Reading

variable {call : ReceiveCall} {c : WebSocketClient}

variable {data : Bytes} {s s' : Bytes × Transport} {t : Transport} {n : ℕ}

/-- The buffer has room for a frame that the client waits for. -/
theorem Awaits.length_lt (h : Awaits call c data)
    (hcap : max call.outputCapacity 125 + 14 ≤ call.receiveFrameCapacity) :
    data.length < call.receiveFrameCapacity := by
  unfold Awaits at h
  cases hr : readHeader data with
  | incomplete =>
    have := readHeader_incomplete hr
    omega
  | invalid =>
    rw [hr] at h
    exact h.elim
  | header fin opcode n rest =>
    simp only [hr] at h
    obtain ⟨-, hfits, hshort⟩ := h
    obtain ⟨head, hdata, -, h10⟩ := readHeader_header hr
    obtain ⟨-, hcontrol⟩ := readHeader_bounds hr
    have hn : n ≤ max call.outputCapacity 125 := by
      cases hop : isControlOpcode opcode with
      | true => exact (hcontrol hop).1.trans (le_max_right _ _)
      | false =>
        have hof : ofMessage opcode = true := by
          cases opcode <;> first | rfl | cases hop
        rw [hof, Bool.true_and, messageTooBig, Bool.or_eq_false_iff] at hfits
        have := of_decide_eq_false hfits.2
        omega
    rw [hdata, List.length_append]
    omega

/-- A read that fails, in `readMore`. -/
theorem ReadsNothing.readMore_eq {status : NTSTATUS} {left : List Bytes}
    (h : ReadsNothing call c data t status left) (hs : ntSuccess status = false)
    (hlt : data.length < call.receiveFrameCapacity) :
    readMore call.receiveFrameCapacity data c t =
      if isConnectionTerminalStatus status then
        .done (.inl ({ status },
          closeTransport { c with connected := false, closeReceived := true },
          { t with incoming := left }))
      else .done (.inl ({ status }, c, { t with incoming := left })) := by
  have hraw : receiveRaw (call.receiveFrameCapacity - data.length) c t =
      (status, [], c, { t with incoming := left }) := by
    cases h with
    | ending hin =>
      rw [receiveRaw, hin]
      simp only [← hin]
    | @refused chunk rest hhttp2 hin =>
      rw [receiveRaw, hin]
      exact if_pos ⟨hhttp2, fun h => Bool.false_ne_true (hs.symm.trans h)⟩
  rw [readMore, if_neg (not_le.2 hlt), hraw]
  simp only [hs, Bool.false_eq_true, not_false_eq_true, if_true]

/-- What it takes off the stream. -/
theorem ReadsNothing.suffix {status : NTSTATUS} {left : List Bytes}
    (h : ReadsNothing call c data t status left) :
    ∃ chunk, t.incoming.flatten = chunk ++ left.flatten := by
  cases h with
  | ending hin => exact ⟨[], by rw [hin]; rfl⟩
  | @refused chunk rest _ hin => exact ⟨chunk, by rw [hin, List.flatten_cons]⟩

theorem fillTurn_awaits (h : Awaits call c data) (t : Transport) :
    fillTurn call.receiveFrameCapacity call.outputCapacity call.frameBufferLength (data, c, t) =
      readMore call.receiveFrameCapacity data c t := by
  simp only [fillTurn, tryDecodeCompleteFrame_eq]
  unfold Awaits at h
  cases hr : readHeader data with
  | incomplete => rfl
  | invalid =>
    rw [hr] at h
    exact h.elim
  | header fin opcode n rest =>
    simp only [hr] at h
    obtain ⟨horder, hfits, hshort⟩ := h
    simp only
    rw [if_neg (by rw [horder]; exact Bool.false_ne_true),
      if_neg (by rw [← Bool.not_eq_true] at hfits; exact hfits),
      if_neg (by simpa using hshort)]

theorem fillTurn_arrived {rest : Bytes} {header : WebSocketFrameHeader}
    (h : Arrived call c data header rest) (t : Transport) :
    fillTurn call.receiveFrameCapacity call.outputCapacity call.frameBufferLength (data, c, t) =
      .done (.inr (header, data, c, t)) := by
  obtain ⟨fin, masked, opcode, n, headerLength⟩ := header
  obtain rfl : masked = false := h.masked
  obtain rfl : headerLength = data.length - rest.length := h.length
  simp only [fillTurn, tryDecodeCompleteFrame_eq, h.read]
  rw [if_neg (by rw [h.order]; exact Bool.false_ne_true), if_neg, if_pos]
  · exact decide_eq_true h.whole
  · have := h.fits
    rw [← Bool.not_eq_true] at this
    exact this

/-- What a turn of the inner loop does: it reads, it has a frame, or it closes the connection. -/
theorem fillTurn_cases (call : ReceiveCall) (data : Bytes) (c : WebSocketClient) (t : Transport) :
    Awaits call c data ∨ (∃ header rest, Arrived call c data header rest) ∨
    ∃ outcome : Outcome, outcome.2.1.connected = false ∧
      fillTurn call.receiveFrameCapacity call.outputCapacity call.frameBufferLength (data, c, t) =
        .done (.inl outcome) := by
  simp only [fillTurn, tryDecodeCompleteFrame_eq, Awaits]
  cases hr : readHeader data with
  | incomplete => exact .inl trivial
  | invalid => exact .inr (.inr ⟨_, rfl, rfl⟩)
  | header fin opcode n rest =>
    simp only
    by_cases horder : badFragmentOrder opcode c = true
    · rw [if_pos horder]
      exact .inr (.inr ⟨_, rfl, rfl⟩)
    rw [if_neg horder]
    by_cases hfits : ((isDataFrame opcode || opcode == .continuation) &&
        messageTooBig n call.outputCapacity c) = true
    · rw [if_pos hfits]
      exact .inr (.inr ⟨_, rfl, rfl⟩)
    rw [Bool.not_eq_true] at horder hfits
    rcases le_or_gt n rest.length with hwhole | hshort
    · exact .inr (.inl ⟨⟨fin, false, opcode, n, data.length - rest.length⟩, rest,
        ⟨hr, rfl, rfl, horder, hfits, hwhole⟩⟩)
    · exact .inl ⟨horder, hfits, hshort⟩

/-- A read: octets behind which the connection is open, octets behind which it is not, or an
end. -/
theorem readMore_cases (hawaits : Awaits call c data)
    (hcap : max call.outputCapacity 125 + 14 ≤ call.receiveFrameCapacity) :
    (∃ data' t', ReadStep call c (data, t) (data', t') ∧
      readMore call.receiveFrameCapacity data c t = .again (data', c, t')) ∨
    (∃ data' c' t', c'.connected = false ∧ t'.pending < t.pending ∧
      readMore call.receiveFrameCapacity data c t = .again (data', c', t')) ∨
    (∃ outcome : Outcome, outcome.2.1.connected = false ∧
      readMore call.receiveFrameCapacity data c t = .done (.inl outcome)) ∨
    (∃ status left, Breaks call c data t status left ∧
      readMore call.receiveFrameCapacity data c t =
        .done (.inl ({ status }, c, { t with incoming := left }))) := by
  have hlt := hawaits.length_lt hcap
  -- a read that fails
  have hnothing : ∀ {status left}, ReadsNothing call c data t status left →
      ntSuccess status = false →
      (∃ outcome : Outcome, outcome.2.1.connected = false ∧
        readMore call.receiveFrameCapacity data c t = .done (.inl outcome)) ∨
      (∃ status left, Breaks call c data t status left ∧
        readMore call.receiveFrameCapacity data c t =
          .done (.inl ({ status }, c, { t with incoming := left }))) := by
    intro status left hreads hs
    rw [hreads.readMore_eq hs hlt]
    cases hterminal : isConnectionTerminalStatus status with
    | true =>
      rw [if_pos rfl]
      exact .inl ⟨_, rfl, rfl⟩
    | false =>
      rw [if_neg Bool.false_ne_true]
      exact .inr ⟨status, left, ⟨hawaits, hreads, hs, hterminal⟩, rfl⟩
  rcases hin : t.incoming with - | ⟨chunk, rest⟩
  · cases hs : ntSuccess t.ending with
    | true =>
      unfold readMore
      rw [if_neg (not_le.2 hlt)]
      simp only [receiveRaw, hin, hs, not_true_eq_false, if_false, if_true]
      exact .inr (.inr (.inl ⟨_, rfl, rfl⟩))
    | false => exact .inr (.inr (hnothing (.ending hin) hs))
  by_cases hrefused : c.http2 = true ∧ ¬ ntSuccess (call.dataFrameStatus data t chunk rest) = true
  · exact .inr (.inr (hnothing (.refused hrefused.1 hin) (by simpa using hrefused.2)))
  have hstatus : c.http2 = true → ntSuccess (call.dataFrameStatus data t chunk rest) = true :=
    fun h => not_not.1 fun hno => hrefused ⟨h, hno⟩
  unfold ReceiveCall.dataFrameStatus at hrefused
  unfold readMore
  rw [if_neg (not_le.2 hlt)]
  simp only [receiveRaw, hin, if_neg hrefused, ntSuccess_success, not_true_eq_false, if_false]
  by_cases hchunk : chunk = []
  · subst hchunk
    rw [List.take_nil, if_pos rfl]
    exact .inr (.inr (.inl ⟨_, rfl, rfl⟩))
  have htake : ¬ chunk.take (call.receiveFrameCapacity - data.length) = [] := by
    rw [← List.length_eq_zero_iff, List.length_take]
    have := List.length_pos_iff.2 hchunk
    omega
  rw [if_neg htake]
  generalize hleft : (if chunk.length ≤ call.receiveFrameCapacity - data.length then rest
    else chunk.drop (call.receiveFrameCapacity - data.length) :: rest) = left
  by_cases hopen : c.http2 = true ∧ t.endStream = true ∧ left = []
  · rw [if_pos hopen]
    refine .inr (.inl ⟨_, _, _, ?_, ?_, rfl⟩)
    · rfl
    · rw [Transport.pending, hopen.2.2, Transport.pending, hin, List.flatten_nil, List.flatten_cons,
        List.length_append]
      have := List.length_pos_iff.2 hchunk
      simp only [List.length_nil]
      omega
  · rw [if_neg hopen]
    exact .inl ⟨_, _, .read hawaits hin hchunk hstatus hleft.symm hopen, rfl⟩

/-- A read takes octets from the transport into the buffer. -/
theorem ReadStep.octets (h : ReadStep call c s s')
    (hcap : max call.outputCapacity 125 + 14 ≤ call.receiveFrameCapacity) :
    s'.1 ++ s'.2.incoming.flatten = s.1 ++ s.2.incoming.flatten ∧ s.1.length < s'.1.length ∧
      s'.2.pending < s.2.pending ∧ s'.2.sender = s.2.sender := by
  cases h with
  | @read data chunk t rest left hawaits hin hchunk hstatus hleft hopen =>
    have hlt := hawaits.length_lt hcap
    have hpos := List.length_pos_iff.2 hchunk
    have hflat : chunk ++ rest.flatten =
        chunk.take (call.receiveFrameCapacity - data.length) ++ left.flatten := by
      rw [hleft]
      split_ifs with hle
      · rw [List.take_of_length_le hle]
      · rw [List.flatten_cons, ← List.append_assoc, List.take_append_drop]
    have hlength := congrArg List.length hflat
    simp only [List.length_append, List.length_take] at hlength
    refine ⟨?_, ?_, ?_, rfl⟩
    · simp only [hin, List.flatten_cons, hflat, List.append_assoc]
    · simp only [List.length_append, List.length_take]
      omega
    · simp only [Transport.pending, hin, List.flatten_cons, List.length_append]
      omega

/-- Reads take octets from the transport into the buffer. -/
theorem reads_octets (h : ReflTransGen (ReadStep call c) s s')
    (hcap : max call.outputCapacity 125 + 14 ≤ call.receiveFrameCapacity) :
    s'.1 ++ s'.2.incoming.flatten = s.1 ++ s.2.incoming.flatten ∧ s.1.length ≤ s'.1.length ∧
      (s.1.length = s'.1.length → s'.1 = s.1) ∧ s'.2.sender = s.2.sender := by
  induction h with
  | refl => exact ⟨rfl, le_rfl, fun _ => rfl, rfl⟩
  | @tail s₁ s₂ _ hstep ih =>
    obtain ⟨hoctets, hlt, -, hsender⟩ := hstep.octets hcap
    exact ⟨hoctets.trans ih.1, (ih.2.1.trans_lt hlt).le,
      fun heq => absurd (ih.2.1.trans_lt hlt) (by omega), hsender.trans ih.2.2.2⟩

/-- The loop that fills the buffer, with `n` turns. -/
def fillRun (call : ReceiveCall) (n : ℕ) (s : Bytes × WebSocketClient × Transport) : Filled :=
  Loop.run (fillTurn call.receiveFrameCapacity call.outputCapacity call.frameBufferLength)
    (fun s => .inl ({ status := statusInvalidDeviceState }, s.2)) n s

/-- What the loop ends with: the connection is closed, the stream breaks off behind some reads, or
a frame has come with some. -/
inductive FillEnds (call : ReceiveCall) (c : WebSocketClient) (data : Bytes) (t : Transport) :
    Filled → Prop
  | closed {outcome : Outcome} (h : outcome.2.1.connected = false) :
      FillEnds call c data t (.inl outcome)
  | closedFrame {header : WebSocketFrameHeader} {data' : Bytes} {c' : WebSocketClient}
      {t' : Transport} (h : c'.connected = false) :
      FillEnds call c data t (.inr (header, data', c', t'))
  | breaks {data' : Bytes} {t' : Transport} {status : NTSTATUS} {left : List Bytes}
      (hreads : ReflTransGen (ReadStep call c) (data, t) (data', t'))
      (h : Breaks call c data' t' status left) :
      FillEnds call c data t (.inl ({ status }, c, { t' with incoming := left }))
  | frame {header : WebSocketFrameHeader} {data' rest : Bytes} {t' : Transport}
      (hreads : ReflTransGen (ReadStep call c) (data, t) (data', t'))
      (h : Arrived call c data' header rest) :
      FillEnds call c data t (.inr (header, data', c, t'))

/-- On a connection that is closed, the loop ends with one. -/
theorem fillRun_closed (hcap : max call.outputCapacity 125 + 14 ≤ call.receiveFrameCapacity) :
    ∀ (n : ℕ) (data : Bytes) {c : WebSocketClient} (t : Transport), c.connected = false →
      (∃ outcome : Outcome, outcome.2.1.connected = false ∧
        fillRun call n (data, c, t) = .inl outcome) ∨
      ∃ header data' c' t', c'.connected = false ∧
        fillRun call n (data, c, t) = .inr (header, data', c', t') := by
  intro n
  induction n with
  | zero => exact fun _ _ _ h => .inl ⟨_, h, rfl⟩
  | succ n ih =>
    intro data c t h
    rcases fillTurn_cases call data c t with hawaits | ⟨header, rest, harrived⟩ |
      ⟨outcome, hclosed, hturn⟩
    · have hturn := fillTurn_awaits hawaits t
      rcases readMore_cases (t := t) hawaits hcap with ⟨data', t', -, hread⟩ |
        ⟨data', c', t', hclosed, -, hread⟩ | ⟨outcome, hclosed, hread⟩ | ⟨status, left, -, hread⟩
      · rw [fillRun, Loop.run_again (hturn.trans hread)]
        exact ih data' t' h
      · rw [fillRun, Loop.run_again (hturn.trans hread)]
        exact ih data' t' hclosed
      · rw [fillRun, Loop.run_done (hturn.trans hread)]
        exact .inl ⟨_, hclosed, rfl⟩
      · rw [fillRun, Loop.run_done (hturn.trans hread)]
        exact .inl ⟨_, h, rfl⟩
    · rw [fillRun, Loop.run_done (fillTurn_arrived harrived t)]
      exact .inr ⟨_, _, _, _, h, rfl⟩
    · rw [fillRun, Loop.run_done hturn]
      exact .inl ⟨_, hclosed, rfl⟩

theorem fillRun_ends (hcap : max call.outputCapacity 125 + 14 ≤ call.receiveFrameCapacity) :
    ∀ {n : ℕ} (data : Bytes) {t : Transport}, t.pending < n →
      FillEnds call c data t (fillRun call n (data, c, t)) := by
  intro n
  induction n with
  | zero => exact fun _ _ h => absurd h (Nat.not_lt_zero _)
  | succ n ih =>
    intro data t hn
    rcases fillTurn_cases call data c t with hawaits | ⟨header, rest, harrived⟩ |
      ⟨outcome, hclosed, hturn⟩
    · have hturn := fillTurn_awaits hawaits t
      rcases readMore_cases (t := t) hawaits hcap with ⟨data', t', hstep, hread⟩ |
        ⟨data', c', t', hclosed, -, hread⟩ | ⟨outcome, hclosed, hread⟩ |
        ⟨status, left, hbreaks, hread⟩
      · rw [fillRun, Loop.run_again (hturn.trans hread)]
        obtain ⟨-, -, hlt, -⟩ := hstep.octets hcap
        have hends := ih data' (lt_of_lt_of_le hlt (Nat.le_of_lt_succ hn))
        change FillEnds call c data t (fillRun call n (data', c, t'))
        revert hends
        generalize fillRun call n (data', c, t') = filled
        rintro (hc | hc | ⟨hreads, hb⟩ | ⟨hreads, ha⟩)
        · exact .closed hc
        · exact .closedFrame hc
        · exact .breaks (hreads.head hstep) hb
        · exact .frame (hreads.head hstep) ha
      · rw [fillRun, Loop.run_again (hturn.trans hread)]
        rcases fillRun_closed hcap n data' t' hclosed with
          ⟨outcome, h, hrun⟩ | ⟨header, data'', c'', t'', h, hrun⟩
        · change FillEnds call c data t (fillRun call n (data', c', t'))
          rw [hrun]
          exact .closed h
        · change FillEnds call c data t (fillRun call n (data', c', t'))
          rw [hrun]
          exact .closedFrame h
      · rw [fillRun, Loop.run_done (hturn.trans hread)]
        exact .closed hclosed
      · rw [fillRun, Loop.run_done (hturn.trans hread)]
        exact .breaks .refl hbreaks
    · rw [fillRun, Loop.run_done (fillTurn_arrived harrived t)]
      exact .frame .refl harrived
    · rw [fillRun, Loop.run_done hturn]
      exact .closed hclosed

theorem ReadStep.turn (h : ReadStep call c s s')
    (hcap : max call.outputCapacity 125 + 14 ≤ call.receiveFrameCapacity) :
    fillTurn call.receiveFrameCapacity call.outputCapacity call.frameBufferLength
      (s.1, c, s.2) = .again (s'.1, c, s'.2) := by
  cases h with
  | @read data chunk t rest left hawaits hin hchunk hstatus hleft hopen =>
    have hlt := hawaits.length_lt hcap
    have hpos := List.length_pos_iff.2 hchunk
    have htake : ¬ chunk.take (call.receiveFrameCapacity - data.length) = [] := by
      rw [← List.length_eq_zero_iff, List.length_take]
      omega
    have hgiven : ¬ (c.http2 = true ∧ ¬ ntSuccess (dataFrameStatus
        (call.receiveFrameCapacity - data.length) t chunk rest.length) = true) :=
      fun h => h.2 (hstatus h.1)
    rw [fillTurn_awaits hawaits, readMore, if_neg (not_le.2 hlt)]
    simp only [receiveRaw, hin, ← hleft, if_neg hgiven, if_neg hopen, ntSuccess_success,
      not_true_eq_false, if_false, if_neg htake]

theorem fillRun_reads (h : ReflTransGen (ReadStep call c) s s')
    (hcap : max call.outputCapacity 125 + 14 ≤ call.receiveFrameCapacity) (hn : s.2.pending < n) :
    ∃ m, fillRun call n (s.1, c, s.2) = fillRun call (m + 1) (s'.1, c, s'.2) := by
  induction h using ReflTransGen.head_induction_on generalizing n with
  | refl => exact ⟨n - 1, by rw [Nat.sub_add_cancel (by omega)]⟩
  | @head s s₁ hstep _ ih =>
    obtain ⟨n, rfl⟩ := Nat.exists_eq_add_of_le' (show 1 ≤ n by omega)
    obtain ⟨-, -, hlt, -⟩ := hstep.octets hcap
    obtain ⟨m, hm⟩ := ih (n := n) (by omega)
    refine ⟨m, ?_⟩
    rw [← hm]
    exact Loop.run_again (hstep.turn hcap)

theorem fillRun_breaks {status : NTSTATUS} {left : List Bytes}
    (h : Breaks call c data t status left)
    (hcap : max call.outputCapacity 125 + 14 ≤ call.receiveFrameCapacity) :
    fillRun call (n + 1) (data, c, t) = .inl ({ status }, c, { t with incoming := left }) := by
  obtain ⟨hawaits, hreads, hfails, hterminal⟩ := h
  refine Loop.run_done ((fillTurn_awaits hawaits t).trans ?_)
  rw [hreads.readMore_eq hfails (hawaits.length_lt hcap), if_neg]
  rw [hterminal]
  exact Bool.false_ne_true

/-- A break loses octets exactly where some were read or a DATA frame goes with it. -/
theorem Breaks.loses {status : NTSTATUS} {left : List Bytes} {data' : Bytes} {t' : Transport}
    (h : Breaks call c data' t' status left)
    (hreads : ReflTransGen (ReadStep call c) (data, t) (data', t'))
    (hcap : max call.outputCapacity 125 + 14 ≤ call.receiveFrameCapacity) :
    if data' ≠ data ∨ left.flatten ≠ t'.incoming.flatten then
      (data ++ left.flatten).length < (data ++ t.incoming.flatten).length
    else data ++ left.flatten = data ++ t.incoming.flatten := by
  obtain ⟨hoctets, hle, hsame, -⟩ := reads_octets hreads hcap
  obtain ⟨chunk, hchunk⟩ := h.2.1.suffix
  simp only at hoctets hle hsame
  split_ifs with hlost
  · rw [← hoctets, hchunk, List.length_append, List.length_append, List.length_append]
    rcases hlost with hne | hne
    · have := lt_of_le_of_ne hle fun heq => hne (hsame heq)
      omega
    · have : chunk ≠ [] := fun hnil => hne (by rw [hchunk, hnil, List.nil_append])
      have := List.length_pos_iff.2 this
      omega
  · rw [not_or, not_not, not_not] at hlost
    rw [← hoctets, hlost.1, hlost.2]

end Reading

/-! ## One frame -/

section Frame

variable {call : ReceiveCall} {c : WebSocketClient} {data rest : Bytes}
  {header : WebSocketFrameHeader}

/-- Where the frame is in the buffer. -/
theorem Arrived.frame (h : Arrived call c data header rest) :
    framePayload header data = rest.take header.payloadLength ∧
      frameRemaining header data = rest.drop header.payloadLength ∧
      header.headerLength + header.payloadLength ≤ data.length ∧ 2 ≤ header.headerLength := by
  obtain ⟨head, hdata, htwo, -⟩ := readHeader_header h.read
  have hhead : header.headerLength = head.length := by
    rw [h.length, hdata, List.length_append, Nat.add_sub_cancel]
  refine ⟨?_, ?_, ?_, hhead ▸ htwo⟩
  · rw [framePayload, hhead, hdata, List.drop_left]
  · rw [frameRemaining, ← List.drop_drop, hhead, hdata, List.drop_left]
  · rw [hhead, hdata, List.length_append]
    exact Nat.add_le_add_left h.whole _

/-- It is taken off the stream. -/
theorem Arrived.readFrame (h : Arrived call c data header rest) (more : Bytes) :
    readFrame (data ++ more) =
      some (⟨header.fin, header.opcode, rest.take header.payloadLength⟩,
        frameRemaining header data ++ more) := by
  have hread := (readHeader_append more).2 _ _ _ _ h.read
  have hwhole : header.payloadLength ≤ (rest ++ more).length :=
    h.whole.trans (by rw [List.length_append]; exact Nat.le_add_right _ _)
  rw [readFrame_readHeader hread hwhole, List.take_append_of_le_length h.whole,
    List.drop_append_of_le_length h.whole, h.frame.2.1]

/-- The payload is given out where there is room for it. -/
theorem Arrived.decodeFramePayload (h : Arrived call c data header rest) (capacity : ℕ) :
    decodeFramePayload header data capacity =
      if capacity < header.payloadLength then .error (statusBufferTooSmall, header.payloadLength)
      else .ok (rest.take header.payloadLength) := by
  obtain ⟨hpayload, -, hle, -⟩ := h.frame
  obtain ⟨hn, -⟩ := readHeader_bounds h.read
  rw [WebSocket.decodeFramePayload, if_neg (by rw [maxSizeT]; omega), if_neg (by omega), ← hpayload]
  rfl

/-- How a frame is handled on an open connection. -/
inductive Handles (call : ReceiveCall) (c : WebSocketClient) (t : Transport) (count : ℕ)
    (opcode : WebSocketOpcode) (payload remaining : Bytes) :
    Loop.Turn ReceiveState Outcome → Prop
  | consumed {count' : ℕ} {c' : WebSocketClient} {t' : Transport}
      (hbuffer : c'.bufferedFrame = remaining) (hin : t'.incoming = t.incoming)
      (h : ¬ Refuses call c count t opcode payload) :
      Handles call c t count opcode payload remaining (.again (count', c', t'))
  | ends {outcome : Outcome}
      (hends : ntSuccess outcome.1.status = true ∨ outcome.2.1.connected = false)
      (h : ¬ Refuses call c count t opcode payload) :
      Handles call c t count opcode payload remaining (.done outcome)
  | refused {outcome : Outcome} (hfails : ntSuccess outcome.1.status = false)
      (hopen : outcome.2.1.connected = true) (hbuffer : outcome.2.1.bufferedFrame = c.bufferedFrame)
      (hin : outcome.2.2.incoming = t.incoming) (h : Refuses call c count t opcode payload) :
      Handles call c t count opcode payload remaining (.done outcome)

variable {payload remaining : Bytes} {status : NTSTATUS} {t : Transport} {count : ℕ}

theorem failFrame_handles {statusCode : ℕ} {opcode : WebSocketOpcode}
    (h : ¬ Refuses call c count t opcode payload) (c' : WebSocketClient) (t' : Transport) :
    Handles call c t count opcode payload remaining
      (failFrame statusCode call.frameBufferLength c' t') :=
  .ends (.inr rfl) h

/-- A Ping or a Pong that the caller gets. -/
theorem passControlFrame_handles (h : Arrived call c data header rest)
    (hconnected : c.connected = true)
    (hrefuses : Refuses call c count t header.opcode (rest.take header.payloadLength) ↔
      c.receiveFragmentOpen = false ∧ call.outputCapacity < header.payloadLength) :
    Handles call c t count header.opcode (rest.take header.payloadLength)
      (frameRemaining header data) (passControlFrame call.outputCapacity header data c t) := by
  rw [passControlFrame]
  cases hopen : c.receiveFragmentOpen with
  | true =>
    rw [if_pos rfl]
    refine .ends (.inl rfl) fun hr => ?_
    rw [hrefuses, hopen] at hr
    cases hr.1
  | false =>
    rw [if_neg Bool.false_ne_true, h.decodeFramePayload]
    by_cases hroom : call.outputCapacity < header.payloadLength
    · rw [if_pos hroom]
      refine .refused rfl ?_ ?_ rfl (hrefuses.2 ⟨hopen, hroom⟩)
      · simp only
        split_ifs <;> exact hconnected
      · simp only
        split_ifs <;> rfl
    · rw [if_neg hroom]
      exact .ends (.inl rfl) fun hr => hroom (hrefuses.1 hr).2

theorem encodeAndSendFrame_eq (call : ReceiveCall) (opcode : WebSocketOpcode) (payload : Bytes)
    (c : WebSocketClient) (t : Transport) : ∃ frame,
    encodeAndSendFrame opcode payload call.frameBufferLength true c t =
      ((transmit c.http2 (t.answers t.attempts) opcode payload call.frameBufferLength true).1,
        afterSend c (transmit c.http2 (t.answers t.attempts) opcode payload call.frameBufferLength
          true).1, t.use frame) :=
  ⟨_, rfl⟩

/-- A sending that fails leaves the connection open exactly without a terminal status. -/
theorem afterSend_fails (h : ntSuccess status = false) :
    (isConnectionTerminalStatus status = true ∧ (afterSend c status).connected = false) ∨
      (isConnectionTerminalStatus status = false ∧ afterSend c status = c) := by
  rw [afterSend, h]
  cases ht : isConnectionTerminalStatus status with
  | true =>
    rw [if_pos ⟨Bool.false_ne_true, rfl⟩]
    refine .inl ⟨rfl, ?_⟩
    split_ifs <;> rfl
  | false => exact .inr ⟨rfl, if_neg fun h => Bool.false_ne_true h.2⟩

theorem afterSend_succeeds (h : ntSuccess status = true) :
    afterSend c status = c :=
  if_neg fun hf => hf.1 h

theorem Arrived.take_length (h : Arrived call c data header rest) :
    (rest.take header.payloadLength).length = header.payloadLength :=
  List.length_take_of_le h.whole

/-- A Ping or a Pong: the limit is reached, the caller gets it, or the client answers. -/
theorem controlFrame_handles {statusCode : ℕ} {fails : Prop}
    {answer : Loop.Turn ReceiveState Outcome} (h : Arrived call c data header rest)
    (hconnected : c.connected = true)
    (hrefuses : Refuses call c count t header.opcode (rest.take header.payloadLength) ↔
      count + 1 ≤ khWsMaxControlFramesPerReceive ∧ if call.autoReplyPing then fails
        else c.receiveFragmentOpen = false ∧ call.outputCapacity < header.payloadLength)
    (hanswer : (Refuses call c count t header.opcode (rest.take header.payloadLength) ↔ fails) →
      Handles call c t count header.opcode (rest.take header.payloadLength)
        (frameRemaining header data) answer) :
    Handles call c t count header.opcode (rest.take header.payloadLength)
      (frameRemaining header data)
      (if count + 1 > khWsMaxControlFramesPerReceive then
        failFrame statusCode call.frameBufferLength c t
      else if ¬ call.autoReplyPing then passControlFrame call.outputCapacity header data c t
      else answer) := by
  by_cases hcount : count + 1 > khWsMaxControlFramesPerReceive
  · rw [if_pos hcount]
    exact failFrame_handles (fun hr => absurd (hrefuses.1 hr).1 (not_le.2 hcount)) _ _
  rw [if_neg hcount]
  rw [and_iff_right (not_lt.1 hcount)] at hrefuses
  cases hauto : call.autoReplyPing with
  | false =>
    rw [if_pos Bool.false_ne_true]
    rw [hauto, if_neg Bool.false_ne_true] at hrefuses
    exact passControlFrame_handles h hconnected hrefuses
  | true =>
    rw [if_neg (not_not.2 rfl)]
    rw [hauto, if_pos rfl] at hrefuses
    exact hanswer hrefuses

theorem ping_handles (h : Arrived call c data header rest)
    (hop : header.opcode = .ping) (hconnected : c.connected = true) :
    Handles call c t count header.opcode (rest.take header.payloadLength)
      (frameRemaining header data)
      (handleFrame call.outputCapacity call.frameBufferLength call.autoReplyPing header data count
        c t) := by
  have hrefuses : Refuses call c count t header.opcode (rest.take header.payloadLength) ↔
      count + 1 ≤ khWsMaxControlFramesPerReceive ∧
        if call.autoReplyPing then SendFails call c t .pong (rest.take header.payloadLength)
        else c.receiveFragmentOpen = false ∧ call.outputCapacity < header.payloadLength := by
    simp only [hop, Refuses, h.take_length]
  rw [handleFrame, if_neg (by rw [h.masked]; exact Bool.false_ne_true)]
  simp only [hop]
  rw [← hop]
  refine controlFrame_handles h hconnected hrefuses fun hrefuses => ?_
  rw [h.frame.1]
  obtain ⟨frame, hsend⟩ := encodeAndSendFrame_eq call .pong
    (rest.take header.payloadLength) c t
  rw [hsend]
  generalize hstatus : (transmit c.http2 (t.answers t.attempts) .pong
    (rest.take header.payloadLength) call.frameBufferLength true).1 = status at hsend
  have hfails : SendFails call c t .pong (rest.take header.payloadLength) ↔
      ntSuccess status = false ∧ isConnectionTerminalStatus status = false := by
    rw [SendFails, hstatus]
  simp only
  cases hs : ntSuccess status with
  | true =>
    rw [if_neg (not_not.2 rfl), afterSend_succeeds hs]
    refine .consumed rfl rfl fun hr => ?_
    rw [hrefuses, hfails, hs] at hr
    cases hr.1
  | false =>
    rw [if_pos Bool.false_ne_true]
    rcases afterSend_fails (c := c) hs with ⟨hterminal, hclosed⟩ | ⟨hterminal, hsame⟩
    · refine .ends (.inr hclosed) fun hr => ?_
      rw [hrefuses, hfails, hterminal] at hr
      cases hr.2
    · rw [hsame]
      exact .refused hs hconnected rfl rfl (hrefuses.2 (hfails.2 ⟨hs, hterminal⟩))

theorem pong_handles (h : Arrived call c data header rest)
    (hop : header.opcode = .pong) (hconnected : c.connected = true) :
    Handles call c t count header.opcode (rest.take header.payloadLength)
      (frameRemaining header data)
      (handleFrame call.outputCapacity call.frameBufferLength call.autoReplyPing header data count
        c t) := by
  have hrefuses : Refuses call c count t header.opcode (rest.take header.payloadLength) ↔
      count + 1 ≤ khWsMaxControlFramesPerReceive ∧ if call.autoReplyPing then False
        else c.receiveFragmentOpen = false ∧ call.outputCapacity < header.payloadLength := by
    simp only [hop, Refuses, h.take_length]
    cases call.autoReplyPing <;> simp
  rw [handleFrame, if_neg (by rw [h.masked]; exact Bool.false_ne_true)]
  simp only [hop]
  rw [← hop]
  exact controlFrame_handles h hconnected hrefuses fun hrefuses => .consumed rfl rfl hrefuses.1

theorem handleClose_handles
    (hbuffer : call.frameBufferLength ≠ 0) (hconnected : c.connected = true) :
    Handles call c t count .close payload remaining
      (handleClose call.outputCapacity call.frameBufferLength payload remaining c t) := by
  have hrefuses : Refuses call c count t .close payload ↔
      AnswersClose payload ∧ c.closeSent = false ∧ SendFails call c t .close payload := Iff.rfl
  rw [handleClose]
  by_cases hone : payload.length = 1
  · rw [if_pos hone]
    exact failFrame_handles (fun hr => (hrefuses.1 hr).1.1 hone) _ _
  rw [if_neg hone]
  by_cases hbody : 2 ≤ payload.length ∧
      (¬ isValidCloseStatus (BigEndian.ofBigEndian (payload.take 2)) = true ∨
        ¬ isValidUtf8 (payload.drop 2) = true)
  · rw [if_pos hbody]
    refine failFrame_handles (fun hr => ?_) _ _
    obtain ⟨hstatus, htext⟩ := (hrefuses.1 hr).1.2 hbody.1
    exact hbody.2.elim (fun h => h hstatus) (fun h => h htext)
  rw [if_neg hbody]
  have hanswers : AnswersClose payload := by
    refine ⟨hone, fun htwo => ?_⟩
    rw [not_and, not_or, not_not, not_not] at hbody
    exact hbody htwo
  extract_lets _ c₁
  have hc₁ : c₁.connected = true := hconnected
  cases hsent : c.closeSent with
  | true =>
    have hsent₁ : c₁.closeSent = true := hsent
    simp only [hsent₁, not_true_eq_false, if_false, ntSuccess_success]
    have hno : ¬ Refuses call c count t .close payload := by
      rintro ⟨-, hr, -⟩
      rw [hsent] at hr
      cases hr
    split_ifs
    · exact .ends (.inr rfl) hno
    · exact .ends (.inl rfl) hno
  | false =>
    have hsent₁ : c₁.closeSent = false := hsent
    have hopen : ¬ (¬ c₁.connected = true ∨ call.frameBufferLength = 0) := by
      rw [hc₁, not_or, not_not]
      exact ⟨rfl, hbuffer⟩
    obtain ⟨frame, hsend⟩ := encodeAndSendFrame_eq call .close payload c₁ t
    have hhttp2 : c₁.http2 = c.http2 := rfl
    rw [hhttp2] at hsend
    generalize hstatus : (transmit c.http2 (t.answers t.attempts) .close payload
      call.frameBufferLength true).1 = status at hsend
    have hfails : SendFails call c t .close payload ↔
        ntSuccess status = false ∧ isConnectionTerminalStatus status = false := by
      rw [SendFails, hstatus]
    simp only [hsent₁, Bool.false_eq_true, not_false_eq_true, if_true, sendCloseFrame,
      if_neg hopen, if_false, hsend]
    cases hs : ntSuccess status with
    | true =>
      have hno : ¬ Refuses call c count t .close payload := by
        rintro ⟨-, -, hr⟩
        rw [hfails, hs] at hr
        cases hr.1
      simp only [not_true_eq_false, if_false, if_true]
      split_ifs
      · exact .ends (.inr rfl) hno
      · exact .ends (.inl rfl) hno
    | false =>
      simp only [Bool.false_eq_true, not_false_eq_true, if_true, if_false]
      rcases afterSend_fails (c := c₁) hs with ⟨hterminal, hclosed⟩ | ⟨hterminal, hsame⟩
      · refine .ends (.inr hclosed) fun hr => ?_
        have := hr.2.2
        rw [hfails, hterminal] at this
        cases this.2
      · rw [hsame]
        exact .refused hs hc₁ rfl rfl ⟨hanswers, hsent, hfails.2 ⟨hs, hterminal⟩⟩

theorem handleData_handles (h : Arrived call c data header rest)
    (hop : ofMessage header.opcode = true) :
    Handles call c t count header.opcode payload (frameRemaining header data)
      (handleData call.outputCapacity call.frameBufferLength header data count c t) := by
  have hno : ¬ Refuses call c count t header.opcode payload := by
    intro hr
    cases hcase : header.opcode with
    | continuation => rw [hcase] at hr; exact hr
    | text => rw [hcase] at hr; exact hr
    | binary => rw [hcase] at hr; exact hr
    | close => rw [hcase] at hop; cases hop
    | ping => rw [hcase] at hop; cases hop
    | pong => rw [hcase] at hop; cases hop
  have hfits : messageTooBig header.payloadLength call.outputCapacity c = false := by
    have := h.fits
    rwa [hop, Bool.true_and] at this
  have hroom : ¬ call.outputCapacity - c.receiveFragment.length < header.payloadLength := by
    rw [messageTooBig, Bool.or_eq_false_iff] at hfits
    simpa using of_decide_eq_false hfits.2
  rw [handleData, h.order, if_neg Bool.false_ne_true, hfits, if_neg Bool.false_ne_true,
    h.decodeFramePayload, if_neg hroom]
  simp only
  generalize (if c.receiveFragmentOpen = true then c.receiveFragmentOpcode else header.opcode) =
    kind
  split
  · exact .consumed rfl rfl hno
  split
  · exact failFrame_handles hno _ _
  · exact .ends (.inl rfl) hno

theorem handleFrame_handles (h : Arrived call c data header rest) (t : Transport) (count : ℕ)
    (hbuffer : call.frameBufferLength ≠ 0) (hconnected : c.connected = true) :
    Handles call c t count header.opcode (rest.take header.payloadLength)
      (frameRemaining header data)
      (handleFrame call.outputCapacity call.frameBufferLength call.autoReplyPing header data count
        c t) := by
  have hdata : ofMessage header.opcode = true →
      handleFrame call.outputCapacity call.frameBufferLength call.autoReplyPing header data count
        c t = handleData call.outputCapacity call.frameBufferLength header data count c t →
      Handles call c t count header.opcode (rest.take header.payloadLength)
        (frameRemaining header data)
        (handleFrame call.outputCapacity call.frameBufferLength call.autoReplyPing header data count
          c t) := by
    intro hop heq
    rw [heq]
    exact handleData_handles h hop
  have hmask : ¬ header.masked = true := by rw [h.masked]; exact Bool.false_ne_true
  cases hop : header.opcode with
  | ping => rw [← hop]; exact ping_handles h hop hconnected
  | pong => rw [← hop]; exact pong_handles h hop hconnected
  | close =>
    rw [handleFrame, if_neg hmask]
    simp only [hop]
    rw [h.frame.1]
    exact handleClose_handles hbuffer hconnected
  | continuation =>
    rw [← hop]
    refine hdata (by rw [hop]; rfl) ?_
    rw [handleFrame, if_neg hmask]
    simp only [hop]
  | text =>
    rw [← hop]
    refine hdata (by rw [hop]; rfl) ?_
    rw [handleFrame, if_neg hmask]
    simp only [hop]
  | binary =>
    rw [← hop]
    refine hdata (by rw [hop]; rfl) ?_
    rw [handleFrame, if_neg hmask]
    simp only [hop]

end Frame

/-! ## One turn -/

section Turn

variable {call : ReceiveCall} {count : ℕ} {c : WebSocketClient} {t : Transport}

def ReceiveCall.turn (call : ReceiveCall) : ReceiveState → Loop.Turn ReceiveState Outcome :=
  receiveTurn call.receiveFrameCapacity call.outputCapacity call.frameBufferLength
    call.autoReplyPing

/-- The arguments are those of a call that comes to its loop. -/
structure ReceiveCall.Admitted (call : ReceiveCall) : Prop where
  frameBufferLength : call.frameBufferLength ≠ 0
  capacity : max call.outputCapacity 125 + 14 ≤ call.receiveFrameCapacity

def ClosedTurn : Loop.Turn ReceiveState Outcome → Prop
  | .done outcome => outcome.2.1.connected = false
  | .again s => s.2.1.connected = false

/-- What a turn on an open connection does to the octets: it consumes a frame; it ends the call or
the connection; it fails and leaves the octets as they were; or it fails and loses what it has
read. -/
inductive TurnEnds (call : ReceiveCall) (s : ReceiveState) : Loop.Turn ReceiveState Outcome → Prop
  | closed {turn : Loop.Turn ReceiveState Outcome} (hclosed : ClosedTurn turn)
      (h : ¬ Strands call s) : TurnEnds call s turn
  | consumed {s' : ReceiveState} {frame : Frame}
      (hframe : readFrame (unread s.2.1 s.2.2) = some (frame, unread s'.2.1 s'.2.2))
      (hlength : (unread s'.2.1 s'.2.2).length < (unread s.2.1 s.2.2).length)
      (h : ¬ Strands call s) : TurnEnds call s (.again s')
  | ends {outcome : Outcome} (hends : ntSuccess outcome.1.status = true)
      (h : ¬ Strands call s) : TurnEnds call s (.done outcome)
  | kept {outcome : Outcome}
      (hkept : unread outcome.2.1 outcome.2.2 = unread s.2.1 s.2.2)
      (h : ¬ Strands call s) : TurnEnds call s (.done outcome)
  | lost {outcome : Outcome} (hfails : ntSuccess outcome.1.status = false)
      (hopen : outcome.2.1.connected = true)
      (hlost : (unread outcome.2.1 outcome.2.2).length < (unread s.2.1 s.2.2).length)
      (h : Strands call s) : TurnEnds call s (.done outcome)

theorem turn_eq (call : ReceiveCall) (count : ℕ) (c : WebSocketClient) (t : Transport) :
    call.turn (count, c, t) =
      match fillRun call (t.pending + 1) (c.bufferedFrame, c, t) with
      | .inl outcome => .done outcome
      | .inr (header, data, c, t) =>
        handleFrame call.outputCapacity call.frameBufferLength call.autoReplyPing header data count
          c t := rfl

theorem afterSend_closed {c : WebSocketClient} (h : c.connected = false) (status : NTSTATUS) :
    (afterSend c status).connected = false := by
  rw [afterSend]
  split_ifs
  · rfl
  · rfl
  · exact h

/-- Nothing opens a connection again. -/
theorem handleFrame_closed {c : WebSocketClient} (h : c.connected = false)
    (header : WebSocketFrameHeader) (data : Bytes) (count : ℕ) (t : Transport) :
    ClosedTurn (handleFrame call.outputCapacity call.frameBufferLength call.autoReplyPing header
      data count c t) := by
  have hpass : ClosedTurn (passControlFrame call.outputCapacity header data c t) := by
    rw [passControlFrame]
    split
    · exact h
    split
    · show (if header.opcode = .ping then resetReceiveFragment c else c).connected = false
      split_ifs <;> exact h
    · exact h
  have hclose : ∀ payload remaining, ClosedTurn
      (handleClose call.outputCapacity call.frameBufferLength payload remaining c t) := by
    intro payload remaining
    rw [handleClose]
    split
    · rfl
    split
    · rfl
    extract_lets _ c₁
    have hc₁ : c₁.connected = false := h
    have hsend : ∀ status c' t', (if ¬ c₁.closeSent = true then
        sendCloseFrame payload call.frameBufferLength c₁ t else (statusSuccess, c₁, t)) =
          (status, c', t') → c'.connected = false := by
      intro status c' t' heq
      have hclose : sendCloseFrame payload call.frameBufferLength c₁ t =
          (statusInvalidParameter, c₁, t) :=
        if_pos (.inl (by rw [hc₁]; exact Bool.false_ne_true))
      rw [hclose] at heq
      split_ifs at heq <;> · cases heq; exact hc₁
    split
    rename_i status c' t' heq
    have hc' := hsend status c' t' heq
    split
    · exact hc'
    simp only
    split <;> rfl
  have hdata : ClosedTurn
      (handleData call.outputCapacity call.frameBufferLength header data count c t) := by
    rw [handleData]
    split
    · rfl
    split
    · rfl
    split
    · exact h
    simp only
    generalize (if c.receiveFragmentOpen = true then c.receiveFragmentOpcode else header.opcode) =
      kind
    split
    · exact h
    split
    · rfl
    · exact h
  rw [handleFrame]
  split
  · rfl
  split
  · split
    · rfl
    split
    · exact hpass
    obtain ⟨frame, hsend⟩ := encodeAndSendFrame_eq call .pong
      (framePayload header data) c t
    rw [hsend]
    simp only
    split
    · exact afterSend_closed h _
    · exact afterSend_closed h _
  · split
    · rfl
    split
    · exact hpass
    · exact h
  · exact hclose _ _
  · exact hdata

theorem fillFrame_strands (h : Strands call (count, c, t)) (hcall : call.Admitted) :
    c.connected = true ∧ ∃ data t',
      ReflTransGen (ReadStep call c) (c.bufferedFrame, t) (data, t') ∧
      ((∃ status left, (c.bufferedFrame ++ left.flatten).length < (unread c t).length ∧
          fillRun call (t.pending + 1) (c.bufferedFrame, c, t) =
            .inl ({ status }, c, { t' with incoming := left })) ∨
        ∃ header rest, data ≠ c.bufferedFrame ∧ Arrived call c data header rest ∧
          Refuses call c count t' header.opcode (rest.take header.payloadLength) ∧
          fillRun call (t.pending + 1) (c.bufferedFrame, c, t) = .inr (header, data, c, t')) := by
  obtain ⟨hconnected, data, t', hreads, hends⟩ := h
  obtain ⟨m, hrun⟩ := fillRun_reads hreads hcall.capacity (Nat.lt_succ_self t.pending)
  refine ⟨hconnected, data, t', hreads, ?_⟩
  rcases hends with ⟨status, left, hbreaks, hlost⟩ | ⟨hne, header, rest, harrived, hrefuses⟩
  · have hloses := hbreaks.loses hreads hcall.capacity
    rw [if_pos hlost] at hloses
    exact .inl ⟨status, left, hloses, hrun.trans (fillRun_breaks hbreaks hcall.capacity)⟩
  · exact .inr ⟨header, rest, hne, harrived, hrefuses,
      hrun.trans (Loop.run_done (fillTurn_arrived harrived t'))⟩

theorem turn_closed (hcall : call.Admitted) (count : ℕ) (t : Transport)
    (hclosed : c.connected = false) : ClosedTurn (call.turn (count, c, t)) := by
  rw [turn_eq]
  rcases fillRun_closed hcall.capacity (t.pending + 1) c.bufferedFrame t hclosed with
    ⟨outcome, h, hrun⟩ | ⟨header, data', c', t', h, hrun⟩
  · rw [hrun]
    exact h
  · rw [hrun]
    exact handleFrame_closed h header data' count t'

theorem turn_ends (hcall : call.Admitted) (count : ℕ) (t : Transport)
    (hconnected : c.connected = true) :
    TurnEnds call (count, c, t) (call.turn (count, c, t)) := by
  have hstrands := fun h : Strands call (count, c, t) => fillFrame_strands h hcall
  have hfill := fillRun_ends (c := c) hcall.capacity c.bufferedFrame
    (Nat.lt_succ_self t.pending)
  rw [turn_eq]
  generalize fillRun call (t.pending + 1) (c.bufferedFrame, c, t) = filled at hstrands hfill
  cases hfill with
  | closed hclosed =>
    refine .closed hclosed fun h => ?_
    obtain ⟨-, data, t', -, ⟨status, left, -, heq⟩ | ⟨header, rest, -, -, -, heq⟩⟩ := hstrands h
    · rw [Sum.inl.inj heq, hconnected] at hclosed
      cases hclosed
    · cases heq
  | @closedFrame header data' c' t' hclosed =>
    refine .closed (handleFrame_closed hclosed header data' count t') fun h => ?_
    obtain ⟨-, data, t', -, ⟨status, left, -, heq⟩ | ⟨header, rest, -, -, -, heq⟩⟩ := hstrands h
    · cases heq
    · cases heq
      rw [hconnected] at hclosed
      cases hclosed
  | @breaks data' t' status left hreads hbreaks =>
    have hloses := hbreaks.loses hreads hcall.capacity
    split_ifs at hloses with hlost
    · exact .lost hbreaks.2.2.1 hconnected hloses
        ⟨hconnected, data', t', hreads, .inl ⟨status, left, hbreaks, hlost⟩⟩
    · refine .kept hloses fun h => ?_
      obtain ⟨-, data, t'', -, ⟨status', left', hlt, heq⟩ | ⟨header, rest, -, -, -, heq⟩⟩ :=
        hstrands h
      · have hleft : left = left' :=
          congrArg (fun outcome : Outcome => outcome.2.2.incoming) (Sum.inl.inj heq)
        rw [← hleft, hloses] at hlt
        exact lt_irrefl _ hlt
      · cases heq
  | @frame header data' rest t' hreads harrived =>
    obtain ⟨hoctets, hle, hsame, -⟩ := reads_octets hreads hcall.capacity
    have hoctets : data' ++ t'.incoming.flatten = unread c t := hoctets
    have hno : (data' = c.bufferedFrame ∨
        ¬ Refuses call c count t' header.opcode (rest.take header.payloadLength)) →
        ¬ Strands call (count, c, t) := by
      intro hcase h
      obtain ⟨-, data, t'', -, ⟨status, left, -, heq⟩ |
        ⟨header', rest', hne', harrived', hr', heq⟩⟩ := hstrands h
      · cases heq
      · obtain ⟨rfl, rfl, rfl⟩ : header = header' ∧ data' = data ∧ t' = t'' := by simpa using heq
        rcases hcase with hsame' | hr
        · exact hne' hsame'
        · obtain ⟨-, -, -, rfl⟩ := StreamHead.header.inj (harrived.read.symm.trans harrived'.read)
          exact hr hr'
    have hhandles := handleFrame_handles harrived t' count hcall.frameBufferLength hconnected
    simp only
    revert hhandles
    generalize handleFrame call.outputCapacity call.frameBufferLength call.autoReplyPing header
      data' count c t' = turn
    rintro (⟨hbuffer, hin, hr⟩ | ⟨hends | hends, hr⟩ | ⟨hfails, hopen, hbuffer, hin, hr⟩)
    · refine @TurnEnds.consumed _ _ _ ⟨header.fin, header.opcode, rest.take header.payloadLength⟩
        ?_ ?_ (hno (.inr hr))
      · rw [← hoctets, harrived.readFrame, unread, hbuffer, hin]
      · obtain ⟨-, -, hwhole, htwo⟩ := harrived.frame
        simp only
        rw [← hoctets, unread, hbuffer, hin, frameRemaining, List.length_append,
          List.length_append, List.length_drop]
        omega
    · exact .ends hends (hno (.inr hr))
    · exact .closed hends (hno (.inr hr))
    · by_cases hne : data' = c.bufferedFrame
      · refine .kept ?_ (hno (.inl hne))
        rw [unread, hbuffer, hin, ← hne, hoctets]
      · refine .lost hfails hopen ?_
          ⟨hconnected, data', t', hreads, .inr ⟨hne, header, rest, harrived, hr⟩⟩
        have hlt : c.bufferedFrame.length < data'.length :=
          lt_of_le_of_ne hle fun h => hne (hsame h)
        simp only
        rw [← hoctets, unread, hbuffer, hin, List.length_append, List.length_append]
        exact Nat.add_lt_add_right hlt _

end Turn

/-! ## A call -/

/-- The first `n` frames off a stream. -/
def dropFrames : ℕ → Bytes → Option Bytes
  | 0, t => some t
  | n + 1, t => (readFrame t).bind fun p => dropFrames n p.2

def receiveCall (outputCapacity frameBufferLength : ℕ) (autoReplyPing : Bool)
    (c : WebSocketClient) : ReceiveCall :=
  { outputCapacity := outputCapacity, frameBufferLength := frameBufferLength
    autoReplyPing := autoReplyPing
    receiveFrameCapacity := max (max outputCapacity webSocketMaxControlPayloadLength +
      webSocketFrameHeaderMaxLength) c.bufferedFrame.length }

def EntersLoop (outputCapacity frameBufferLength : ℕ) (c : WebSocketClient) : Prop :=
  c.connected = true ∧ frameBufferLength ≠ 0 ∧ c.closeReceived = false ∧
    outputCapacity ≤ maxSizeT - webSocketFrameHeaderMaxLength

instance (outputCapacity frameBufferLength : ℕ) (c : WebSocketClient) :
    Decidable (EntersLoop outputCapacity frameBufferLength c) := inferInstanceAs (Decidable (_ ∧ _))

/-- The number of frames that a call consumes before its last turn. -/
def consumedFrames (outputCapacity frameBufferLength : ℕ) (autoReplyPing : Bool)
    (c : WebSocketClient) (t : Transport) : ℕ :=
  if EntersLoop outputCapacity frameBufferLength c then
    Loop.turns (receiveCall outputCapacity frameBufferLength autoReplyPing c).turn
      (c.bufferedFrame.length + t.pending + 1) (0, c, t)
  else 0

/-- A call that fails and leaves the connection open has in its buffer what it took from the
transport behind the frames that it consumed. -/
def KeepsInput (outputCapacity frameBufferLength : ℕ) (autoReplyPing : Bool)
    (c : WebSocketClient) (t : Transport) : Prop :=
  let (r, c', t') := receiveMessage outputCapacity frameBufferLength autoReplyPing c t
  ntSuccess r.status = false → c'.connected = true →
    dropFrames (consumedFrames outputCapacity frameBufferLength autoReplyPing c t) (unread c t) =
      some (unread c' t')

section Call

variable {call : ReceiveCall} {out : ReceiveState → Outcome}

/-- The failure of a run leaves the octets behind the frames that it consumed. -/
def RunKeeps (call : ReceiveCall) (out : ReceiveState → Outcome) (n : ℕ) (s : ReceiveState) :
    Prop :=
  ntSuccess (Loop.run call.turn out n s).1.status = false →
    (Loop.run call.turn out n s).2.1.connected = true →
    dropFrames (Loop.turns call.turn n s) (unread s.2.1 s.2.2) =
      some (unread (Loop.run call.turn out n s).2.1 (Loop.run call.turn out n s).2.2)

variable {s : ReceiveState} {c : WebSocketClient} {frameBufferLength outputCapacity : ℕ}

theorem runs_closed (hcall : call.Admitted) (hout : ∀ s, (out s).2.1 = s.2.1) (n : ℕ)
    (hclosed : s.2.1.connected = false) :
    (Loop.run call.turn out n s).2.1.connected = false := by
  refine Loop.run_induct (I := fun s : ReceiveState => s.2.1.connected = false)
    (Q := fun outcome : Outcome => outcome.2.1.connected = false) ?_ ?_ ?_ n s hclosed
  · intro s h
    rw [hout]
    exact h
  · rintro ⟨count, c, t⟩ outcome h hturn
    have := turn_closed hcall count t h
    rwa [hturn] at this
  · rintro ⟨count, c, t⟩ s' h hturn
    have := turn_closed hcall count t h
    rwa [hturn] at this

theorem reaches_closed (hcall : call.Admitted) {s' : ReceiveState}
    (h : Loop.Reaches call.turn s s') (hclosed : s.2.1.connected = false) : ¬ Strands call s' := by
  induction h with
  | here => exact fun hs => Bool.false_ne_true (hclosed.symm.trans hs.1)
  | @again s s₁ s' hturn _ ih =>
    obtain ⟨count, c, t⟩ := s
    have := turn_closed hcall count t hclosed
    rw [hturn] at this
    exact ih this

theorem runKeeps_iff (hcall : call.Admitted) (hout : ∀ s, (out s).2.1 = s.2.1) :
    ∀ {n : ℕ} {s : ReceiveState}, s.2.1.connected = true → (unread s.2.1 s.2.2).length < n →
      (RunKeeps call out n s ↔ ∀ s', Loop.Reaches call.turn s s' → ¬ Strands call s') := by
  intro n
  induction n with
  | zero => exact fun _ h => absurd h (Nat.not_lt_zero _)
  | succ n ih =>
    rintro ⟨count, c, t⟩ hconnected hn
    have hends := turn_ends hcall count t hconnected
    -- a turn that ends the loop is the last state
    have hdone : ∀ {outcome s'}, call.turn (count, c, t) = .done outcome →
        Loop.Reaches call.turn (count, c, t) s' → s' = (count, c, t) := by
      intro outcome s' hturn hreach
      cases hreach with
      | here => rfl
      | again h _ => rw [hturn] at h; cases h
    have hagain : ∀ {s₁}, call.turn (count, c, t) = .again s₁ → ¬ Strands call (count, c, t) →
        ((∀ s', Loop.Reaches call.turn (count, c, t) s' → ¬ Strands call s') ↔
          ∀ s', Loop.Reaches call.turn s₁ s' → ¬ Strands call s') := by
      intro s₁ hturn hno
      constructor
      · intro h s' hreach
        exact h s' (.again hturn hreach)
      · intro h s' hreach
        cases hreach with
        | here => exact hno
        | again h' hreach =>
          rw [hturn] at h'
          cases h'
          exact h s' hreach
    generalize hturn : call.turn (count, c, t) = turn at hends
    cases hends with
    | @closed _ hclosed hno =>
      cases turn with
      | done outcome =>
        refine iff_of_true (fun _ hopen => ?_) fun s' hreach => hdone hturn hreach ▸ hno
        rw [Loop.run_done hturn, show outcome.2.1.connected = false from hclosed] at hopen
        cases hopen
      | again s₁ =>
        refine iff_of_true ?_ ((hagain hturn hno).2 fun s' hreach =>
          reaches_closed hcall hreach hclosed)
        intro hfails hopen
        rw [Loop.run_again hturn] at hfails hopen
        exact absurd hopen (by rw [runs_closed hcall hout n hclosed]; exact Bool.false_ne_true)
    | @consumed s₁ frame hframe hlength hno =>
      have hdrop : ∀ m, dropFrames (m + 1) (unread c t) = dropFrames m (unread s₁.2.1 s₁.2.2) := by
        intro m
        rw [dropFrames, hframe, Option.bind_some]
      rw [hagain hturn hno, RunKeeps, Loop.run_again hturn, Loop.turns_again hturn, hdrop]
      cases hopen : s₁.2.1.connected with
      | true => exact ih hopen (lt_of_lt_of_le hlength (Nat.le_of_lt_succ hn))
      | false =>
        refine iff_of_true (fun _ hopen' => ?_) fun s' hreach => reaches_closed hcall hreach hopen
        rw [runs_closed hcall hout n hopen] at hopen'
        cases hopen'
    | ends hends hno =>
      refine iff_of_true (fun hfails _ => ?_) fun s' hreach => hdone hturn hreach ▸ hno
      rw [Loop.run_done hturn, hends] at hfails
      cases hfails
    | kept hkept hno =>
      refine iff_of_true (fun _ _ => ?_) fun s' hreach => hdone hturn hreach ▸ hno
      rw [Loop.run_done hturn, Loop.turns_done hturn, dropFrames, hkept]
    | lost hfails hopen hlost hstrands =>
      refine iff_of_false (fun hkeeps => ?_) fun h => h _ .here hstrands
      rw [RunKeeps, Loop.run_done hturn, Loop.turns_done hturn, dropFrames] at hkeeps
      rw [Option.some.inj (hkeeps hfails hopen)] at hlost
      exact lt_irrefl _ hlost

theorem receiveCall_admitted (autoReplyPing : Bool)
    (h : EntersLoop outputCapacity frameBufferLength c) :
    (receiveCall outputCapacity frameBufferLength autoReplyPing c).Admitted :=
  ⟨h.2.1, le_max_left _ _⟩

theorem receiveMessage_enters (autoReplyPing : Bool)
    (t : Transport) (h : EntersLoop outputCapacity frameBufferLength c) :
    receiveMessage outputCapacity frameBufferLength autoReplyPing c t =
      Loop.run (receiveCall outputCapacity frameBufferLength autoReplyPing c).turn
        (fun s => ({ status := statusInvalidDeviceState }, s.2))
        (c.bufferedFrame.length + t.pending + 1) (0, c, t) := by
  obtain ⟨hconnected, hbuffer, hclose, hroom⟩ := h
  rw [receiveMessage, if_neg (not_not.2 hconnected), if_neg hbuffer,
    if_neg (by rw [hclose]; exact Bool.false_ne_true), if_neg (not_lt.2 hroom)]
  rfl

theorem receiveMessage_refused (autoReplyPing : Bool)
    (t : Transport) (h : ¬ EntersLoop outputCapacity frameBufferLength c) :
    ∃ r, receiveMessage outputCapacity frameBufferLength autoReplyPing c t = (r, c, t) := by
  rw [receiveMessage]
  split
  · exact ⟨_, rfl⟩
  split
  · exact ⟨_, rfl⟩
  split
  · exact ⟨_, rfl⟩
  split
  · exact ⟨_, rfl⟩
  case isFalse hconnected hbuffer hclose hroom =>
    exact absurd ⟨not_not.1 hconnected, hbuffer, by simpa using hclose, not_lt.1 hroom⟩ h

/-- A call that fails and leaves the connection open keeps its input exactly when, at each frame
that it comes to, it does not strand: it does not read behind its buffer and then meet a read that
fails, or a control frame, that leaves the connection open; and no DATA frame is lost. -/
theorem receiveMessage_keeps_iff (outputCapacity frameBufferLength : ℕ) (autoReplyPing : Bool)
    (c : WebSocketClient) (t : Transport) :
    KeepsInput outputCapacity frameBufferLength autoReplyPing c t ↔
      (EntersLoop outputCapacity frameBufferLength c →
        ∀ s, Loop.Reaches (receiveCall outputCapacity frameBufferLength autoReplyPing c).turn
          (0, c, t) s →
          ¬ Strands (receiveCall outputCapacity frameBufferLength autoReplyPing c) s) := by
  by_cases henters : EntersLoop outputCapacity frameBufferLength c
  · have hlength : (unread c t).length < c.bufferedFrame.length + t.pending + 1 := by
      rw [unread, List.length_append, Transport.pending]
      exact Nat.lt_succ_self _
    rw [KeepsInput, receiveMessage_enters autoReplyPing t henters, consumedFrames,
      if_pos henters]
    exact (runKeeps_iff (s := (0, c, t)) (receiveCall_admitted autoReplyPing henters)
      (fun _ => rfl) henters.1 hlength).trans ⟨fun h _ => h, fun h => h henters⟩
  · obtain ⟨r, hr⟩ := receiveMessage_refused autoReplyPing t henters
    refine iff_of_true ?_ fun h => absurd h henters
    rw [KeepsInput, hr, consumedFrames, if_neg henters]
    exact fun _ _ => rfl

def pingTransport : Transport :=
  { answers := fun _ => { sent := 0 }, incoming := [[0x89, 0x01, 0x41]] }

/-- A Ping that does not fit into the output is lost when it was just read. -/
theorem receiveMessage_loses_ping : ¬ KeepsInput 0 64 false {} pingTransport := by
  have hfails : ntSuccess (receiveMessage 0 64 false {} pingTransport).1.status = false := by
    decide +kernel
  have hopen : (receiveMessage 0 64 false {} pingTransport).2.1.connected = true := by
    decide +kernel
  have hlost : dropFrames (consumedFrames 0 64 false {} pingTransport) (unread {} pingTransport) ≠
      some (unread (receiveMessage 0 64 false {} pingTransport).2.1
        (receiveMessage 0 64 false {} pingTransport).2.2) := by
    decide +kernel
  exact fun h => hlost (h hfails hopen)

end Call

end KernelHttp.WebSocket
