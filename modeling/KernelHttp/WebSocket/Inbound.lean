/-
  What the WebSocket client receives, against a decoder that has the whole stream.

  However the stream is cut into reads, the calls return what the decoder returns.
-/
import KernelHttp.WebSocket.Decoder

namespace KernelHttp.WebSocket

open Fragments

/-- The transport without what it still has to deliver. -/
def Transport.sender (t : Transport) : Transport := { t with incoming := [] }

@[simp] theorem Transport.sender_use (t : Transport) (frame : Option Bytes) :
    (t.use frame).sender = t.sender.use frame := rfl

@[simp] theorem Transport.sender_handed (t : Transport) : t.sender.handed = t.handed := rfl

/-- Calls up to the first failure: their results, and the frames sent to the server. -/
def receiveAll (outputCapacity frameBufferLength : ℕ) :
    ℕ → WebSocketClient → Transport → List Received × List Bytes
  | 0, _, t => ([], t.handed)
  | n + 1, c, t =>
    let (r, c, t) := receiveMessage outputCapacity frameBufferLength true c t
    if ntSuccess r.status then
      let (rs, handed) := receiveAll outputCapacity frameBufferLength n c t
      (r :: rs, handed)
    else ([r], t.handed)

/-- The members of the client describe the message that is open. -/
def Holds (c : WebSocketClient) : Option (MessageKind × Bytes) → Prop
  | none => c.receiveFragmentOpen = false ∧ c.receiveFragment = []
  | some (k, p) =>
    c.receiveFragmentOpen = true ∧ c.receiveFragmentOpcode = fragmentOpcode (some k) ∧
      c.receiveFragment = p

/-- An open client and the decoder, with the same way to the server. -/
structure Sends (c : WebSocketClient) (t : Transport) (d : Decoder) : Prop where
  connected : c.connected = true
  closeSent : c.closeSent = false
  http2 : d.http2 = c.http2
  transport : d.transport = t.sender

/-- The octets behind the whole frames of `data`. -/
def partialFrame (data : Bytes) : Bytes :=
  match _h : readHeader data with
  | .header _ _ n rest => if n ≤ rest.length then partialFrame (rest.drop n) else data
  | _ => data
termination_by data.length
decreasing_by
  obtain ⟨head, hdata, htwo, -⟩ := readHeader_header _h
  rw [hdata, List.length_append, List.length_drop]
  omega

/-- An HTTP/2 connection hands each DATA frame over: it fits into the buffer behind the frame that
is not whole, and nothing else fails. -/
def HandedOver (capacity : ℕ) (dataStatus : ℕ → NTSTATUS) : Bytes → List Bytes → Prop
  | _, [] => True
  | data, chunk :: rest =>
    (partialFrame data).length + chunk.length ≤ capacity ∧
      ntSuccess (dataStatus rest.length) = true ∧
      HandedOver capacity dataStatus (partialFrame data ++ chunk) rest

/-- An open client and the decoder, with `data` read and not handled. -/
structure Reading (o : DecoderOptions) (c : WebSocketClient) (t : Transport) (data : Bytes)
    (d : Decoder) : Prop extends Sends c t d where
  closeReceived : c.closeReceived = false
  endStream : c.http2 = true → t.endStream = false
  handedOver : c.http2 = true →
    HandedOver (max o.outputCapacity 125 + 14) t.dataStatus data t.incoming
  stream : d.stream = data ++ t.incoming.flatten
  chunks : ∀ chunk ∈ t.incoming, chunk ≠ []
  opening : Holds c d.opening
  closed : d.closed = false

def Follows (o : DecoderOptions) (c : WebSocketClient) (t : Transport) (d : Decoder) : Prop :=
  Reading o c t c.bufferedFrame d

/-! ## Replies -/

section Replies

variable {c : WebSocketClient} {t : Transport} {d : Decoder} {o : DecoderOptions}

theorem encodeAndSendFrame_reply (h : Sends c t d) (opcode : WebSocketOpcode)
    (payload : Bytes) :
    ∃ status frame, encodeAndSendFrame opcode payload o.frameBufferLength true c t =
        (status, afterSend c status, t.use frame) ∧
      d.reply o opcode payload = (status, { d with transport := d.transport.use frame }) := by
  refine ⟨_, _, rfl, ?_⟩
  rw [Decoder.reply, h.http2, h.transport]
  rfl

theorem sendCloseFrame_open (h : Sends c t d) (hn : o.frameBufferLength ≠ 0)
    (payload : Bytes) :
    ∃ status frame c', sendCloseFrame payload o.frameBufferLength c t =
        (status, c', t.use frame) ∧
      (ntSuccess status → c' = { c with closeSent := true }) ∧
      d.reply o .close payload = (status, { d with transport := d.transport.use frame }) := by
  obtain ⟨status, frame, hs, hd⟩ := encodeAndSendFrame_reply (o := o) h .close payload
  refine ⟨status, frame, if ntSuccess status then { afterSend c status with closeSent := true }
    else afterSend c status, ?_, fun hok => ?_, hd⟩
  · rw [sendCloseFrame, if_neg (by simpa [h.connected] using hn),
      if_neg (by rw [h.closeSent]; exact Bool.false_ne_true), hs]
  · rw [if_pos hok, afterSend, if_neg fun hf => hf.1 hok]

/-- A failure sends the same Close frame. -/
theorem failConnectionWithClose_fail (h : Sends c t d) (hn : o.frameBufferLength ≠ 0)
    (statusCode : ℕ) (r : Received) :
    ∃ c' t' d', failConnectionWithClose statusCode o.frameBufferLength r c t = (r, c', t') ∧
      d.fail o statusCode r = (r, d') ∧ d'.transport.handed = t'.handed := by
  have hr : Sends (resetReceiveFragment (resetSendFragment c)) t d :=
    ⟨h.connected, h.closeSent, h.http2, h.transport⟩
  obtain ⟨status, frame, c', hs, -, hd⟩ := sendCloseFrame_open hr hn (closePayload statusCode)
  have hopen : (resetReceiveFragment (resetSendFragment c)).connected = true ∧
      ¬ (resetReceiveFragment (resetSendFragment c)).closeSent = true :=
    ⟨hr.connected, by rw [hr.closeSent]; exact Bool.false_ne_true⟩
  refine ⟨closeTransport { c' with closeReceived := true, connected := false }, t.use frame, _, ?_,
    rfl, ?_⟩
  · rw [failConnectionWithClose]
    simp only [if_pos hopen, hs]
  · have hd' : (d.reply o .close (closePayload statusCode)).2.transport =
        d.transport.use frame := congrArg (fun r => r.2.transport) hd
    rw [hd', h.transport]
    rfl

end Replies

/-! ## Reading a frame -/

variable {b rest : Bytes} {n : ℕ}

theorem readHeader_incomplete (h : readHeader b = .incomplete) : b.length < 10 := by
  match b with
  | [] => decide
  | [_] => simp
  | first :: second :: t =>
    simp only [readHeader] at h
    split at h
    · cases h
    · split_ifs at h with h1 h2
      · have := extendedWidth_le (second.toNat % 128)
        simp only [List.length_cons]
        omega
      · split at h
        · cases h
        · split_ifs at h

theorem partialFrame_incomplete (h : readHeader b = .incomplete) : partialFrame b = b := by
  rw [partialFrame]
  split
  · rename_i h'
    rw [h] at h'
    cases h'
  · rfl

theorem partialFrame_header {fin : Bool} {opcode : WebSocketOpcode}
    (h : readHeader b = .header fin opcode n rest) :
    partialFrame b = if n ≤ rest.length then partialFrame (rest.drop n) else b := by
  rw [partialFrame]
  split
  · rename_i h'
    rw [h] at h'
    cases h'
    rfl
  · rename_i h'
    exact absurd h (h' _ _ _ _)

/-- Only the frame that is not whole counts. -/
theorem HandedOver.congr {capacity : ℕ} {dataStatus : ℕ → NTSTATUS} {b' : Bytes}
    {chunks : List Bytes} (h : HandedOver capacity dataStatus b chunks)
    (hb : partialFrame b = partialFrame b') : HandedOver capacity dataStatus b' chunks := by
  cases chunks with
  | nil => trivial
  | cons chunk chunks =>
    rw [HandedOver, ← hb]
    exact h

theorem readLength_lt {lengthCode : ℕ} {t : Bytes}
    (h : readLength lengthCode t = some (n, rest)) : n < 2 ^ 63 := by
  unfold readLength at h
  split_ifs at h with h1 h2
  · obtain ⟨rfl, -⟩ := Prod.mk.inj (Option.some.inj h)
    omega
  · simp only [Option.ite_none_right_eq_some, Option.some.injEq, Prod.mk.injEq] at h
    obtain ⟨-, rfl, -⟩ := h
    have := BigEndian.ofBigEndian_lt (t.take 2)
    have h2 : 256 ^ (t.take 2).length ≤ 256 ^ 2 :=
      Nat.pow_le_pow_right (by decide) (by rw [List.length_take]; omega)
    omega
  · simp only [Option.ite_none_right_eq_some, Option.some.injEq, Prod.mk.injEq] at h
    obtain ⟨h, rfl, -⟩ := h
    exact h.2.2

/-- The bounds on a payload that its header states. -/
theorem readHeader_bounds {fin : Bool} {opcode : WebSocketOpcode}
    (h : readHeader b = .header fin opcode n rest) :
    n < 2 ^ 63 ∧ (isControlOpcode opcode = true → n ≤ 125 ∧ fin = true) := by
  obtain ⟨_, _, _, -, -, -, hl, -, -, hcontrol⟩ := readHeader_eq_header h
  exact ⟨readLength_lt hl, fun hc => (hcontrol hc).symm⟩

/-- What the client makes of the octets that it has. -/
theorem tryDecodeCompleteFrame_eq (data : Bytes) :
    tryDecodeCompleteFrame data =
      match readHeader data with
      | .incomplete => .ok (none, false)
      | .invalid => .error statusInvalidNetworkResponse
      | .header fin opcode n rest =>
        .ok (some { fin := fin, opcode := opcode, payloadLength := n,
                    headerLength := data.length - rest.length }, decide (n ≤ rest.length)) := by
  rw [tryDecodeCompleteFrame, decodeFrameHeader_eq]
  cases h : readHeader data with
  | incomplete => rfl
  | invalid => rfl
  | header fin opcode n rest =>
    obtain ⟨hn, -⟩ := readHeader_bounds h
    obtain ⟨head, rfl, -, -⟩ := readHeader_header h
    simp only [List.length_append, Nat.add_sub_cancel]
    rw [if_neg (by rw [maxSizeT]; omega), Nat.add_sub_cancel_left]

section Fault

variable {c : WebSocketClient} {d : Decoder} {o : DecoderOptions} {opcode : WebSocketOpcode}
  {n : ℕ}

/-- The checks of a header that the client makes are those of the decoder. -/
theorem headerFault_order (h : Holds c d.opening) (hb : badFragmentOrder opcode c = true) :
    d.headerFault o opcode n = some (1002, { status := statusInvalidNetworkResponse }) := by
  unfold badFragmentOrder isDataFrame at hb
  cases ho : d.opening with
  | none =>
    rw [ho] at h
    rw [h.1] at hb
    cases opcode <;> first | (rw [Decoder.headerFault, ho]; rfl) | cases hb
  | some kp =>
    obtain ⟨k, p⟩ := kp
    rw [ho] at h
    rw [h.1] at hb
    cases opcode <;> first | (rw [Decoder.headerFault, ho]; rfl) | cases hb

theorem headerFault_rest (h : Holds c d.opening) (hb : badFragmentOrder opcode c = false) :
    d.headerFault o opcode n =
      if (isDataFrame opcode || opcode == .continuation) && messageTooBig n o.outputCapacity c then
        some (1009, tooBig n c)
      else none := by
  have hbig : ∀ m, messageTooBig n m c = decide (c.receiveFragment.length + n > m) := by
    intro m
    rw [messageTooBig, ← Bool.decide_or]
    exact decide_eq_decide.2 (by omega)
  unfold badFragmentOrder isDataFrame at hb
  rw [hbig]
  cases ho : d.opening with
  | none =>
    rw [ho] at h
    rw [h.1] at hb
    cases opcode with
    | continuation => cases hb
    | text =>
      rw [Decoder.headerFault, ho, tooBig, h.2]
      simp only [Bool.and_eq_true, decide_eq_true_eq]
      exact if_congr (by simp [isDataFrame]) rfl rfl
    | binary =>
      rw [Decoder.headerFault, ho, tooBig, h.2]
      simp only [Bool.and_eq_true, decide_eq_true_eq]
      exact if_congr (by simp [isDataFrame]) rfl rfl
    | close => rfl
    | ping => rfl
    | pong => rfl
  | some kp =>
    obtain ⟨k, p⟩ := kp
    rw [ho] at h
    rw [h.1] at hb
    cases opcode with
    | continuation =>
      rw [Decoder.headerFault, ho, tooBig, h.2.2]
      simp only [dataKind, Fragment.target, List.append_nil, Bool.and_eq_true, decide_eq_true_eq]
      exact if_congr (by simp [isDataFrame]) rfl rfl
    | text => cases hb
    | binary => cases hb
    | close => rfl
    | ping => rfl
    | pong => rfl

end Fault

section Fill

variable {c : WebSocketClient} {t : Transport} {data : Bytes} {d : Decoder} {o : DecoderOptions}
  {capacity count : ℕ}

/-- A call that fails where the decoder does, with the same frames sent. -/
def FailsAlike (outcome : Outcome) (d : Decoder) (o : DecoderOptions) (count : ℕ) : Prop :=
  ∃ d', d.turn o count = .inl (outcome.1, d') ∧ ¬ ntSuccess outcome.1.status ∧
    d'.transport.handed = outcome.2.2.handed

theorem readMore_spec (h : Reading o c t data d) (hc : data.length < capacity)
    (hcap : max o.outputCapacity 125 + 14 ≤ capacity) (hcut : partialFrame data = data)
    (he : t.incoming = [] → d.turn o count = .inl d.ended) :
    (∃ outcome, readMore capacity data c t = .done (.inl outcome) ∧ FailsAlike outcome d o count) ∨
    ∃ data' t', readMore capacity data c t = .again (data', c, t') ∧ Reading o c t' data' d ∧
      t'.pending < t.pending := by
  unfold readMore
  rw [if_neg (not_le.2 hc)]
  cases hi : t.incoming with
  | nil =>
    have he := he hi
    simp only [receiveRaw, hi]
    by_cases hs : ntSuccess t.ending
    · rw [if_neg (not_not.2 hs), if_pos trivial]
      refine .inl ⟨_, rfl, d, ?_, Bool.false_ne_true, ?_⟩
      · rw [he, Decoder.ended, h.transport, Transport.sender, if_pos hs]
      · rw [h.transport]
        rfl
    · rw [if_pos hs]
      have hd : d.turn o count = .inl ({ status := t.ending }, d) := by
        rw [he, Decoder.ended, h.transport, Transport.sender, if_neg hs]
      have hh : d.transport.handed = t.handed := by
        rw [h.transport]
        rfl
      split
      · exact .inl ⟨_, rfl, d, hd, hs, hh⟩
      · exact .inl ⟨_, rfl, d, hd, hs, hh⟩
  | cons chunk rest =>
    have hne := h.chunks chunk (by rw [hi]; exact List.mem_cons_self)
    have hpos := List.length_pos_iff.2 hne
    have hk : 0 < capacity - data.length := by omega
    have hflat : t.incoming.flatten = chunk ++ rest.flatten := by rw [hi, List.flatten_cons]
    have hend : ¬ (c.http2 = true ∧ t.endStream = true ∧
        (if chunk.length ≤ capacity - data.length then rest
          else chunk.drop (capacity - data.length) :: rest) = []) := by
      rintro ⟨h2, h3, -⟩
      rw [h.endStream h2] at h3
      cases h3
    -- over HTTP/2 the DATA frame is handed over
    have hover : c.http2 = true → data.length + chunk.length ≤ capacity ∧
        ntSuccess (t.dataStatus rest.length) = true ∧
        HandedOver (max o.outputCapacity 125 + 14) t.dataStatus (data ++ chunk) rest := by
      intro h2
      have hroom := h.handedOver h2
      rw [hi, HandedOver, hcut] at hroom
      exact ⟨hroom.1.trans hcap, hroom.2⟩
    have hgiven : ¬ (c.http2 = true ∧
        ¬ ntSuccess (dataFrameStatus (capacity - data.length) t chunk rest.length) = true) := by
      rintro ⟨h2, hfails⟩
      obtain ⟨hroom, hstatus, -⟩ := hover h2
      rw [dataFrameStatus, if_neg (by omega)] at hfails
      exact hfails hstatus
    simp only [receiveRaw, hi, if_neg hgiven, if_neg hend, ntSuccess_success, not_true_eq_false,
      if_false]
    have htake : chunk.take (capacity - data.length) ≠ [] := by
      rw [← List.length_pos_iff, List.length_take]
      omega
    rw [if_neg htake]
    refine .inr ⟨_, _, rfl,
      { h with handedOver := ?_, stream := ?_, chunks := ?_, transport := h.transport }, ?_⟩
    · intro h2
      obtain ⟨hroom, -, hrest⟩ := hover h2
      have hle : chunk.length ≤ capacity - data.length := by omega
      simp only
      rw [if_pos hle, List.take_of_length_le hle]
      exact hrest
    · rw [h.stream, hflat]
      simp only
      split
      · rename_i hle
        rw [List.take_of_length_le hle, List.append_assoc]
      · rw [List.flatten_cons, List.append_assoc, ← List.append_assoc (List.take _ _),
          List.take_append_drop]
    · intro b hb
      simp only at hb
      split at hb
      · exact h.chunks b (by rw [hi]; exact List.mem_cons_of_mem _ hb)
      · rename_i hle
        rcases List.mem_cons.1 hb with rfl | hb
        · rw [← List.length_pos_iff, List.length_drop]
          omega
        · exact h.chunks b (by rw [hi]; exact List.mem_cons_of_mem _ hb)
    · simp only [Transport.pending]
      rw [hflat, List.length_append]
      split
      · omega
      · rw [List.flatten_cons, List.length_append, List.length_drop]
        omega

/-- A whole frame at the head of `data`, without a fault that its header shows. -/
structure FrameAt (header : WebSocketFrameHeader) (data : Bytes) (d : Decoder)
    (o : DecoderOptions) where
  masked : header.masked = false
  rest : Bytes
  read : readHeader d.stream = .header header.fin header.opcode header.payloadLength rest
  fault : d.headerFault o header.opcode header.payloadLength = none
  head : Bytes
  headerLength : head.length = header.headerLength
  stream : d.stream = head ++ rest
  whole : header.headerLength + header.payloadLength ≤ data.length
  remaining : partialFrame data = partialFrame (frameRemaining header data)

theorem Reading.turn_fail (h : Reading o c t data d) (hn : o.frameBufferLength ≠ 0)
    {statusCode : ℕ} {r : Received} (hr : ¬ ntSuccess r.status)
    (hd : d.turn o count = .inl (d.fail o statusCode r)) :
    FailsAlike (failConnectionWithClose statusCode o.frameBufferLength r c t) d o count := by
  obtain ⟨c', t', d', hf, hd', hh⟩ := failConnectionWithClose_fail h.toSends hn statusCode r
  rw [hf]
  exact ⟨d', hd.trans (congrArg _ hd'), hr, hh⟩

theorem fillTurn_spec (count : ℕ) (h : Reading o c t data d) (hn : o.frameBufferLength ≠ 0)
    (hcap : max o.outputCapacity 125 + 14 ≤ capacity) :
    (∃ outcome, fillTurn capacity o.outputCapacity o.frameBufferLength (data, c, t) =
        .done (.inl outcome) ∧ FailsAlike outcome d o count) ∨
    (∃ header, fillTurn capacity o.outputCapacity o.frameBufferLength (data, c, t) =
        .done (.inr (header, data, c, t)) ∧ Nonempty (FrameAt header data d o)) ∨
    ∃ data' t', fillTurn capacity o.outputCapacity o.frameBufferLength (data, c, t) =
        .again (data', c, t') ∧ Reading o c t' data' d ∧ t'.pending < t.pending := by
  have hstream := h.stream
  simp only [fillTurn, tryDecodeCompleteFrame_eq]
  cases hr : readHeader data with
  | incomplete =>
    have hlen := readHeader_incomplete hr
    have he : t.incoming = [] → d.turn o count = .inl d.ended := by
      intro hi
      rw [hi, List.flatten_nil, List.append_nil] at hstream
      rw [Decoder.turn, hstream, hr]
    rcases readMore_spec h (show data.length < capacity by omega) hcap
      (partialFrame_incomplete hr) he with hm | hm
    · exact .inl hm
    · exact .inr (.inr hm)
  | invalid =>
    have hd : d.turn o count = .inl (d.fail o 1002 { status := statusInvalidNetworkResponse }) := by
      rw [Decoder.turn, hstream, (readHeader_append _).1 hr]
    simp only [if_true]
    exact .inl ⟨_, rfl, h.turn_fail hn Bool.false_ne_true hd⟩
  | header fin opcode n rest =>
    obtain ⟨head, hdata, h2, h10⟩ := readHeader_header hr
    have hrd : readHeader d.stream = .header fin opcode n (rest ++ t.incoming.flatten) := by
      rw [hstream]
      exact (readHeader_append _).2 _ _ _ _ hr
    have hhead : data.length - rest.length = head.length := by
      rw [hdata, List.length_append]
      omega
    simp only [hhead]
    by_cases hb : badFragmentOrder opcode c = true
    · rw [if_pos hb]
      have hd : d.turn o count =
          .inl (d.fail o 1002 { status := statusInvalidNetworkResponse }) := by
        rw [Decoder.turn, hrd]
        simp only [headerFault_order h.opening hb]
      exact .inl ⟨_, rfl, h.turn_fail hn Bool.false_ne_true hd⟩
    rw [if_neg hb]
    rw [Bool.not_eq_true] at hb
    have hfault := headerFault_rest (o := o) (n := n) h.opening hb
    by_cases hbig : ((isDataFrame opcode || opcode == .continuation) &&
        messageTooBig n o.outputCapacity c) = true
    · rw [if_pos hbig]
      rw [if_pos hbig] at hfault
      have hd : d.turn o count = .inl (d.fail o 1009 (tooBig n c)) := by
        rw [Decoder.turn, hrd]
        simp only [hfault]
      exact .inl ⟨_, rfl, h.turn_fail hn Bool.false_ne_true hd⟩
    rw [if_neg hbig]
    rw [if_neg hbig] at hfault
    by_cases hw : n ≤ rest.length
    · simp only [hw, decide_true, if_true]
      refine .inr (.inl ⟨_, rfl, ⟨?_⟩⟩)
      exact
        { masked := rfl, rest := rest ++ t.incoming.flatten, read := hrd, fault := hfault,
          head := head, headerLength := rfl
          stream := by rw [hstream, hdata, List.append_assoc]
          whole := by
            simp only
            rw [hdata, List.length_append]
            omega
          remaining := by
            rw [partialFrame_header hr, if_pos hw, frameRemaining, ← List.drop_drop, hdata,
              List.drop_left] }
    · simp only [hw, decide_false]
      rw [if_neg Bool.false_ne_true]
      -- a frame that is not whole leaves room in the buffer
      have hlen : data.length < capacity := by
        have hsmall : n ≤ max o.outputCapacity 125 := by
          by_cases hctl : isControlOpcode opcode = true
          · have := (readHeader_bounds hr).2 hctl
            omega
          · have hd : (isDataFrame opcode || opcode == .continuation) = true := by
              cases opcode <;> first | rfl | exact absurd rfl hctl
            rw [hd, Bool.true_and, messageTooBig, Bool.or_eq_true, not_or] at hbig
            simp only [decide_eq_true_eq] at hbig
            omega
        rw [hdata, List.length_append]
        omega
      have he : t.incoming = [] → d.turn o count = .inl d.ended := by
        intro hi
        rw [hi, List.flatten_nil, List.append_nil] at hrd
        rw [Decoder.turn, hrd]
        simp only [hfault]
        rw [if_pos (not_le.1 hw)]
      have hcut : partialFrame data = data := by rw [partialFrame_header hr, if_neg hw]
      rcases readMore_spec h hlen hcap hcut he with hm | hm
      · exact .inl hm
      · exact .inr (.inr hm)

theorem fillFrame_spec {c : WebSocketClient} {d : Decoder} {o : DecoderOptions}
    {capacity : ℕ} (count : ℕ) (hn : o.frameBufferLength ≠ 0)
    (hcap : max o.outputCapacity 125 + 14 ≤ capacity)
    (out : Bytes × WebSocketClient × Transport → Filled) (fuel : ℕ) (data : Bytes)
    (t : Transport) (h : Reading o c t data d) (hf : t.pending < fuel) :
    (∃ outcome, Loop.run (fillTurn capacity o.outputCapacity o.frameBufferLength) out fuel
        (data, c, t) = .inl outcome ∧ FailsAlike outcome d o count) ∨
    ∃ header data' t', Loop.run (fillTurn capacity o.outputCapacity o.frameBufferLength) out fuel
        (data, c, t) = .inr (header, data', c, t') ∧ Reading o c t' data' d ∧
        Nonempty (FrameAt header data' d o) := by
  induction fuel generalizing data t with
  | zero => exact absurd hf (Nat.not_lt_zero _)
  | succ fuel ih =>
    rcases fillTurn_spec count h hn hcap with ⟨r, hr, hd⟩ | ⟨header, hr, hd⟩ |
      ⟨data', t', hr, hd, hp⟩
    · exact .inl ⟨r, Loop.run_done hr, hd⟩
    · exact .inr ⟨header, data, t, Loop.run_done hr, h, hd⟩
    · rw [Loop.run_again hr]
      exact ih data' t' hd (by omega)

end Fill

/-! ## One frame -/

section Frame

variable {c : WebSocketClient} {t : Transport} {data : Bytes} {d : Decoder} {o : DecoderOptions}
  {count : ℕ} {header : WebSocketFrameHeader}

def FrameAt.behind (f : FrameAt header data d o) : Decoder :=
  { d with stream := f.rest.drop header.payloadLength }

theorem FrameAt.data_eq (f : FrameAt header data d o) (h : Reading o c t data d) :
    f.rest = data.drop header.headerLength ++ t.incoming.flatten := by
  have hs := h.stream
  have hw := f.whole
  have hl : header.headerLength ≤ data.length := by omega
  rw [f.stream] at hs
  have := congrArg (List.drop header.headerLength) hs
  rwa [← f.headerLength, List.drop_left, f.headerLength, List.drop_append_of_le_length hl] at this

theorem FrameAt.payload_eq (f : FrameAt header data d o) (h : Reading o c t data d) :
    f.rest.take header.payloadLength = framePayload header data := by
  have hw := f.whole
  rw [f.data_eq h, framePayload, List.take_append_of_le_length (by rw [List.length_drop]; omega)]

theorem FrameAt.remaining_eq (f : FrameAt header data d o) (h : Reading o c t data d) :
    f.rest.drop header.payloadLength = frameRemaining header data ++ t.incoming.flatten := by
  have hw := f.whole
  rw [f.data_eq h, frameRemaining, List.drop_append_of_le_length (by rw [List.length_drop]; omega),
    List.drop_drop]

/-- The decoder's turn is about the same frame. -/
theorem FrameAt.turn_eq (f : FrameAt header data d o) (h : Reading o c t data d) :
    d.turn o count =
      f.behind.frame o count ⟨header.fin, header.opcode, framePayload header data⟩ := by
  have hw := f.whole
  rw [Decoder.turn, f.read]
  simp only [f.fault]
  rw [if_neg (by rw [f.data_eq h, List.length_append, List.length_drop]; omega), f.payload_eq h]
  rfl

/-- The client and the decoder behind the frame. -/
theorem FrameAt.reading (f : FrameAt header data d o) (h : Reading o c t data d) :
    Reading o c t (frameRemaining header data) f.behind :=
  { h with
    stream := f.remaining_eq h
    handedOver := fun h2 => (h.handedOver h2).congr f.remaining }

theorem FrameAt.decodeFramePayload_eq (f : FrameAt header data d o) {capacity : ℕ}
    (hc : header.payloadLength ≤ capacity) :
    decodeFramePayload header data capacity = .ok (framePayload header data) := by
  have hw := f.whole
  have hb := (readHeader_bounds f.read).1
  rw [decodeFramePayload, if_neg (by rw [maxSizeT]; omega), if_neg (by omega),
    if_neg (by omega)]
  rfl

def BothClosed (c : WebSocketClient) (t : Transport) (d : Decoder) : Prop :=
  c.connected = false ∧ c.transportClosed = true ∧ d.closed = true ∧
    d.transport.handed = t.handed

/-- A turn of the client and one of the decoder: the same result, with the same frames sent,
or both go on. -/
def Alike (o : DecoderOptions) (turn : Loop.Turn ReceiveState Outcome)
    (turn' : (Received × Decoder) ⊕ (ℕ × Decoder)) : Prop :=
  (∃ r c' t' d', turn = .done (r, c', t') ∧ turn' = .inl (r, d') ∧
    d'.transport.handed = t'.handed ∧
    (ntSuccess r.status → Follows o c' t' d' ∨ BothClosed c' t' d')) ∨
  ∃ count c' t' d', turn = .again (count, c', t') ∧ turn' = .inr (count, d') ∧ Follows o c' t' d'

theorem Sends.alike_fail (h : Sends c t d) (hn : o.frameBufferLength ≠ 0)
    (statusCode : ℕ) :
    Alike o (failFrame statusCode o.frameBufferLength c t)
      (.inl (d.fail o statusCode { status := statusInvalidNetworkResponse })) := by
  obtain ⟨c', t', d', hf, hd, hh⟩ := failConnectionWithClose_fail h hn statusCode
    { status := statusInvalidNetworkResponse }
  refine .inl ⟨_, c', t', d', ?_, congrArg _ hd, hh, fun hs => absurd hs Bool.false_ne_true⟩
  rw [failFrame, hf]

/-- A Ping or a Pong, within the limit or at it. -/
theorem Sends.alike_counted {count : ℕ} {turn : Loop.Turn ReceiveState Outcome}
    {turn' : (Received × Decoder) ⊕ (ℕ × Decoder)} (h : Sends c t d) (hn : o.frameBufferLength ≠ 0)
    (hturn : Alike o turn turn') :
    Alike o
      (if count + 1 > khWsMaxControlFramesPerReceive then
        failFrame webSocketClosePolicyViolation o.frameBufferLength c t
      else turn)
      (if decide (khWsMaxControlFramesPerReceive < count + 1) = true then
        .inl (d.fail o 1008 { status := statusInvalidNetworkResponse })
      else turn') := by
  by_cases hmany : count + 1 > khWsMaxControlFramesPerReceive
  · rw [if_pos hmany, if_pos (decide_eq_true hmany)]
    exact h.alike_fail hn 1008
  · rw [if_neg hmany, if_neg fun hd => hmany (of_decide_eq_true hd)]
    exact hturn

theorem isValidCloseStatus_iff {n : ℕ} : isValidCloseStatus n = true ↔ CloseStatus n := by
  unfold isValidCloseStatus CloseStatus
  split_ifs with h1 h2
  · simp only [true_iff]
    exact .inr h1
  · simp only [false_iff]
    omega
  · simp only [decide_eq_true_eq]
    omega

theorem closeBody_iff (payload : Bytes) :
    CloseBody payload ↔ ¬ payload.length = 1 ∧ ¬ (2 ≤ payload.length ∧
      (¬ isValidCloseStatus (BigEndian.ofBigEndian (payload.take 2)) ∨
        ¬ isValidUtf8 (payload.drop 2))) := by
  rw [isValidCloseStatus_iff, isValidUtf8_iff, CloseBody, ← List.length_eq_zero_iff]
  constructor
  · rintro (h | ⟨h1, h2, h3⟩)
    · omega
    · exact ⟨by omega, fun h => h.2.elim (fun hn => hn h2) fun hn => hn h3⟩
  · rintro ⟨h1, h2⟩
    by_cases h : payload.length = 0
    · exact .inl h
    · rw [not_and, not_or, not_not, not_not] at h2
      exact .inr ⟨by omega, h2 (by omega)⟩

theorem handleClose_spec (h : Reading o c t data d) (hn : o.frameBufferLength ≠ 0) {fin : Bool}
    (payload remaining : Bytes) :
    Alike o (handleClose o.outputCapacity o.frameBufferLength payload remaining c t)
      (d.frame o count ⟨fin, .close, payload⟩) := by
  have hbody := closeBody_iff payload
  unfold handleClose Decoder.frame
  simp only [dataFragment, if_true]
  by_cases h1 : payload.length = 1
  · rw [if_pos h1, if_pos (fun hb => (hbody.1 hb).1 h1)]
    exact h.toSends.alike_fail hn 1002
  rw [if_neg h1]
  by_cases h2 : 2 ≤ payload.length ∧
      (¬ isValidCloseStatus (BigEndian.ofBigEndian (payload.take 2)) ∨
        ¬ isValidUtf8 (payload.drop 2))
  · rw [if_pos h2, if_pos (fun hb => (hbody.1 hb).2 h2)]
    exact h.toSends.alike_fail hn 1002
  rw [if_neg h2, if_neg (not_not.2 (hbody.2 ⟨h1, h2⟩))]
  -- the Close frame goes back
  have hsends : Sends { resetReceiveFragment c with closeReceived := true } t d :=
    ⟨h.connected, h.closeSent, h.http2, h.transport⟩
  obtain ⟨status, frame, c', hs, hok, hd⟩ := sendCloseFrame_open hsends hn payload
  have hcs : ¬ (resetReceiveFragment c).closeSent = true := by
    rw [show (resetReceiveFragment c).closeSent = false from h.closeSent]
    exact Bool.false_ne_true
  rw [if_pos hcs, hs, hd]
  have hh : (d.transport.use frame).handed = (t.use frame).handed := by
    rw [h.transport]
    rfl
  simp only
  by_cases hst : ntSuccess status
  · rw [if_neg (not_not.2 hst), if_neg (not_not.2 hst)]
    split
    · exact .inl ⟨_, _, _, _, rfl, rfl, hh, fun hf => absurd hf Bool.false_ne_true⟩
    · exact .inl ⟨_, _, _, _, rfl, rfl, hh, fun _ => .inr ⟨rfl, rfl, rfl, hh⟩⟩
  · rw [if_pos hst, if_pos hst]
    exact .inl ⟨_, _, _, _, rfl, rfl, hh, fun hf => absurd hf hst⟩

theorem handleData_spec (f : FrameAt header data d o) (h : Reading o c t data d)
    (hn : o.frameBufferLength ≠ 0) {kind : Option MessageKind}
    (hk : header.opcode = fragmentOpcode kind) :
    Alike o (handleData o.outputCapacity o.frameBufferLength header data count c t)
      (f.behind.frame o count ⟨header.fin, header.opcode, framePayload header data⟩) := by
  have hdata : (isDataFrame header.opcode || header.opcode == .continuation) = true := by
    rw [hk]
    cases kind with
    | none => rfl
    | some k => cases k <;> rfl
  have horder : badFragmentOrder header.opcode c = false := by
    by_contra hb
    rw [Bool.not_eq_false] at hb
    have := f.fault
    rw [headerFault_order h.opening hb] at this
    cases this
  have hbig : messageTooBig header.payloadLength o.outputCapacity c = false := by
    have := f.fault
    rw [headerFault_rest h.opening horder, hdata, Bool.true_and] at this
    by_contra hb
    rw [Bool.not_eq_false] at hb
    rw [if_pos hb] at this
    cases this
  have hfit : header.payloadLength ≤ o.outputCapacity - c.receiveFragment.length := by
    rw [messageTooBig, Bool.or_eq_false_iff, decide_eq_false_iff_not, decide_eq_false_iff_not] at hbig
    omega
  have hfragment : dataFragment ⟨header.fin, header.opcode, framePayload header data⟩ =
      some ⟨kind, header.fin, framePayload header data⟩ := by
    rw [hk]
    exact dataFragment_fragmentOpcode ⟨kind, header.fin, framePayload header data⟩
  -- the message that the frame belongs to
  obtain ⟨k, htarget, hopcode⟩ : ∃ k,
      (⟨kind, header.fin, framePayload header data⟩ : Fragment MessageKind UInt8).target d.opening =
        some (k, c.receiveFragment ++ framePayload header data) ∧
      (if c.receiveFragmentOpen then c.receiveFragmentOpcode else header.opcode) =
        fragmentOpcode (some k) := by
    have ho := h.opening
    rw [hk] at horder ⊢
    cases hop : d.opening with
    | none =>
      rw [hop] at ho
      rw [ho.1, ho.2]
      cases kind with
      | none =>
        rw [badFragmentOrder, ho.1] at horder
        cases horder
      | some k => exact ⟨k, rfl, rfl⟩
    | some kp =>
      obtain ⟨k, p⟩ := kp
      rw [hop] at ho
      rw [ho.1, ho.2.2]
      cases kind with
      | none => exact ⟨k, rfl, ho.2.1⟩
      | some k' =>
        rw [badFragmentOrder, ho.1] at horder
        cases k' <;> cases horder
  unfold handleData Decoder.frame
  rw [if_neg (by rw [horder]; exact Bool.false_ne_true),
    if_neg (by rw [hbig]; exact Bool.false_ne_true), f.decodeFramePayload_eq hfit]
  simp only [hfragment, show f.behind.opening = d.opening from rfl, htarget, hopcode]
  have hread := f.reading h
  by_cases hfin : header.fin = true
  · rw [if_neg (not_not.2 hfin), if_neg (not_not.2 hfin)]
    have htext : fragmentOpcode (some k) = .text ↔ k = .text := by
      cases k <;> decide
    simp only [htext, isValidUtf8_iff]
    by_cases hv : k = .text ∧ ¬ ValidUtf8 (c.receiveFragment ++ framePayload header data)
    · rw [if_pos hv, if_pos hv]
      refine Sends.alike_fail ?_ hn 1007
      exact ⟨h.connected, h.closeSent, h.http2, h.transport⟩
    · rw [if_neg hv, if_neg hv]
      refine .inl ⟨_, _, _, _, rfl, rfl, ?_, fun _ => .inl ?_⟩
      · exact (congrArg Transport.handed hread.transport).trans rfl
      · exact { hread with opening := ⟨rfl, rfl⟩ }
  · rw [if_pos hfin, if_pos hfin]
    refine .inr ⟨_, _, _, _, rfl, rfl, ?_⟩
    exact { hread with opening := ⟨rfl, rfl, rfl⟩ }

theorem handlePing_spec (f : FrameAt header data d o) (h : Reading o c t data d)
    (hn : o.frameBufferLength ≠ 0) (ho : o.limit = some khWsMaxControlFramesPerReceive)
    (hop : header.opcode = .ping) :
    Alike o (handleFrame o.outputCapacity o.frameBufferLength true header data count c t)
      (f.behind.frame o count ⟨header.fin, header.opcode, framePayload header data⟩) := by
  have hread := f.reading h
  unfold handleFrame Decoder.frame
  rw [f.masked, if_neg Bool.false_ne_true, hop]
  simp only [dataFragment, DecoderOptions.tooMany, ho, Option.any_some]
  rw [if_neg (show ¬ WebSocketOpcode.ping = .close by decide)]
  refine hread.toSends.alike_counted hn ?_
  rw [if_neg (not_not.2 trivial)]
  obtain ⟨status, frame, hs, hd⟩ := encodeAndSendFrame_reply (o := o) hread.toSends .pong
    (framePayload header data)
  simp only [if_true, hs, hd]
  by_cases hst : ntSuccess status
  · rw [if_neg (not_not.2 hst), if_neg (not_not.2 hst)]
    refine .inr ⟨_, _, _, _, rfl, rfl, ?_⟩
    rw [afterSend, if_neg fun hf => hf.1 hst]
    exact { hread with
      transport := by
        rw [hread.transport]
        rfl }
  · rw [if_pos hst, if_pos hst]
    refine .inl ⟨_, _, _, _, rfl, rfl, ?_, fun hf => absurd hf hst⟩
    rw [hread.transport]
    rfl

theorem handlePong_spec (f : FrameAt header data d o) (h : Reading o c t data d)
    (hn : o.frameBufferLength ≠ 0) (ho : o.limit = some khWsMaxControlFramesPerReceive)
    (hop : header.opcode = .pong) :
    Alike o (handleFrame o.outputCapacity o.frameBufferLength true header data count c t)
      (f.behind.frame o count ⟨header.fin, header.opcode, framePayload header data⟩) := by
  have hread := f.reading h
  unfold handleFrame Decoder.frame
  rw [f.masked, if_neg Bool.false_ne_true, hop]
  simp only [dataFragment, DecoderOptions.tooMany, ho, Option.any_some]
  rw [if_neg (show ¬ WebSocketOpcode.pong = .close by decide)]
  refine hread.toSends.alike_counted hn ?_
  rw [if_neg (not_not.2 trivial), if_neg (show ¬ WebSocketOpcode.pong = .ping by decide)]
  exact .inr ⟨_, _, _, _, rfl, rfl, { hread with }⟩

theorem handleFrame_spec (count : ℕ) (f : FrameAt header data d o) (h : Reading o c t data d)
    (hn : o.frameBufferLength ≠ 0) (ho : o.limit = some khWsMaxControlFramesPerReceive) :
    Alike o (handleFrame o.outputCapacity o.frameBufferLength true header data count c t)
      (d.turn o count) := by
  rw [f.turn_eq h]
  cases hop : header.opcode with
  | ping => exact hop ▸ handlePing_spec f h hn ho hop
  | pong => exact hop ▸ handlePong_spec f h hn ho hop
  | close =>
    unfold handleFrame
    rw [f.masked, if_neg Bool.false_ne_true, hop]
    exact handleClose_spec (f.reading h) hn _ _
  | continuation =>
    have := @handleData_spec c t data d o count header f h hn none hop
    unfold handleFrame
    rw [f.masked, if_neg Bool.false_ne_true, hop]
    rwa [hop] at this
  | text =>
    have := @handleData_spec c t data d o count header f h hn (some .text) hop
    unfold handleFrame
    rw [f.masked, if_neg Bool.false_ne_true, hop]
    rwa [hop] at this
  | binary =>
    have := @handleData_spec c t data d o count header f h hn (some .binary) hop
    unfold handleFrame
    rw [f.masked, if_neg Bool.false_ne_true, hop]
    rwa [hop] at this

end Frame

/-! ## Calls -/

section Calls

variable {o : DecoderOptions}

def SameResult (o : DecoderOptions) (outcome : Outcome) (result : Received × Decoder) : Prop :=
  result.1 = outcome.1 ∧ result.2.transport.handed = outcome.2.2.handed ∧
    (ntSuccess outcome.1.status → Follows o outcome.2.1 outcome.2.2 result.2 ∨
      BothClosed outcome.2.1 outcome.2.2 result.2)

variable {d : Decoder} {t : Transport} {c : WebSocketClient} {count : ℕ}

theorem Decoder.next_inl {r : Received × Decoder}
    (h : d.turn o count = .inl r) : d.next o count = r := by
  rw [Decoder.next]
  split
  · rename_i h'
    rw [h] at h'
    exact (Sum.inl.inj h').symm
  · rename_i h'
    rw [h] at h'
    cases h'

theorem Decoder.next_inr {count' : ℕ} {d' : Decoder}
    (h : d.turn o count = .inr (count', d')) : d.next o count = d'.next o count' := by
  rw [Decoder.next]
  split
  · rename_i h'
    rw [h] at h'
    cases h'
  · rename_i h'
    rw [h] at h'
    obtain ⟨rfl, rfl⟩ := Prod.mk.inj (Sum.inr.inj h')
    rfl

theorem receiveLoop_spec (hn : o.frameBufferLength ≠ 0)
    (ho : o.limit = some khWsMaxControlFramesPerReceive) {capacity : ℕ}
    (hcap : max o.outputCapacity 125 + 14 ≤ capacity) (out : ReceiveState → Outcome) (fuel : ℕ)
    (count : ℕ) (c : WebSocketClient) (t : Transport) (d : Decoder) (h : Follows o c t d)
    (hf : d.stream.length < fuel) :
    SameResult o
      (Loop.run (receiveTurn capacity o.outputCapacity o.frameBufferLength true) out fuel
        (count, c, t)) (d.next o count) := by
  induction fuel generalizing count c t d with
  | zero => exact absurd hf (Nat.not_lt_zero _)
  | succ fuel ih =>
    rcases fillFrame_spec count hn hcap
      (fun s => .inl ({ status := statusInvalidDeviceState }, s.2)) (t.pending + 1)
      c.bufferedFrame t h (Nat.lt_succ_self _) with
      ⟨⟨r, c', t'⟩, hr, d', hd, hs, hh⟩ | ⟨header, data, t', hr, hread, ⟨hframe⟩⟩
    · have hturn : receiveTurn capacity o.outputCapacity o.frameBufferLength true (count, c, t) =
          .done (r, c', t') := by
        rw [receiveTurn, fillFrame, hr]
      rw [Loop.run_done hturn, Decoder.next_inl hd]
      exact ⟨rfl, hh, fun hok => absurd hok hs⟩
    · have hturn : receiveTurn capacity o.outputCapacity o.frameBufferLength true (count, c, t) =
          handleFrame o.outputCapacity o.frameBufferLength true header data count c t' := by
        rw [receiveTurn, fillFrame, hr]
      rcases handleFrame_spec count hframe hread hn ho with
        ⟨r, c', t'', d', hr', hd, hh, hok⟩ | ⟨count', c', t'', d', hr', hd, hfollow⟩
      · rw [Loop.run_done (hturn.trans hr'), Decoder.next_inl hd]
        exact ⟨rfl, hh, hok⟩
      · rw [Loop.run_again (hturn.trans hr'), Decoder.next_inr hd]
        exact ih count' c' t'' d' hfollow (by have := Decoder.turn_length hd; omega)

theorem receiveMessage_spec (ho : o.limit = some khWsMaxControlFramesPerReceive)
    (h : Follows o c t d) :
    SameResult o (receiveMessage o.outputCapacity o.frameBufferLength true c t) (d.receive o) := by
  have hh : d.transport.handed = t.handed := by
    rw [h.transport]
    rfl
  unfold receiveMessage Decoder.receive
  rw [h.connected, h.closed, h.closeReceived, if_neg (not_not.2 rfl), if_neg Bool.false_ne_true]
  by_cases hn : o.frameBufferLength = 0
  · rw [if_pos hn, if_pos hn]
    exact ⟨rfl, hh, fun hf => absurd hf Bool.false_ne_true⟩
  rw [if_neg hn, if_neg hn, if_neg Bool.false_ne_true]
  by_cases hbig : o.outputCapacity > maxSizeT - webSocketFrameHeaderMaxLength
  · rw [if_pos hbig, if_pos hbig]
    exact ⟨rfl, hh, fun hf => absurd hf Bool.false_ne_true⟩
  · rw [if_neg hbig, if_neg hbig]
    refine receiveLoop_spec hn ho (le_max_left _ _) _ _ 0 c t d h ?_
    rw [h.stream, List.length_append]
    exact Nat.lt_succ_self _

theorem receiveMessage_closed (h : BothClosed c t d) :
    SameResult o (receiveMessage o.outputCapacity o.frameBufferLength true c t) (d.receive o) := by
  obtain ⟨h1, h2, h3, h4⟩ := h
  rw [receiveMessage, Decoder.receive, h1, h3, if_pos Bool.false_ne_true, if_pos rfl]
  refine ⟨?_, h4, fun hf => ?_⟩
  · rw [notConnected, h2]
    rfl
  · rw [notConnected, h2] at hf
    cases hf

theorem receiveAll_spec (ho : o.limit = some khWsMaxControlFramesPerReceive) (n : ℕ)
    {c : WebSocketClient} {t : Transport} {d : Decoder} (h : Follows o c t d ∨ BothClosed c t d) :
    receiveAll o.outputCapacity o.frameBufferLength n c t = d.receiveAll o n := by
  induction n generalizing c t d with
  | zero =>
    rw [receiveAll, Decoder.receiveAll]
    rcases h with h | h
    · rw [h.transport]
      rfl
    · rw [h.2.2.2]
  | succ n ih =>
    have hr : SameResult o (receiveMessage o.outputCapacity o.frameBufferLength true c t)
        (d.receive o) := h.elim (receiveMessage_spec ho) receiveMessage_closed
    obtain ⟨h1, h2, h3⟩ := hr
    rw [receiveAll, Decoder.receiveAll]
    simp only [h1, h2]
    by_cases hs : ntSuccess (receiveMessage o.outputCapacity o.frameBufferLength true c t).1.status
    · rw [if_pos hs, if_pos hs, ih (h3 hs)]
    · rw [if_neg hs, if_neg hs]

end Calls

/-! ## Whole streams -/

/-- A client after its handshake, with what was read beyond it. -/
def openClient (http2 : Bool) (early : Bytes) : WebSocketClient :=
  { http2 := http2, bufferedFrame := early }

def Decoder.start (http2 : Bool) (stream : Bytes) (transport : Transport) : Decoder :=
  { stream := stream, http2 := http2, transport := transport.sender }

/-- Whatever the reads are, the calls return what the decoder returns on the whole stream, up
to the first failure, and the same frames go back to the server.  The decoder takes as many
control frames for one message as the client does.  Over HTTP/2 each DATA frame is handed over,
and the end of the stream comes apart from data. -/
theorem receive_refines (http2 : Bool) (early : Bytes) (transport : Transport)
    (outputCapacity frameBufferLength calls : ℕ)
    (hreads : ∀ chunk ∈ transport.incoming, chunk ≠ [])
    (hend : http2 = true → transport.endStream = false)
    (hover : http2 = true →
      HandedOver (max outputCapacity 125 + 14) transport.dataStatus early transport.incoming) :
    receiveAll outputCapacity frameBufferLength calls (openClient http2 early) transport =
      (Decoder.start http2 (early ++ transport.incoming.flatten) transport).receiveAll
        ⟨outputCapacity, frameBufferLength, some khWsMaxControlFramesPerReceive⟩ calls :=
  @receiveAll_spec ⟨outputCapacity, frameBufferLength, some khWsMaxControlFramesPerReceive⟩ rfl
    calls _ _ _ (.inl
      { connected := rfl, closeSent := rfl, http2 := rfl, transport := rfl, closeReceived := rfl
        endStream := hend, handedOver := hover, stream := rfl, chunks := hreads
        opening := ⟨rfl, rfl⟩, closed := rfl })

theorem partialFrame_length_le (b : Bytes) : (partialFrame b).length ≤ b.length := by
  induction hn : b.length using Nat.strong_induction_on generalizing b with
  | _ n ih =>
    rw [partialFrame]
    split
    · rename_i m rest h
      split_ifs
      · obtain ⟨head, hdata, htwo, -⟩ := readHeader_header h
        have hshort : (rest.drop m).length < n := by
          rw [← hn, hdata, List.length_append, List.length_drop]
          omega
        exact (ih _ hshort _ rfl).trans hshort.le
      · exact hn.le
    · exact hn.le

/-- A stream that fits into the buffer altogether is handed over. -/
theorem HandedOver.of_length {capacity : ℕ} {dataStatus : ℕ → NTSTATUS} {chunks : List Bytes}
    (hstatus : ∀ n, ntSuccess (dataStatus n) = true) (early : Bytes)
    (h : (early ++ chunks.flatten).length ≤ capacity) :
    HandedOver capacity dataStatus early chunks := by
  induction chunks generalizing early with
  | nil => trivial
  | cons chunk chunks ih =>
    have hle := partialFrame_length_le early
    rw [List.flatten_cons, List.length_append, List.length_append] at h
    refine ⟨by omega, hstatus _, ih _ ?_⟩
    rw [List.length_append, List.length_append]
    omega

/-- A Text frame, a Ping and the end of the message, cut within the header of the Ping. -/
def splitReads : Transport :=
  { answers := fun _ => { sent := 7 }
    incoming := [[0x01, 0x01, 0x61, 0x89], [0x01, 0x70, 0x80, 0x01], [0x62, 0x82, 0x00]] }

theorem receive_refines_splitReads :
    receiveAll 16 32 3 (openClient false []) splitReads =
        (Decoder.start false splitReads.incoming.flatten splitReads).receiveAll
          ⟨16, 32, some 100⟩ 3 ∧
      receiveAll 16 32 3 (openClient true []) splitReads =
        (Decoder.start true splitReads.incoming.flatten splitReads).receiveAll
          ⟨16, 32, some 100⟩ 3 :=
  ⟨receive_refines false [] splitReads 16 32 3 (by decide) (by decide)
      fun h => absurd h Bool.false_ne_true,
    receive_refines true [] splitReads 16 32 3 (by decide) (fun _ => rfl)
      fun _ => .of_length (fun _ => rfl) [] (by decide)⟩

example : (receiveAll 16 32 3 (openClient false []) splitReads).1 =
    [{ status := statusSuccess, opcode := .text, bytesReceived := 2, output := [0x61, 0x62] },
     { status := statusSuccess, opcode := .binary },
     { status := statusConnectionDisconnected }] := by
  decide +kernel

/-- More Pings before a message than the client takes. -/
def manyPings : Transport :=
  { answers := fun _ => { sent := 6 }
    incoming := [(List.replicate 101 [0x89, 0x00]).flatten ++ [0x81, 0x00]] }

/-- A decoder without a limit on control frames delivers a message where the client fails. -/
theorem receive_manyPings :
    (receiveAll 16 32 1 (openClient false []) manyPings).1 =
        [{ status := statusInvalidNetworkResponse }] ∧
      ((Decoder.start false manyPings.incoming.flatten manyPings).receiveAll ⟨16, 32, none⟩ 1).1 =
        [{ status := statusSuccess, opcode := .text }] := by
  decide +kernel

end KernelHttp.WebSocket
