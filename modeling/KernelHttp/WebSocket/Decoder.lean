/-
  A decoder of a WebSocket stream that has all of it at hand (RFC 6455 sections 5 to 8), for
  comparison with the client, which gets it in pieces.

  It fails at the first violation that the octets before it do not hide.
-/
import KernelHttp.WebSocket.Messages
import KernelHttp.WebSocket.Receive

namespace KernelHttp.WebSocket

open Fragments

/-! ## Headers -/

/-- What stands at the head of a stream. -/
inductive StreamHead where
  | incomplete
  | invalid
  | header (fin : Bool) (opcode : WebSocketOpcode) (length : ℕ) (rest : Bytes)
deriving DecidableEq

def extendedWidth (lengthCode : ℕ) : ℕ :=
  if lengthCode ≤ 125 then 0 else if lengthCode = 126 then 2 else 8

/-- The header of a frame from a server: no reserved bits, a known opcode, the length in its
shortest form, no mask, and control frames whole and short. -/
def readHeader : Bytes → StreamHead
  | first :: second :: t =>
    match knownOpcode (first.toNat % 16) with
    | none => .invalid
    | some opcode =>
      if first.toNat / 16 % 8 ≠ 0 then .invalid
      else if t.length < extendedWidth (second.toNat % 128) then .incomplete
      else
        match readLength (second.toNat % 128) t with
        | none => .invalid
        | some (n, rest) =>
          if 128 ≤ second.toNat ∨ (isControlOpcode opcode ∧ (first.toNat < 128 ∨ 125 < n)) then
            .invalid
          else .header (decide (128 ≤ first.toNat)) opcode n rest
  | _ => .incomplete

/-! ## The decoder -/

/-- The decoder: the rest of the stream, the message that is open, whether the connection has
been closed, and the way back to the server. -/
structure Decoder where
  stream : Bytes
  opening : Option (MessageKind × Bytes) := none
  closed : Bool := false
  http2 : Bool := false
  transport : Transport

/-- What the decoder is given by its caller: the capacity of the output, the length of the
buffer for frames that are sent, and the limit on control frames. -/
structure DecoderOptions where
  outputCapacity : ℕ
  frameBufferLength : ℕ
  limit : Option ℕ

/-- A control frame to the server. -/
def Decoder.reply (o : DecoderOptions) (opcode : WebSocketOpcode) (payload : Bytes)
    (d : Decoder) : NTSTATUS × Decoder :=
  let r := transmit d.http2 (d.transport.answers d.transport.attempts) opcode payload
    o.frameBufferLength true
  (r.1, { d with transport := d.transport.use r.2 })

/-- A failure that the server is told of with a Close frame. -/
def Decoder.fail (o : DecoderOptions) (statusCode : ℕ) (r : Received) (d : Decoder) :
    Received × Decoder :=
  (r, (d.reply o .close (closePayload statusCode)).2)

def Decoder.ended (d : Decoder) : Received × Decoder :=
  if ntSuccess d.transport.ending then ({ status := statusConnectionDisconnected }, d)
  else ({ status := d.transport.ending }, d)

/-- The kind of the message that a data frame begins, or none for a continuation. -/
def dataKind : WebSocketOpcode → Option (Option MessageKind)
  | .text => some (some .text)
  | .binary => some (some .binary)
  | .continuation => some none
  | _ => none

/-- The fault of a data frame that its header shows: a fragment that cannot stand here, or a
message that is too big, with the close status. -/
def Decoder.headerFault (o : DecoderOptions) (opcode : WebSocketOpcode) (n : ℕ) (d : Decoder) :
    Option (ℕ × Received) :=
  match dataKind opcode with
  | none => none
  | some kind =>
    match Fragment.target (⟨kind, false, []⟩ : Fragment MessageKind UInt8) d.opening with
    | none => some (1002, { status := statusInvalidNetworkResponse })
    | some (_, p) =>
      if p.length + n > o.outputCapacity then
        some (1009, { status := statusBufferTooSmall
                      bytesReceived := if n ≤ maxSizeT - p.length then p.length + n
                        else maxSizeT })
      else none

/-- One more control frame than the limit. -/
def DecoderOptions.tooMany (o : DecoderOptions) (count : ℕ) : Bool :=
  o.limit.any fun limit => decide (limit < count)

/-- The close statuses that may be sent (RFC 6455 section 7.4, with those registered). -/
def CloseStatus (n : ℕ) : Prop :=
  (1000 ≤ n ∧ n ≤ 1014 ∧ n ≠ 1004 ∧ n ≠ 1005 ∧ n ≠ 1006) ∨ (3000 ≤ n ∧ n ≤ 4999)

instance (n : ℕ) : Decidable (CloseStatus n) := inferInstanceAs (Decidable (_ ∨ _))

instance (t : Bytes) : Decidable (ValidUtf8 t) := decidable_of_iff _ isValidUtf8_iff

/-- The payload of a Close frame: nothing, or a status and a text. -/
def CloseBody (payload : Bytes) : Prop :=
  payload = [] ∨ (2 ≤ payload.length ∧ CloseStatus (BigEndian.ofBigEndian (payload.take 2)) ∧
    ValidUtf8 (payload.drop 2))

instance (payload : Bytes) : Decidable (CloseBody payload) := inferInstanceAs (Decidable (_ ∨ _))

/-- A whole frame: a result, or the number of control frames and the decoder after it. -/
def Decoder.frame (o : DecoderOptions) (count : ℕ) (f : Frame) (d : Decoder) :
    (Received × Decoder) ⊕ (ℕ × Decoder) :=
  let invalid : Received := { status := statusInvalidNetworkResponse }
  match dataFragment f with
  | some fragment =>
    match fragment.target d.opening with
    | none => .inl (d.fail o 1002 invalid)
    | some (k, p) =>
      if ¬ f.fin then .inr (count, { d with opening := some (k, p) })
      else if k = .text ∧ ¬ ValidUtf8 p then .inl (d.fail o 1007 invalid)
      else
        .inl ({ status := statusSuccess, opcode := fragmentOpcode (some k),
                bytesReceived := p.length, output := p }, { d with opening := none })
  | none =>
    if f.opcode = .close then
      if ¬ CloseBody f.payload then .inl (d.fail o 1002 invalid)
      else
        let (status, d) := d.reply o .close f.payload
        if ¬ ntSuccess status then .inl ({ status := status }, d)
        else if f.payload.length > o.outputCapacity then
          .inl ({ status := statusBufferTooSmall, opcode := .close,
                  bytesReceived := f.payload.length }, { d with closed := true })
        else
          .inl ({ status := statusSuccess, opcode := .close, bytesReceived := f.payload.length,
                  output := f.payload }, { d with closed := true, opening := none })
    else if o.tooMany (count + 1) then .inl (d.fail o 1008 invalid)
    else if f.opcode = .ping then
      let (status, d) := d.reply o .pong f.payload
      if ¬ ntSuccess status then .inl ({ status := status }, d) else .inr (count + 1, d)
    else .inr (count + 1, d)

/-- The frame at the head of the stream. -/
def Decoder.turn (o : DecoderOptions) (count : ℕ) (d : Decoder) :
    (Received × Decoder) ⊕ (ℕ × Decoder) :=
  match readHeader d.stream with
  | .incomplete => .inl d.ended
  | .invalid => .inl (d.fail o 1002 { status := statusInvalidNetworkResponse })
  | .header fin opcode n rest =>
    match d.headerFault o opcode n with
    | some (statusCode, r) => .inl (d.fail o statusCode r)
    | none =>
      if rest.length < n then .inl d.ended
      else { d with stream := rest.drop n }.frame o count ⟨fin, opcode, rest.take n⟩

/-! ## Its steps take frames off the stream -/

variable {fin : Bool} {rest t b : Bytes} {d d' : Decoder} {o : DecoderOptions}
    {opcode : WebSocketOpcode} {lengthCode n count count' : ℕ}

theorem readLength_rest
    (h : readLength lengthCode t = some (n, rest)) : rest = t.drop (extendedWidth lengthCode) := by
  unfold readLength at h
  unfold extendedWidth
  split_ifs at h with h1 h2
  · rw [if_pos h1]
    exact (Prod.mk.inj (Option.some.inj h)).2.symm
  · rw [if_neg h1, if_pos h2]
    simp only [Option.ite_none_right_eq_some, Option.some.injEq, Prod.mk.injEq] at h
    exact h.2.2.symm
  · rw [if_neg h1, if_neg h2]
    simp only [Option.ite_none_right_eq_some, Option.some.injEq, Prod.mk.injEq] at h
    exact h.2.2.symm

theorem extendedWidth_le (lengthCode : ℕ) : extendedWidth lengthCode ≤ 8 := by
  unfold extendedWidth
  split_ifs <;> omega

/-- The two octets in front of a header that has been read, and its length. -/
theorem readHeader_eq_header (h : readHeader b = .header fin opcode n rest) :
    ∃ first second t, b = first :: second :: t ∧ knownOpcode (first.toNat % 16) = some opcode ∧
      first.toNat / 16 % 8 = 0 ∧ readLength (second.toNat % 128) t = some (n, rest) ∧
      ¬ 128 ≤ second.toNat ∧ fin = decide (128 ≤ first.toNat) ∧
      (isControlOpcode opcode → fin ∧ n ≤ 125) := by
  unfold readHeader at h
  split at h
  · rename_i first second t
    split at h
    · cases h
    rename_i opcode' hop
    split_ifs at h with h1 h2
    · split at h
      · cases h
      · rename_i m rest' hl
        split_ifs at h with h3
        obtain ⟨rfl, rfl, rfl, rfl⟩ := StreamHead.header.inj h
        rw [not_or, not_and, not_or] at h3
        exact ⟨first, second, t, rfl, hop, not_not.1 h1, hl, h3.1, rfl, fun hc =>
          ⟨decide_eq_true (not_lt.1 (h3.2 hc).1), not_lt.1 (h3.2 hc).2⟩⟩
  · cases h

/-- A header that has been read, and where it was. -/
theorem readHeader_header (h : readHeader b = .header fin opcode n rest) :
    ∃ head, b = head ++ rest ∧ 2 ≤ head.length ∧ head.length ≤ 10 := by
  obtain ⟨first, second, t, rfl, -, -, hl, -⟩ := readHeader_eq_header h
  have hw := extendedWidth_le (second.toNat % 128)
  refine ⟨first :: second :: t.take (extendedWidth (second.toNat % 128)), ?_, ?_, ?_⟩
  · rw [readLength_rest hl, List.cons_append, List.cons_append, List.take_append_drop]
  · simp only [List.length_cons]
    omega
  · simp only [List.length_cons, List.length_take]
    omega

theorem readFrame_readHeader (h : readHeader b = .header fin opcode n rest) (hn : n ≤ rest.length) :
    readFrame b = some (⟨fin, opcode, rest.take n⟩, rest.drop n) := by
  obtain ⟨first, second, t, rfl, hop, hreserved, hl, hmask, rfl, hcontrol⟩ :=
    readHeader_eq_header h
  have hkey : readKey (decide (128 ≤ second.toNat)) rest = some (none, rest) := by
    rw [decide_eq_false hmask, readKey_none]
  simp only [readFrame, hop, Option.bind_eq_bind, Option.bind_some, hl, hkey]
  exact if_pos ⟨hreserved, hn, hcontrol⟩

@[simp] theorem Decoder.reply_stream (o : DecoderOptions) (opcode : WebSocketOpcode)
    (payload : Bytes) (d : Decoder) : (d.reply o opcode payload).2.stream = d.stream := rfl

theorem Decoder.frame_stream {f : Frame}
    (h : d.frame o count f = .inr (count', d')) : d'.stream = d.stream := by
  unfold Decoder.frame at h
  simp only at h
  split at h
  · split at h
    · cases h
    · split_ifs at h
      obtain ⟨-, rfl⟩ := Prod.mk.inj (Sum.inr.inj h)
      rfl
  · split_ifs at h
    · obtain ⟨-, rfl⟩ := Prod.mk.inj (Sum.inr.inj h)
      rfl
    · obtain ⟨-, rfl⟩ := Prod.mk.inj (Sum.inr.inj h)
      rfl

/-- A turn that goes on has taken a frame off the stream. -/
theorem Decoder.turn_length
    (h : d.turn o count = .inr (count', d')) : d'.stream.length < d.stream.length := by
  unfold Decoder.turn at h
  split at h
  · cases h
  · cases h
  · rename_i fin opcode n rest hr
    split at h
    · cases h
    · split_ifs at h
      obtain ⟨head, hb, h2, -⟩ := readHeader_header hr
      rw [Decoder.frame_stream h, hb, List.length_append, List.length_drop]
      omega

/-- The next message, or the first failure. -/
def Decoder.next (o : DecoderOptions) (count : ℕ) (d : Decoder) : Received × Decoder :=
  match _h : d.turn o count with
  | .inl r => r
  | .inr (count, d) => Decoder.next o count d
termination_by d.stream.length
decreasing_by exact Decoder.turn_length _h

/-- A call: on a connection that is open, with buffers that can be used. -/
def Decoder.receive (o : DecoderOptions) (d : Decoder) : Received × Decoder :=
  if d.closed then ({ status := statusConnectionDisconnected }, d)
  else if o.frameBufferLength = 0 then ({ status := statusInvalidParameter }, d)
  else if o.outputCapacity > maxSizeT - webSocketFrameHeaderMaxLength then
    ({ status := statusBufferTooSmall }, d)
  else d.next o 0

/-- Calls up to the first failure: their results, and the frames sent to the server. -/
def Decoder.receiveAll (o : DecoderOptions) : ℕ → Decoder → List Received × List Bytes
  | 0, d => ([], d.transport.handed)
  | n + 1, d =>
    let (r, d) := d.receive o
    if ntSuccess r.status then
      let (rs, handed) := Decoder.receiveAll o n d
      (r :: rs, handed)
    else ([r], d.transport.handed)

/-! ## The client's header parser -/

theorem readLength_append (more : Bytes) (h : extendedWidth lengthCode ≤ t.length) :
    readLength lengthCode (t ++ more) =
      (readLength lengthCode t).map fun p => (p.1, p.2 ++ more) := by
  unfold extendedWidth at h
  unfold readLength
  by_cases h1 : lengthCode ≤ 125
  · rw [if_pos h1, if_pos h1]
    rfl
  · rw [if_neg h1] at h
    rw [if_neg h1, if_neg h1]
    simp only
    have hle : (if lengthCode = 126 then 2 else 8) ≤ (t ++ more).length := by
      rw [List.length_append]
      omega
    rw [List.take_append_of_le_length h, List.drop_append_of_le_length h]
    simp only [h, hle, true_and]
    by_cases h2 : lengthCode = 126
    · simp only [h2, if_true]
      split_ifs <;> rfl
    · simp only [h2, if_false]
      split_ifs <;> rfl

/-- What a header is does not depend on what follows it. -/
theorem readHeader_append (more : Bytes) :
    (readHeader b = .invalid → readHeader (b ++ more) = .invalid) ∧
    ∀ fin opcode n rest, readHeader b = .header fin opcode n rest →
      readHeader (b ++ more) = .header fin opcode n (rest ++ more) := by
  match b with
  | [] => exact ⟨nofun, nofun⟩
  | [_] => exact ⟨nofun, nofun⟩
  | first :: second :: t =>
    simp only [List.cons_append, readHeader]
    cases hop : knownOpcode (first.toNat % 16) with
    | none => exact ⟨fun _ => rfl, nofun⟩
    | some opcode =>
      simp only
      by_cases hr : first.toNat / 16 % 8 ≠ 0
      · rw [if_pos hr, if_pos hr]
        exact ⟨fun _ => rfl, nofun⟩
      rw [if_neg hr, if_neg hr]
      by_cases hw : t.length < extendedWidth (second.toNat % 128)
      · rw [if_pos hw]
        exact ⟨nofun, nofun⟩
      · rw [if_neg hw, if_neg (by rw [List.length_append]; omega),
          readLength_append more (not_lt.1 hw)]
        cases readLength (second.toNat % 128) t with
        | none => exact ⟨fun _ => rfl, nofun⟩
        | some p =>
          obtain ⟨n, rest⟩ := p
          simp only [Option.map_some]
          split_ifs
          · exact ⟨fun _ => rfl, nofun⟩
          · refine ⟨nofun, fun _ _ _ _ h => ?_⟩
            obtain ⟨rfl, rfl, rfl, rfl⟩ := StreamHead.header.inj h
            rfl

theorem readExtendedLength_eq (lengthCode : ℕ) (t : Bytes) :
    readExtendedLength lengthCode t =
      if t.length < extendedWidth lengthCode then .error statusMoreProcessingRequired
      else
        match readLength lengthCode t with
        | none => .error statusInvalidNetworkResponse
        | some (n, _) => .ok (n, extendedWidth lengthCode) := by
  unfold readExtendedLength extendedWidth readLength
  by_cases h1 : lengthCode ≤ 125
  · simp only [if_pos h1, Nat.not_lt_zero, if_false]
  by_cases h2 : lengthCode = 126
  · simp only [if_neg h1, if_pos h2]
    by_cases h3 : t.length < 2
    · rw [if_pos h3, if_pos h3]
    · rw [if_neg h3, if_neg h3]
      by_cases h4 : BigEndian.ofBigEndian (t.take 2) ≤ 125
      · rw [if_pos h4, if_neg (by omega)]
      · rw [if_neg h4, if_pos (by omega)]
  · simp only [if_neg h1, if_neg h2]
    by_cases h3 : t.length < 8
    · rw [if_pos h3, if_pos h3]
    · rw [if_neg h3, if_neg h3]
      by_cases h4 : 2 ^ 63 ≤ BigEndian.ofBigEndian (t.take 8) ∨
          BigEndian.ofBigEndian (t.take 8) ≤ 0xffff
      · rw [if_pos h4, if_neg (by omega)]
      · rw [if_neg h4, if_pos (by omega)]

theorem decodeFrameHeader_eq (b : Bytes) :
    decodeFrameHeader b =
      match readHeader b with
      | .incomplete => .error statusMoreProcessingRequired
      | .invalid => .error statusInvalidNetworkResponse
      | .header fin opcode n rest =>
        .ok { fin := fin, opcode := opcode, payloadLength := n,
              headerLength := b.length - rest.length } := by
  match b with
  | [] => rfl
  | [_] => rfl
  | first :: second :: t =>
    simp only [decodeFrameHeader, readHeader]
    cases hop : knownOpcode (first.toNat % 16) with
    | none =>
      by_cases hr : first.toNat / 16 % 8 ≠ 0
      · rw [if_pos hr]
      · rw [if_neg hr]
    | some opcode =>
      by_cases hr : first.toNat / 16 % 8 ≠ 0
      · rw [if_pos hr]
        simp only [if_pos hr]
      rw [if_neg hr]
      simp only [if_neg hr, readExtendedLength_eq]
      by_cases hw : t.length < extendedWidth (second.toNat % 128)
      · simp only [if_pos hw]
      simp only [if_neg hw]
      cases hl : readLength (second.toNat % 128) t with
      | none => rfl
      | some p =>
        obtain ⟨n, rest⟩ := p
        have hrest := readLength_rest hl
        have hlen : (first :: second :: t).length - rest.length =
            2 + extendedWidth (second.toNat % 128) := by
          rw [hrest, List.length_drop, List.length_cons, List.length_cons]
          omega
        simp only
        by_cases hm : 128 ≤ second.toNat
        · rw [if_pos hm, if_pos (.inl hm)]
        rw [if_neg hm]
        by_cases hc : isControlOpcode opcode ∧ (first.toNat < 128 ∨ n > 125)
        · rw [if_pos hc, if_pos (.inr hc)]
        · rw [if_neg hc, if_neg (fun h => h.elim hm hc)]
          simp only [hlen]

end KernelHttp.WebSocket
