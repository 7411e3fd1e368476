/-
  What the WebSocket client sends.

  Frames and the callers' fragments are put together into messages by the same rule, and agree.
-/
import KernelHttp.WebSocket.Client
import KernelHttp.WebSocket.Messages

namespace KernelHttp.WebSocket

open Fragments

/-! ## Calls and runs -/

/-- A call of the application. -/
inductive Call where
  | sendText (message : Bytes) (frameBufferLength : ℕ) (finalFragment : Bool)
  | sendBinary (message : Bytes) (frameBufferLength : ℕ) (finalFragment : Bool)
  | sendContinuation (message : Bytes) (frameBufferLength : ℕ) (finalFragment : Bool)
  | sendPing (payload : Bytes) (frameBufferLength : ℕ)
  | sendPong (payload : Bytes) (frameBufferLength : ℕ)

def Call.perform : Call → WebSocketClient → Transport → NTSTATUS × WebSocketClient × Transport
  | .sendText message n fin => WebSocket.sendText message n fin
  | .sendBinary message n fin => WebSocket.sendBinary message n fin
  | .sendContinuation message n fin => WebSocket.sendContinuation message n fin
  | .sendPing payload n => WebSocket.sendPing payload n
  | .sendPong payload n => WebSocket.sendPong payload n

/-- The fragment that a call passes, and the length of its frame buffer. -/
def Call.fragment : Call → Option (Fragment MessageKind UInt8 × ℕ)
  | .sendText message n fin => some (⟨some .text, fin, message⟩, n)
  | .sendBinary message n fin => some (⟨some .binary, fin, message⟩, n)
  | .sendContinuation message n fin => some (⟨none, fin, message⟩, n)
  | .sendPing _ _ => none
  | .sendPong _ _ => none

def chunks (maxPayloadPerFrame : ℕ) (message : Bytes) : List Bytes :=
  if message.length ≤ maxPayloadPerFrame ∨ maxPayloadPerFrame = 0 then [message]
  else message.take maxPayloadPerFrame :: chunks maxPayloadPerFrame (message.drop maxPayloadPerFrame)
termination_by message.length
decreasing_by rw [List.length_drop]; omega

def frameFragments (f : Fragment MessageKind UInt8) (frameBufferLength : ℕ) :
    List (Fragment MessageKind UInt8) :=
  pieces f.kind f.final (chunks (maxPayloadForFrameBuffer frameBufferLength) f.payload)

/-- A client with its transport, and the fragments of its callers whose frames have all been
handed to the transport. -/
structure System where
  client : WebSocketClient
  transport : Transport
  fragments : List (Fragment MessageKind UInt8) := []

/-- A connected client that has sent nothing. -/
def System.start (http2 : Bool) (answers : ℕ → SendAnswer) : System :=
  { client := { http2 := http2 }, transport := { answers := answers } }

/-- The fragment of a call, if all its frames are among the `handed` ones. -/
def Call.complete (call : Call) (handed : ℕ) : List (Fragment MessageKind UInt8) :=
  match call.fragment with
  | none => []
  | some (f, n) => if handed = (frameFragments f n).length then [f] else []

def System.step (s : System) (call : Call) : System :=
  let (_, c, t) := call.perform s.client s.transport
  ⟨c, t, s.fragments ++ call.complete (t.handed.length - s.transport.handed.length)⟩

def System.run (s : System) (calls : List Call) : System := calls.foldl System.step s

/-- The frames handed over are a legal sequence: every buffer is one frame, the data frames
can be put together to messages, their finished messages are those of the callers'
fragments, and texts are valid UTF-8. -/
def System.Legal (s : System) : Prop :=
  (∀ frame ∈ s.transport.handed, ∃ f, readFrame frame = some (f, [])) ∧
  ∃ wire calls, assemble {} (wireFragments s.transport.handed) = some wire ∧
    assemble {} s.fragments = some calls ∧ wire.messages = calls.messages ∧
    ∀ m ∈ wire.messages, m.1 = .text → ValidUtf8 m.2

/-! ## The condition -/

def transmitFragment (http2 : Bool) (answer : SendAnswer) (frameBufferLength : ℕ)
    (f : Fragment MessageKind UInt8) : NTSTATUS × Option Bytes :=
  transmit http2 answer (fragmentOpcode f.kind) f.payload frameBufferLength f.final

/-- A fragment that may fail at its last frame, that frame being handed over: a whole message,
or one in the middle of a message that leaves the UTF-8 state as it was. -/
def Call.Harmless (f : Fragment MessageKind UInt8) (utf8 : Utf8State) (c : WebSocketClient) :
    Prop :=
  match f.kind with
  | some _ => f.final = true
  | none => f.final = false ∧ utf8 = c.sendTextUtf8

/-- The first of the frames `fs` that the world answers with a failure has a terminal status,
or nothing is handed over, or it is the last one, handed over, and that is harmless. -/
def Steady (fs : List (Fragment MessageKind UInt8)) (frameBufferLength : ℕ) (harmless : Prop)
    (c : WebSocketClient) (t : Transport) : Prop :=
  ∀ done f left, fs = done ++ f :: left →
    (∀ i g, done[i]? = some g →
      ntSuccess (transmitFragment c.http2 (t.answers (t.attempts + i)) frameBufferLength g).1) →
    let r := transmitFragment c.http2 (t.answers (t.attempts + done.length)) frameBufferLength f
    ¬ ntSuccess r.1 →
      isConnectionTerminalStatus r.1 ∨ (done = [] ∧ r.2 = none) ∨
        (left = [] ∧ r.2 ≠ none ∧ harmless)

def Call.Steady (call : Call) (c : WebSocketClient) (t : Transport) : Prop :=
  ∀ f n, call.fragment = some (f, n) →
    ∀ utf8, checkSendFrame (fragmentOpcode f.kind) f.payload n f.final c = .ok utf8 →
      WebSocket.Steady (frameFragments f n) n (Call.Harmless f utf8 c) c t

/-- The condition on a run. -/
def System.Steady : System → List Call → Prop
  | _, [] => True
  | s, call :: calls => call.Steady s.client s.transport ∧ (s.step call).Steady calls

/-! ## The frames of one call -/

theorem chunks_ne_nil (n : ℕ) (message : Bytes) : chunks n message ≠ [] := by
  rw [chunks]
  split_ifs
  · exact List.cons_ne_nil _ _
  · exact List.cons_ne_nil _ _

theorem flatten_chunks (n : ℕ) (message : Bytes) : (chunks n message).flatten = message := by
  fun_induction chunks n message with
  | case1 message h => rw [List.flatten_cons, List.flatten_nil, List.append_nil]
  | case2 message h ih => rw [List.flatten_cons, ih, List.take_append_drop]

variable {fin : Bool} {message p : Bytes} {call : Call} {f : Fragment MessageKind UInt8}
    {fs : List (Fragment MessageKind UInt8)} {k : MessageKind} {status : NTSTATUS}
    {o : Option (MessageKind × Bytes)} {key : Option MaskingKey} {s : System} {t : Transport}
    {utf8 : Utf8State} {c : WebSocketClient} {opcode : WebSocketOpcode} {n : ℕ}

theorem encodeFrame_carries {frame : Bytes}
    (h : encodeFrame (fragmentOpcode f.kind) f.final f.payload key n = .ok frame) :
    Carries frame f := by
  have := readFrame_encodeFrame h []
  rwa [List.append_nil] at this

theorem encodeFrame_error {payload : Bytes}
    (h : encodeFrame opcode fin payload key n = .error status) : ntSuccess status = false := by
  unfold encodeFrame at h
  simp only at h
  split at h
  · cases h; rfl
  split at h
  · cases h; rfl
  split at h
  · cases h; rfl
  split at h
  · cases h; rfl
  split at h <;> cases h

/-- A frame is handed over, or the sending fails before that. -/
theorem transmit_cases (http2 : Bool) (answer : SendAnswer) (opcode : WebSocketOpcode)
    (payload : Bytes) (n : ℕ) (fin : Bool) :
    ((transmit http2 answer opcode payload n fin).2 = none ∧
      ¬ ntSuccess (transmit http2 answer opcode payload n fin).1) ∨
    ∃ key frame, encodeFrame opcode fin payload key n = .ok frame ∧
      (transmit http2 answer opcode payload n fin).2 = some frame := by
  unfold transmit
  by_cases hp : ¬ http2 ∧ ¬ ntSuccess answer.prepared
  · rw [if_pos hp]
    exact .inl ⟨rfl, hp.2⟩
  · rw [if_neg hp]
    generalize (if http2 then none else some answer.maskingKey) = key
    cases he : encodeFrame opcode fin payload key n with
    | error status => exact .inl ⟨rfl, by rw [encodeFrame_error he]; exact Bool.false_ne_true⟩
    | ok frame =>
      refine .inr ⟨key, frame, he, ?_⟩
      simp only
      split <;> rfl

/-- The frames of a fragment one after another, up to the first that fails. -/
def sendFragments (frameBufferLength : ℕ) :
    List (Fragment MessageKind UInt8) → WebSocketClient → Transport →
      NTSTATUS × WebSocketClient × Transport
  | [], c, t => (statusSuccess, c, t)
  | f :: fs, c, t =>
    let (status, c, t) :=
      encodeAndSendFrame (fragmentOpcode f.kind) f.payload frameBufferLength f.final c t
    if ¬ ntSuccess status then (status, c, t) else sendFragments frameBufferLength fs c t

theorem sendFrames_eq {m : ℕ} {kind : Option MessageKind}
    (hmax : message ≠ [] → 0 < m) (c : WebSocketClient) (t : Transport) :
    sendFrames m n fin (fragmentOpcode kind) message hmax c t =
      sendFragments n (pieces kind fin (chunks m message)) c t := by
  induction hk : message.length using Nat.strong_induction_on generalizing message kind c t with
  | _ k ih =>
    subst hk
    rw [sendFrames, chunks]
    by_cases h : message.length ≤ m
    · rw [if_pos (.inl h), pieces, sendFragments, List.take_of_length_le h]
      simp only [h, decide_true, Bool.and_true, if_true]
      rfl
    · have hne : message ≠ [] := by
        rintro rfl
        exact h (Nat.zero_le _)
      have hm := hmax hne
      rw [if_neg (by omega)]
      obtain ⟨p, ps, hps⟩ := List.exists_cons_of_ne_nil (chunks_ne_nil m (message.drop m))
      have hlt : (message.drop m).length < message.length := by
        rw [List.length_drop]
        omega
      have hr (c : WebSocketClient) (t : Transport) :
          sendFrames m n fin (fragmentOpcode none) (message.drop m) (fun _ => hm) c t =
            sendFragments n (pieces none fin (chunks m (message.drop m))) c t :=
        ih _ hlt (fun _ => hm) c t rfl
      rw [hps] at hr ⊢
      rw [pieces, sendFragments]
      simp only [h, decide_false, Bool.and_false, if_false]
      split
      · rfl
      · exact hr _ _

theorem afterSend_success (h : ntSuccess status) :
    afterSend c status = c := by
  rw [afterSend, if_neg (fun hs => hs.1 h)]

theorem sendFragments_cons :
    sendFragments n (f :: fs) c t =
      let r := transmitFragment c.http2 (t.answers t.attempts) n f
      if ¬ ntSuccess r.1 then (r.1, afterSend c r.1, t.use r.2)
      else sendFragments n fs (afterSend c r.1) (t.use r.2) := rfl

/-- The transport after `count` answers and more frames. -/
def Transport.after (t : Transport) (count : ℕ) (frames : List Bytes) : Transport :=
  { t with attempts := t.attempts + count, handed := t.handed ++ frames }

theorem Transport.use_after (t : Transport) (frame : Option Bytes) (count : ℕ)
    (frames : List Bytes) :
    (t.use frame).after count frames = t.after (count + 1) (frame.toList ++ frames) := by
  simp only [Transport.use, Transport.after, List.append_assoc, Transport.mk.injEq, true_and,
    and_true]
  omega

theorem transmitFragment_cases (http2 : Bool) (answer : SendAnswer) (n : ℕ)
    (f : Fragment MessageKind UInt8) :
    ((transmitFragment http2 answer n f).2 = none ∧
      ¬ ntSuccess (transmitFragment http2 answer n f).1) ∨
    ∃ frame, Carries frame f ∧ (transmitFragment http2 answer n f).2 = some frame := by
  rcases transmit_cases http2 answer (fragmentOpcode f.kind) f.payload n f.final with
    h | ⟨key, frame, he, hf⟩
  · exact .inl h
  · exact .inr ⟨frame, encodeFrame_carries he, hf⟩

theorem sendFragments_spec (n : ℕ) (fs : List (Fragment MessageKind UInt8)) (c : WebSocketClient)
    (t : Transport) :
    (∃ frames, List.Forall₂ Carries frames fs ∧
      sendFragments n fs c t = (statusSuccess, c, t.after fs.length frames)) ∨
    ∃ done f left frames, fs = done ++ f :: left ∧ List.Forall₂ Carries frames done ∧
      (∀ i g, done[i]? = some g →
        ntSuccess (transmitFragment c.http2 (t.answers (t.attempts + i)) n g).1) ∧
      let r := transmitFragment c.http2 (t.answers (t.attempts + done.length)) n f
      ¬ ntSuccess r.1 ∧
        sendFragments n fs c t =
          (r.1, afterSend c r.1, t.after (done.length + 1) (frames ++ r.2.toList)) := by
  induction fs generalizing t with
  | nil =>
    refine .inl ⟨[], .nil, ?_⟩
    rw [sendFragments, Transport.after, List.append_nil]
    rfl
  | cons f fs ih =>
    rw [sendFragments_cons]
    simp only
    by_cases hs : ntSuccess (transmitFragment c.http2 (t.answers t.attempts) n f).1
    · rw [if_neg (not_not.2 hs), afterSend_success hs]
      rcases transmitFragment_cases c.http2 (t.answers t.attempts) n f with ⟨-, h⟩ | ⟨b, hb, hr⟩
      · exact absurd hs h
      rw [hr]
      rcases ih (t.use (some b)) with ⟨frames, hf, h⟩ | ⟨done, g, left, frames, rfl, hf, hd, hg, h⟩
      · refine .inl ⟨b :: frames, .cons hb hf, ?_⟩
        rw [h, Transport.use_after]
        rfl
      · refine .inr ⟨f :: done, g, left, b :: frames, rfl, .cons hb hf, ?_, ?_⟩
        · rintro (_ | i) k hk
          · obtain rfl := Option.some.inj hk
            exact hs
          · have := hd i k hk
            rwa [show (t.use (some b)).attempts + i = t.attempts + (i + 1) by
              simp only [Transport.use]; omega] at this
        · have ha : (t.use (some b)).attempts + done.length = t.attempts + (f :: done).length := by
            simp only [Transport.use, List.length_cons]
            omega
          rw [ha] at hg h
          refine ⟨hg, ?_⟩
          rw [h, Transport.use_after]
          rfl
    · refine .inr ⟨[], f, fs, [], rfl, .nil, fun i g h => ?_, hs, ?_⟩
      · rw [List.getElem?_nil] at h
        cases h
      · rw [if_pos hs]
        rfl

/-! ## One call -/

def Describes (c : WebSocketClient) : Option (MessageKind × Bytes) → Prop
  | none => c.sendFragmentOpen = false
  | some (k, p) =>
    c.sendFragmentOpen = true ∧ c.sendFragmentOpcode = fragmentOpcode (some k) ∧
      (k = .text → advanceUtf8 {} p = some c.sendTextUtf8)

theorem advanceUtf8State_ok {data : Bytes} {s s' : Utf8State}
    (h : advanceUtf8State data fin s = .ok s') :
    advanceUtf8 s data = some s' ∧ (fin = true → s'.remaining = 0) := by
  unfold advanceUtf8State at h
  split at h
  · cases h
  · rename_i s₁ hs
    split_ifs at h with hf
    · obtain rfl := Except.ok.inj h
      rw [not_and, not_not] at hf
      exact ⟨hs, hf⟩

theorem checked_target (h : checkSendFrame (fragmentOpcode f.kind) f.payload n f.final c = .ok utf8)
    (ho : Describes c o) :
    ∃ k p, f.target o = some (k, p) ∧
      (k = .text → advanceUtf8 {} p = some utf8 ∧ (f.final = true → utf8.remaining = 0)) ∧
      textFragment c (fragmentOpcode f.kind) = decide (k = .text) ∧
      match f.kind with
      | some k' => k' = k ∧ o = none
      | none => c.sendFragmentOpen = true ∧ c.sendFragmentOpcode = fragmentOpcode (some k) := by
  obtain ⟨kind, final, payload⟩ := f
  obtain ⟨-, hopen, -, hu, -⟩ := checkSendFrame_ok h
  cases kind with
  | some k =>
    cases o with
    | some kp =>
      rw [ho.1] at hopen
      cases k <;> cases hopen
    | none =>
      refine ⟨k, payload, rfl, ?_, ?_, rfl, rfl⟩
      · rintro rfl
        exact advanceUtf8State_ok hu
      · cases k <;> rfl
  | none =>
    cases o with
    | none =>
      rw [show c.sendFragmentOpen = false from ho] at hopen
      cases hopen
    | some kp =>
      obtain ⟨k, p⟩ := kp
      obtain ⟨ho1, ho2, ho3⟩ := ho
      refine ⟨k, p ++ payload, rfl, ?_, ?_, ho1, ho2⟩
      · rintro rfl
        have ht : textFragment c .continuation = true := by
          rw [textFragment, ho2]
          rfl
        simp only [fragmentUtf8, fragmentOpcode, ht, if_true] at hu
        obtain ⟨ha, hf⟩ := advanceUtf8State_ok hu
        refine ⟨?_, hf⟩
        rw [advanceUtf8_append, ho3 rfl]
        exact ha
      · rw [show fragmentOpcode none = .continuation from rfl, textFragment, ho2]
        cases k <;> rfl

/-- What holds of the frames handed over and of the fragments whose frames they are. -/
structure System.Agrees (s : System) (wire calls : Assembly MessageKind UInt8) : Prop where
  whole : ∀ frame ∈ s.transport.handed, ∃ f, readFrame frame = some (f, [])
  wire_eq : assemble {} (wireFragments s.transport.handed) = some wire
  calls_eq : assemble {} s.fragments = some calls
  messages : wire.messages = calls.messages
  texts : ∀ m ∈ wire.messages, m.1 = .text → ValidUtf8 m.2
  opening : s.client.connected = true →
    wire.opening = calls.opening ∧ Describes s.client wire.opening

def System.Invariant (s : System) : Prop := ∃ wire calls, s.Agrees wire calls

theorem System.Invariant.legal (h : s.Invariant) : s.Legal := by
  obtain ⟨wire, calls, h⟩ := h
  exact ⟨h.whole, wire, calls, h.wire_eq, h.calls_eq, h.messages, h.texts⟩

theorem start_invariant (http2 : Bool) (answers : ℕ → SendAnswer) :
    (System.start http2 answers).Invariant :=
  ⟨{}, {}, fun _ h => absurd h List.not_mem_nil, rfl, rfl, rfl,
    fun _ h => absurd h List.not_mem_nil, fun _ => ⟨rfl, rfl⟩⟩

theorem carries_whole {frames : List Bytes}
    (h : List.Forall₂ Carries frames fs) : ∀ frame ∈ frames, ∃ f, readFrame frame = some (f, []) := by
  induction h with
  | nil => exact fun _ h => absurd h List.not_mem_nil
  | cons h _ ih =>
    rintro frame (_ | ⟨_, hf⟩)
    · exact ⟨_, h⟩
    · exact ih frame hf

theorem afterSend_cases (h : ¬ ntSuccess status) :
    (afterSend c status).connected = false ∧ isConnectionTerminalStatus status = true ∨
      afterSend c status = c ∧ isConnectionTerminalStatus status = false := by
  unfold afterSend
  cases ht : isConnectionTerminalStatus status with
  | false => exact .inr ⟨if_neg (fun hs => Bool.false_ne_true hs.2), rfl⟩
  | true =>
    rw [if_pos ⟨h, rfl⟩]
    refine .inl ⟨?_, rfl⟩
    split <;> rfl

section Agrees

variable {s : System} {wire calls : Assembly MessageKind UInt8} {c : WebSocketClient}
  {t : Transport} {frames : List Bytes}

/-- Frames that are no fragments, or none at all. -/
theorem System.Agrees.same (h : s.Agrees wire calls) (ht : t.handed = s.transport.handed ++ frames)
    (hw : ∀ frame ∈ frames, ∃ f, readFrame frame = some (f, [])) (hf : wireFragments frames = [])
    (hc : c.connected = true → c = s.client) : System.Agrees ⟨c, t, s.fragments⟩ wire calls where
  whole := by
    intro frame hm
    rw [ht, List.mem_append] at hm
    exact hm.elim (h.whole frame) (hw frame)
  wire_eq := by
    rw [ht, wireFragments_append, hf, List.append_nil]
    exact h.wire_eq
  calls_eq := h.calls_eq
  messages := h.messages
  texts := h.texts
  opening := by
    intro hcon
    obtain rfl := hc hcon
    exact h.opening hcon

variable {f : Fragment MessageKind UInt8} {k : MessageKind} {p : Bytes} {n : ℕ}

theorem assemble_frameFragments (a : Assembly MessageKind UInt8)
    (f : Fragment MessageKind UInt8) (n : ℕ) : assemble a (frameFragments f n) = Fragments.step a f := by
  rw [frameFragments, assemble_split _ _ _ _ (chunks_ne_nil _ _), flatten_chunks]

/-- All the frames of a fragment. -/
theorem System.Agrees.complete (h : s.Agrees wire calls) (hcon : s.client.connected = true)
    (ht : t.handed = s.transport.handed ++ frames)
    (hf : List.Forall₂ Carries frames (frameFragments f n))
    (hk : f.target wire.opening = some (k, p))
    (hu : k = .text → f.final = true → ValidUtf8 p)
    (hc : c.connected = true → Describes c (if f.final then none else some (k, p))) :
    System.Agrees ⟨c, t, s.fragments ++ [f]⟩ (wire.extend k p f.final)
      (calls.extend k p f.final) where
  whole := by
    intro frame hm
    rw [ht, List.mem_append] at hm
    exact hm.elim (h.whole frame) (carries_whole hf frame)
  wire_eq := by
    rw [ht, wireFragments_append, wireFragments_carries hf, assemble_append, h.wire_eq,
      Option.bind_some, assemble_frameFragments, step_target, hk]
    rfl
  calls_eq := by
    rw [assemble_append, h.calls_eq, Option.bind_some, assemble_singleton, step_target,
      ← (h.opening hcon).1, hk]
    rfl
  messages := by
    unfold Assembly.extend
    split
    · simp only [h.messages]
    · exact h.messages
  texts := by
    unfold Assembly.extend
    intro m hm
    split at hm
    · rename_i hfin
      rcases List.mem_append.1 hm with hm | hm
      · exact h.texts m hm
      · obtain rfl := List.mem_singleton.1 hm
        exact fun hk => hu hk hfin
    · exact h.texts m hm
  opening := by
    intro hcon
    have := hc hcon
    unfold Assembly.extend
    split
    · rename_i hfin
      rw [if_pos hfin] at this
      exact ⟨rfl, this⟩
    · rename_i hfin
      rw [if_neg hfin] at this
      exact ⟨rfl, this⟩

theorem System.Agrees.broken (h : s.Agrees wire calls)
    (ht : t.handed = s.transport.handed ++ frames) {done left : List (Fragment MessageKind UInt8)}
    (hf : List.Forall₂ Carries frames done) (hd : frameFragments f n = done ++ left)
    (hl : left ≠ []) (hk : f.target wire.opening = some (k, p)) (hc : c.connected = false) :
    System.Invariant ⟨c, t, s.fragments⟩ := by
  have hall : assemble wire (done ++ left) = some (wire.extend k p f.final) := by
    rw [← hd, assemble_frameFragments, step_target, hk]
    rfl
  obtain ⟨wire', hwire⟩ := assemble_of_append hall
  have hmsg : wire'.messages = wire.messages :=
    assemble_messages (final_of_mem_pieces f.final hd hl) hwire
  refine ⟨wire', calls, ?_, ?_, h.calls_eq, hmsg.trans h.messages, by rw [hmsg]; exact h.texts, ?_⟩
  · intro frame hm
    rw [ht, List.mem_append] at hm
    exact hm.elim (h.whole frame) (carries_whole hf frame)
  · rw [ht, wireFragments_append, wireFragments_carries hf, assemble_append, h.wire_eq,
      Option.bind_some, hwire]
  · intro hcon
    rw [show c.connected = true from hcon] at hc
    cases hc

end Agrees

theorem Call.perform_fragment
    (h : call.fragment = some (f, n)) (c : WebSocketClient) (t : Transport) :
    call.perform c t = sendFrame (fragmentOpcode f.kind) f.payload n f.final c t := by
  cases call <;> cases h <;> rfl

theorem Call.perform_control (h : call.fragment = none) :
    ∃ opcode payload n, isControlOpcode opcode = true ∧
      ∀ c t, call.perform c t = sendControlFrame opcode payload n c t := by
  cases call with
  | sendPing payload n => exact ⟨.ping, payload, n, rfl, fun _ _ => rfl⟩
  | sendPong payload n => exact ⟨.pong, payload, n, rfl, fun _ _ => rfl⟩
  | sendText => cases h
  | sendBinary => cases h
  | sendContinuation => cases h

theorem sendControlFrame_cases (opcode : WebSocketOpcode) (payload : Bytes) (n : ℕ)
    (c : WebSocketClient) (t : Transport) :
    (∃ status, sendControlFrame opcode payload n c t = (status, c, t)) ∨
      sendControlFrame opcode payload n c t = encodeAndSendFrame opcode payload n true c t := by
  unfold sendControlFrame
  split
  · exact .inl ⟨_, rfl⟩
  split
  · exact .inl ⟨_, rfl⟩
  split
  · exact .inl ⟨_, rfl⟩
  split
  · exact .inl ⟨_, rfl⟩
  · exact .inr rfl

theorem afterSend_connected
    (h : (afterSend c status).connected = true) : afterSend c status = c := by
  by_cases hs : ntSuccess status
  · exact afterSend_success hs
  · rcases afterSend_cases (c := c) hs with ⟨hf, -⟩ | ⟨hc, -⟩
    · rw [hf] at h
      cases h
    · exact hc

theorem sendControlFrame_spec (opcode : WebSocketOpcode) (payload : Bytes) (n : ℕ)
    (hop : isControlOpcode opcode = true) (c : WebSocketClient) (t : Transport) :
    ∃ frames, (sendControlFrame opcode payload n c t).2.2.handed = t.handed ++ frames ∧
      (∀ frame ∈ frames, ∃ f, readFrame frame = some (f, [])) ∧ wireFragments frames = [] ∧
      ((sendControlFrame opcode payload n c t).2.1.connected = true →
        (sendControlFrame opcode payload n c t).2.1 = c) := by
  rcases sendControlFrame_cases opcode payload n c t with ⟨status, h⟩ | h
  · rw [h]
    exact ⟨[], (List.append_nil _).symm, fun _ h => absurd h List.not_mem_nil, rfl, fun _ => rfl⟩
  rw [h]
  rcases transmit_cases c.http2 (t.answers t.attempts) opcode payload n true with
    ⟨hr, -⟩ | ⟨key, frame, he, hr⟩
  · refine ⟨[], ?_, fun _ h => absurd h List.not_mem_nil, rfl, afterSend_connected⟩
    simp only [encodeAndSendFrame, hr, Transport.use, Option.toList_none]
  · have hf := readFrame_encodeFrame he []
    rw [List.append_nil] at hf
    refine ⟨[frame], ?_, ?_, wireFragments_control hf hop, afterSend_connected⟩
    · simp only [encodeAndSendFrame, hr, Transport.use, Option.toList_some]
    · intro b hb
      obtain rfl := List.mem_singleton.1 hb
      exact ⟨_, hf⟩

theorem sendFrame_error (h : checkSendFrame opcode message n fin c = .error status) :
    sendFrame opcode message n fin c t = (status, c, t) := by
  unfold sendFrame
  split
  · rename_i s hs
    rw [h] at hs
    rw [Except.error.inj hs]
  · rename_i u hs
    rw [h] at hs
    cases hs

theorem sendFrame_ok (h : checkSendFrame (fragmentOpcode f.kind) f.payload n f.final c = .ok utf8) :
    sendFrame (fragmentOpcode f.kind) f.payload n f.final c t =
      let r := sendFragments n (frameFragments f n) c t
      if ¬ ntSuccess r.1 then r
      else (statusSuccess, afterFragment (fragmentOpcode f.kind) f.final utf8 r.2.1, r.2.2) := by
  unfold sendFrame
  split
  · rename_i s hs
    rw [h] at hs
    cases hs
  · rename_i u hs
    rw [h] at hs
    obtain rfl := Except.ok.inj hs
    rw [sendFrames_eq]
    rfl

theorem describes_afterFragment (hu : k = .text → advanceUtf8 {} p = some utf8)
    (ht : textFragment c (fragmentOpcode f.kind) = decide (k = .text))
    (hk : match f.kind with
      | some k' => k' = k ∧ o = none
      | none => c.sendFragmentOpen = true ∧ c.sendFragmentOpcode = fragmentOpcode (some k)) :
    Describes (afterFragment (fragmentOpcode f.kind) f.final utf8 c)
      (if f.final then none else some (k, p)) := by
  unfold afterFragment
  by_cases hfin : f.final = true
  · rw [if_pos hfin, if_pos hfin]
    rfl
  · rw [if_neg hfin, if_neg hfin]
    refine ⟨rfl, ?_, ?_⟩
    · cases hkind : f.kind with
      | some k' =>
        rw [hkind] at hk
        obtain ⟨rfl, -⟩ := hk
        cases k' <;> rfl
      | none =>
        rw [hkind] at hk
        exact hk.2
    · rintro rfl
      rw [hu rfl]
      simp only [ht, decide_true, if_true]

theorem harmless_describes (h : Call.Harmless f utf8 c) (ho : Describes c o)
    (hu : k = .text → advanceUtf8 {} p = some utf8)
    (hk : match f.kind with
      | some k' => k' = k ∧ o = none
      | none => c.sendFragmentOpen = true ∧ c.sendFragmentOpcode = fragmentOpcode (some k)) :
    Describes c (if f.final then none else some (k, p)) := by
  unfold Call.Harmless at h
  cases hkind : f.kind with
  | some k' =>
    rw [hkind] at h hk
    rw [if_pos h]
    rw [hk.2] at ho
    exact ho
  | none =>
    rw [hkind] at h hk
    rw [if_neg (by rw [h.1]; exact Bool.false_ne_true)]
    refine ⟨hk.1, hk.2, fun ht => ?_⟩
    rw [hu ht, h.2]

theorem Call.complete_eq {handed : ℕ} (h : call.fragment = some (f, n)) :
    call.complete handed = if handed = (frameFragments f n).length then [f] else [] := by
  rw [Call.complete, h]

theorem frameFragments_ne_nil (f : Fragment MessageKind UInt8) (n : ℕ) :
    frameFragments f n ≠ [] := pieces_ne_nil (chunks_ne_nil _ _)

theorem step_fragment (hi : s.Invariant) (hcall : call.fragment = some (f, n))
    (hs : call.Steady s.client s.transport) : (s.step call).Invariant := by
  obtain ⟨wire, calls, h⟩ := hi
  cases hchk : checkSendFrame (fragmentOpcode f.kind) f.payload n f.final s.client with
  | error status =>
    -- nothing is sent
    have hz : 0 ≠ (frameFragments f n).length :=
      (List.length_pos_iff.2 (frameFragments_ne_nil f n)).ne
    rw [System.step, Call.perform_fragment hcall, sendFrame_error hchk]
    simp only [Call.complete_eq hcall, Nat.sub_self]
    rw [if_neg hz, List.append_nil]
    exact ⟨wire, calls, h⟩
  | ok utf8 =>
    have hcon := (checkSendFrame_ok hchk).1
    obtain ⟨ho, hd⟩ := h.opening hcon
    obtain ⟨k, p, htarget, hutf8, htext, hkind⟩ := checked_target hchk hd
    have hvalid : k = .text → f.final = true → ValidUtf8 p := fun hk hf =>
      advanceUtf8_iff.1 ⟨utf8, (hutf8 hk).1, (hutf8 hk).2 hf⟩
    have hsteady := hs f n hcall utf8 hchk
    rw [System.step, Call.perform_fragment hcall]
    simp only [Call.complete_eq hcall]
    rcases sendFragments_spec n (frameFragments f n) s.client s.transport with
      ⟨frames, hf, hr⟩ | ⟨done, g, left, frames, hfs, hf, hdone, hg, hr⟩
    · -- every frame was sent
      have hlen := hf.length_eq
      have hsend : sendFrame (fragmentOpcode f.kind) f.payload n f.final s.client s.transport =
          (statusSuccess, afterFragment (fragmentOpcode f.kind) f.final utf8 s.client,
            s.transport.after (frameFragments f n).length frames) := by
        rw [sendFrame_ok hchk, hr]
        exact if_neg (not_not.2 ntSuccess_success)
      rw [hsend]
      simp only
      rw [if_pos (by simp only [Transport.after, List.length_append]; omega)]
      exact ⟨_, _, h.complete hcon rfl hf htarget hvalid
        fun _ => describes_afterFragment (fun hk => (hutf8 hk).1) htext hkind⟩
    · have hlen := hf.length_eq
      have hfl : (frameFragments f n).length = done.length + 1 + left.length := by
        rw [hfs, List.length_append, List.length_cons]
        omega
      have hst := hsteady done g left hfs hdone hg
      have hcases := transmitFragment_cases s.client.http2
        (s.transport.answers (s.transport.attempts + done.length)) n g
      generalize transmitFragment s.client.http2
        (s.transport.answers (s.transport.attempts + done.length)) n g = r at hg hr hst hcases
      have hsend : sendFrame (fragmentOpcode f.kind) f.payload n f.final s.client s.transport =
          (r.1, afterSend s.client r.1,
            s.transport.after (done.length + 1) (frames ++ r.2.toList)) := by
        rw [sendFrame_ok hchk, hr]
        exact if_pos hg
      rw [hsend]
      simp only
      rcases hcases with ⟨hnone, -⟩ | ⟨b, hb, hsome⟩
      · -- the failing frame was not handed over
        rw [hnone, Option.toList_none, List.append_nil,
          if_neg (by simp only [Transport.after, List.length_append]; omega), List.append_nil]
        rcases afterSend_cases (c := s.client) hg with ⟨hlost, -⟩ | ⟨hkept, hterm⟩
        · exact h.broken rfl hf hfs (List.cons_ne_nil _ _) htarget hlost
        · rcases hst with hst | ⟨rfl, -⟩ | ⟨-, hne, -⟩
          · rw [hterm] at hst
            cases hst
          · cases hf
            exact ⟨wire, calls, h.same rfl (fun _ h => absurd h List.not_mem_nil) rfl
              fun _ => hkept⟩
          · exact absurd hnone hne
      · rw [hsome, Option.toList_some]
        have hf' : List.Forall₂ Carries (frames ++ [b]) (done ++ [g]) :=
          List.rel_append hf (.cons hb .nil)
        by_cases hleft : left = []
        · -- it was the last one
          subst hleft
          rw [if_pos (by
            simp only [Transport.after, List.length_append, List.length_singleton]
            simp only [List.length_nil] at hfl
            omega)]
          rw [← hfs] at hf'
          refine ⟨_, _, h.complete hcon rfl hf' htarget hvalid fun hstill => ?_⟩
          rcases afterSend_cases (c := s.client) hg with ⟨hlost, -⟩ | ⟨hkept, hterm⟩
          · rw [hlost] at hstill
            cases hstill
          · rw [hkept]
            rcases hst with hst | ⟨-, hnone⟩ | ⟨-, -, hharm⟩
            · rw [hterm] at hst
              cases hst
            · rw [hsome] at hnone
              cases hnone
            · exact harmless_describes hharm hd (fun hk => (hutf8 hk).1) hkind
        · have hpos := List.length_pos_iff.2 hleft
          rw [if_neg (by
            simp only [Transport.after, List.length_append, List.length_singleton]
            omega), List.append_nil]
          rcases afterSend_cases (c := s.client) hg with ⟨hlost, -⟩ | ⟨-, hterm⟩
          · exact h.broken rfl hf' (by rw [hfs, List.append_assoc]; rfl) hleft htarget hlost
          · rcases hst with hst | ⟨-, hnone⟩ | ⟨hnil, -⟩
            · rw [hterm] at hst
              cases hst
            · rw [hsome] at hnone
              cases hnone
            · exact absurd hnil hleft

theorem step_invariant (hi : s.Invariant)
    (hs : call.Steady s.client s.transport) : (s.step call).Invariant := by
  cases hcall : call.fragment with
  | some fn => exact step_fragment hi hcall hs
  | none =>
    obtain ⟨wire, calls, h⟩ := hi
    obtain ⟨opcode, payload, n, hop, hperform⟩ := Call.perform_control hcall
    obtain ⟨frames, hhanded, hw, hf, hc⟩ := sendControlFrame_spec opcode payload n hop s.client
      s.transport
    refine ⟨wire, calls, ?_⟩
    rw [System.step, hperform]
    simp only [Call.complete, hcall, List.append_nil]
    exact h.same hhanded hw hf hc

theorem run_invariant {calls : List Call} :
    ∀ {s : System}, s.Invariant → s.Steady calls → (s.run calls).Invariant := by
  induction calls with
  | nil => exact fun hi _ => hi
  | cons call calls ih => exact fun hi hs => ih (step_invariant hi hs.1) hs.2

/-! ## Runs -/

/-- In every run without a call that fails half-way on an open connection, the frames handed
over are a legal sequence and carry the callers' fragments. -/
theorem outbound_legal (http2 : Bool) (answers : ℕ → SendAnswer) (calls : List Call)
    (h : (System.start http2 answers).Steady calls) :
    ((System.start http2 answers).run calls).Legal :=
  (run_invariant (start_invariant http2 answers) h).legal

theorem steady_single {f : Fragment MessageKind UInt8} {n : ℕ} {harmless : Prop}
    {c : WebSocketClient} {t : Transport}
    (h : let r := transmitFragment c.http2 (t.answers t.attempts) n f
      ntSuccess r.1 = true ∨ isConnectionTerminalStatus r.1 = true ∨ r.2 = none) :
    Steady [f] n harmless c t := by
  intro done g left hfs _ r hr
  cases done with
  | cons d done =>
    rw [List.cons_append, List.cons.injEq] at hfs
    cases done <;> cases hfs.2
  | nil =>
    rw [List.nil_append, List.cons.injEq] at hfs
    obtain ⟨rfl, rfl⟩ := hfs
    rcases h with h | h | h
    · exact absurd h hr
    · exact .inl h
    · exact .inr (.inl ⟨rfl, h⟩)

/-- The random generator fails once, and then every frame is sent. -/
def retryAnswers : ℕ → SendAnswer
  | 0 => { prepared := statusInsufficientResources, sent := 0 }
  | _ => { sent := 7 }

theorem outbound_legal_retry :
    ((System.start false retryAnswers).run
      [.sendText [0xc3] 15 false, .sendText [0xc3] 15 false, .sendPing [1] 15,
        .sendContinuation [0xa9] 15 true]).Legal := by
  refine outbound_legal false retryAnswers _ ⟨?_, ?_, ?_, ?_, trivial⟩
  · rintro f n h utf8 -
    obtain ⟨rfl, rfl⟩ := Prod.mk.inj (Option.some.inj h)
    have hf : frameFragments ⟨some .text, false, [0xc3]⟩ 15 = [⟨some .text, false, [0xc3]⟩] := by
      decide +kernel
    rw [hf]
    exact steady_single (.inr (.inr rfl))
  · rintro f n h utf8 -
    obtain ⟨rfl, rfl⟩ := Prod.mk.inj (Option.some.inj h)
    have hf : frameFragments ⟨some .text, false, [0xc3]⟩ 15 = [⟨some .text, false, [0xc3]⟩] := by
      decide +kernel
    rw [hf]
    exact steady_single (.inl (by decide +kernel))
  · exact fun f n h => by cases h
  · rintro f n h utf8 -
    obtain ⟨rfl, rfl⟩ := Prod.mk.inj (Option.some.inj h)
    have hf : frameFragments ⟨none, true, [0xa9]⟩ 15 = [⟨none, true, [0xa9]⟩] := by
      decide +kernel
    rw [hf]
    exact steady_single (.inl (by decide +kernel))

/-- The second frame of a message of three is not sent for want of memory. -/
def halfWayAnswers : ℕ → SendAnswer
  | 1 => { status := statusInsufficientResources, sent := 0 }
  | _ => { sent := 7 }

/-- After a call that failed between two frames, a message begins within the one before. -/
theorem outbound_interrupted :
    let s := (System.start false halfWayAnswers).run
      [.sendText [0x61, 0x62, 0x63] 15 true, .sendText [0x64] 15 true]
    s.client.connected = true ∧ ¬ s.Legal := by
  have hw : wireFragments ((System.start false halfWayAnswers).run
      [.sendText [0x61, 0x62, 0x63] 15 true, .sendText [0x64] 15 true]).transport.handed =
        [⟨some .text, false, [0x61]⟩, ⟨none, false, [0x62]⟩, ⟨some .text, true, [0x64]⟩] := by
    decide +kernel
  refine ⟨by decide +kernel, ?_⟩
  rintro ⟨-, wire, calls, h, -⟩
  rw [hw] at h
  cases h

end KernelHttp.WebSocket
