/-
  Reads that fail on the way (`tls/TlsConnection.cpp`).

  After a read that fails, a later call should go on as if the read had been slow.
-/
import KernelHttp.Tls.Unseen
import KernelHttp.Tls.Steps

namespace KernelHttp.Tls

open Program BigEndian

/-! ## The record in progress -/

/-- What is left of a stream behind its complete records. -/
def recordInProgress (data : Bytes) : Bytes :=
  if tlsRecordHeaderLength ≤ data.length ∧ TlsConnection.recordLength data ≤ data.length then
    recordInProgress (data.drop (TlsConnection.recordLength data))
  else data
termination_by data.length
decreasing_by
  rw [List.length_drop]
  have : tlsRecordHeaderLength ≤ TlsConnection.recordLength data := Nat.le_add_right _ _
  have : 0 < tlsRecordHeaderLength := by decide
  omega

variable {data : Bytes}

theorem recordLength_append (more : Bytes) (h : tlsRecordHeaderLength ≤ data.length) :
    TlsConnection.recordLength (data ++ more) = TlsConnection.recordLength data := by
  have h5 : 5 ≤ data.length := h
  rw [TlsConnection.recordLength, TlsConnection.recordLength, List.drop_append_of_le_length (by omega),
    List.take_append_of_le_length (by rw [List.length_drop]; omega)]

theorem recordInProgress_short (h : data.length < tlsRecordHeaderLength) :
    recordInProgress data = data := by
  rw [recordInProgress, if_neg (fun hc => absurd hc.1 (not_le.2 h))]

theorem recordInProgress_incomplete
    (h : data.length < TlsConnection.recordLength data) : recordInProgress data = data := by
  rw [recordInProgress, if_neg (fun hc => absurd hc.2 (not_le.2 h))]

theorem recordInProgress_complete (more : Bytes)
    (h : tlsRecordHeaderLength ≤ data.length) (hlen : TlsConnection.recordLength data ≤ data.length) :
    recordInProgress (data ++ more) =
      recordInProgress (data.drop (TlsConnection.recordLength data) ++ more) := by
  rw [recordInProgress, recordLength_append more h, if_pos, List.drop_append_of_le_length hlen]
  rw [List.length_append]
  omega

theorem parseRecord_eq_ok {view : TlsRecordView} (h : parseRecord data = .ok view) :
    tlsRecordHeaderLength ≤ data.length ∧ view.bytesConsumed = TlsConnection.recordLength data ∧
      TlsConnection.recordLength data ≤ data.length := by
  unfold parseRecord at h
  split at h
  case h_1 type major minor hi lo rest =>
    split at h
    · cases h
    split at h
    · cases h
    simp only at h
    split_ifs at h with hlong hshort
    obtain rfl := Except.ok.inj h
    refine ⟨?_, rfl, ?_⟩
    · simp [tlsRecordHeaderLength]
    · change tlsRecordHeaderLength + ofBigEndian [hi, lo] ≤ _
      simp only [List.length_cons, tlsRecordHeaderLength]
      omega
  case h_2 => cases h

theorem parseRecord_eq_more (h : parseRecord data = .error statusMoreProcessingRequired)
    (hheader : tlsRecordHeaderLength ≤ data.length) :
    data.length < TlsConnection.recordLength data := by
  unfold parseRecord at h
  split at h
  case h_1 type major minor hi lo rest =>
    split at h
    · cases h
    split at h
    · cases h
    simp only at h
    split_ifs at h with hlong hshort
    · cases h
    · change _ < tlsRecordHeaderLength + ofBigEndian [hi, lo]
      simp only [List.length_cons, tlsRecordHeaderLength]
      omega
  case h_2 hcons =>
    match data, hheader with
    | a :: b :: c :: d :: e :: rest, _ => exact absurd rfl (hcons a b c d e rest)

/-! ## Octets that come in pieces -/

/-- What the transport brings: pieces, and what comes later. -/
def delivered (chunks : List Bytes) (later : List TransportRead) : List TransportRead :=
  chunks.map TransportRead.octets ++ later

@[simp] theorem delivered_nil (later : List TransportRead) : delivered [] later = later := rfl

@[simp] theorem delivered_cons (chunk : Bytes) (chunks : List Bytes) (later : List TransportRead) :
    delivered (chunk :: chunks) later = .octets chunk :: delivered chunks later := rfl

/-- A result behind octets that are already there. -/
def prepended (data : Bytes) (r : Except NTSTATUS Bytes × List TransportRead) :
    Except NTSTATUS Bytes × List TransportRead := (r.1.map (data ++ ·), r.2)

theorem prepended_append (data more : Bytes) (r : Except NTSTATUS Bytes × List TransportRead) :
    prepended data (prepended more r) = prepended (data ++ more) r := by
  obtain ⟨x, rest⟩ := r
  cases x with
  | error status => rfl
  | ok octets => simp [prepended, Except.map]

@[simp] theorem prepended_nil (r : Except NTSTATUS Bytes × List TransportRead) : prepended [] r = r := by
  obtain ⟨x, rest⟩ := r
  cases x <;> rfl

/-- The ways in which pieces answer a read of `n` octets, whatever comes later: they are enough,
    or one of them is the end of the stream, or the read goes on. -/
inductive Answers (chunks : List Bytes) (n : ℕ) : Prop
  | enough (data : Bytes) (rest : List Bytes) (hlength : data.length = n)
      (hoctets : chunks.flatten = data ++ rest.flatten)
      (h : ∀ later, TlsConnection.receiveExactly (delivered chunks later) n =
        (.ok data, delivered rest later))
  | ended (rest : List Bytes) (h : ∀ later, TlsConnection.receiveExactly (delivered chunks later) n =
        (.error statusConnectionDisconnected, delivered rest later))
  | waits (hshort : chunks.flatten.length < n)
      (h : ∀ later, TlsConnection.receiveExactly (delivered chunks later) n =
        prepended chunks.flatten
          (TlsConnection.receiveExactly later (n - chunks.flatten.length)))

theorem answers (chunks : List Bytes) (n : ℕ) : Answers chunks n := by
  induction chunks generalizing n with
  | nil =>
    cases n with
    | zero =>
      refine .enough [] [] rfl rfl fun later => ?_
      rw [TlsConnection.receiveExactly]
    | succ n => exact .waits (Nat.succ_pos n) fun later => (prepended_nil _).symm
  | cons chunk chunks ih =>
    cases n with
    | zero =>
      refine .enough [] (chunk :: chunks) rfl rfl fun later => ?_
      rw [TlsConnection.receiveExactly]
    | succ n =>
      by_cases hempty : chunk = []
      · refine .ended chunks fun later => ?_
        rw [delivered_cons, TlsConnection.receiveExactly, if_pos hempty]
      by_cases hmore : n + 1 < chunk.length
      · refine .enough (chunk.take (n + 1)) (chunk.drop (n + 1) :: chunks) ?_ ?_ fun later => ?_
        · rw [List.length_take]
          omega
        · rw [List.flatten_cons, List.flatten_cons, ← List.append_assoc, List.take_append_drop]
        · rw [delivered_cons, TlsConnection.receiveExactly, if_neg hempty, if_pos hmore]
          rfl
      have hstep : ∀ later, TlsConnection.receiveExactly (delivered (chunk :: chunks) later) (n + 1) =
          prepended chunk (TlsConnection.receiveExactly (delivered chunks later)
            (n + 1 - chunk.length)) := by
        intro later
        rw [delivered_cons, TlsConnection.receiveExactly, if_neg hempty, if_neg hmore]
        cases TlsConnection.receiveExactly (delivered chunks later) (n + 1 - chunk.length) with
        | mk x rest => cases x <;> rfl
      cases ih (n + 1 - chunk.length) with
      | enough data rest hlength hoctets h =>
        refine .enough (chunk ++ data) rest ?_ ?_ fun later => ?_
        · rw [List.length_append, hlength]
          omega
        · rw [List.flatten_cons, hoctets, List.append_assoc]
        · rw [hstep, h]
          rfl
      | ended rest h =>
        refine .ended rest fun later => ?_
        rw [hstep, h]
        rfl
      | waits hshort h =>
        refine .waits ?_ fun later => ?_
        · rw [List.flatten_cons, List.length_append]
          omega
        · rw [hstep, h, prepended_append, List.flatten_cons, List.length_append, Nat.sub_sub]

namespace TlsConnection

variable {α β : Type} {E : Environment}

def receiving (s : TlsConnection) (incoming : List TransportRead) : TlsConnection :=
  { s with incoming }

/-- The transport takes another turn. -/
def redirected (incoming : List TransportRead) : Aside := { incoming := fun _ => incoming }

/-- Records and ends of the connection are counted besides. -/
def counting (records disconnects : ℕ) : Aside := { recordsRead := (· + records), disconnects }

/-- The count that a failure of the transport adds. -/
def endings (failure : FailureStatus) : ℕ :=
  if failure.val = statusConnectionDisconnected then 1 else 0

/-- The ways in which a program takes pieces that have come, whatever comes later: it returns,
    it fails, or it waits in a read, with octets of this read in hand. -/
inductive Takes (p : TlsProgram α) (s : TlsConnection) (chunks : List Bytes)
    (Q : TlsConnection → List Bytes → Prop) (W : TlsConnection → Bytes → Prop) : Prop
  | returns (a : α) (t : TlsConnection) (rest : List Bytes)
      (h : ∀ later, p (s.receiving (delivered chunks later)) =
        .ok a (t.receiving (delivered rest later))) (hQ : Q t rest)
  | fails (status : NTSTATUS) (t : TlsConnection) (rest : List Bytes)
      (h : ∀ later, p (s.receiving (delivered chunks later)) =
        .error status (t.receiving (delivered rest later)))
  | waits (t : TlsConnection) (inHand : Bytes) (records : ℕ) (hrecords : records ≤ 1)
      (hfails : ∀ (failure : FailureStatus) (later : List TransportRead),
        p (s.receiving (delivered chunks (.failed failure :: later))) =
          .error failure.val ((counting records (endings failure)).apply (t.receiving later)))
      (hslow : inHand = [] → ∀ later, p (s.receiving (delivered chunks later)) = p (t.receiving later))
      (hW : W t inHand)

variable {s t : TlsConnection}

/-- Taking a record out of the buffer does not depend on the transport and the counters. -/
theorem takeRecord_commutes {g : Aside} (hbuffer : g.inputBuffer = id)
    (hplaintext : g.plaintext [] = []) : Commutes g.apply (takeRecord E) := by
  obtain ⟨incoming, inputBuffer, plaintext, recordsRead, disconnects⟩ := g
  dsimp only at hbuffer hplaintext
  subst hbuffer
  have hclear : Commutes (Aside.apply ⟨incoming, id, plaintext, recordsRead, disconnects⟩)
      (modify fun s => { s with plaintext := [] } : TlsProgram PUnit) := by
    refine Commutes.modify fun s => ?_
    simp only [Aside.apply, hplaintext]
  refine Commutes.read (fun _ => rfl) fun _ => Commutes.bind (.ofExcept _) fun view =>
    Commutes.bind ?_ fun _ => Commutes.bind (.modify fun _ => rfl) fun _ => .pure _
  refine Commutes.read (fun _ => rfl) fun _ => Commutes.ite ?_ ?_
  · refine @Commutes.update _ _ _ (Aside.apply ⟨incoming, id, plaintext, recordsRead, disconnects⟩)
      (fun s : TlsConnection =>
        let result := s.readProtection.unprotect E.cng (E.answers s.calls) view s.serverWriteState
          tlsApplicationBufferLength
        { s with serverWriteState := result.state, calls := s.calls + 1 }) _
      (fun _ => rfl) (fun _ => rfl) fun _ => ?_
    exact .bind (.require _) fun _ => .bind hclear fun _ => .pure _
  · exact .bind (.require _) fun _ => .bind (.require _) fun _ => .bind hclear fun _ => .pure _

variable {data : Bytes} {rest : List TransportRead} {record : TlsMutablePlaintextRecord} {n : ℕ}

theorem openRecord_eq_ok {view : TlsRecordView} (h : openRecord E view s = .ok record t) :
    t.inputBuffer = s.inputBuffer ∧ t.plaintext = [] := by
  rw [openRecord] at h
  obtain ⟨_, _, hget, h⟩ := bind_eq_ok h
  cases hget
  split at h
  · obtain ⟨_, _, hget, h⟩ := bind_eq_ok h
    cases hget
    obtain ⟨_, _, hset, h⟩ := bind_eq_ok h
    cases hset
    obtain ⟨_, _, hrequire, h⟩ := bind_eq_ok h
    obtain ⟨-, rfl⟩ := require_eq_ok hrequire
    obtain ⟨_, _, hmodify, h⟩ := bind_eq_ok h
    cases hmodify
    cases h
    exact ⟨rfl, rfl⟩
  · obtain ⟨_, _, hrequire, h⟩ := bind_eq_ok h
    obtain ⟨-, rfl⟩ := require_eq_ok hrequire
    obtain ⟨_, _, hrequire, h⟩ := bind_eq_ok h
    obtain ⟨-, rfl⟩ := require_eq_ok hrequire
    obtain ⟨_, _, hmodify, h⟩ := bind_eq_ok h
    cases hmodify
    cases h
    exact ⟨rfl, rfl⟩

theorem takeRecord_eq_ok (h : takeRecord E s = .ok record t) :
    recordLength s.inputBuffer ≤ s.inputBuffer.length ∧
      t.inputBuffer = s.inputBuffer.drop (recordLength s.inputBuffer) ∧ t.plaintext = [] := by
  obtain ⟨_, _, hget, h⟩ := bind_eq_ok h
  cases hget
  obtain ⟨view, u, hview, h⟩ := bind_eq_ok h
  obtain ⟨hparse, rfl⟩ := ofExcept_eq_ok hview
  obtain ⟨opened, u, hopen, h⟩ := bind_eq_ok h
  obtain ⟨_, v, hmodify, h⟩ := bind_eq_ok h
  cases hmodify
  cases h
  obtain ⟨hbuffer, hplaintext⟩ := openRecord_eq_ok hopen
  obtain ⟨-, hconsumed, hlen⟩ := parseRecord_eq_ok hparse
  refine ⟨hlen, ?_, hplaintext⟩
  change u.inputBuffer.drop view.bytesConsumed = _
  rw [hbuffer, hconsumed]

theorem readExact_receiving (incoming : List TransportRead) :
    readExact n (s.receiving incoming) = (match (receiveExactly incoming n).1 with
      | .ok data => pure data
      | .error status => transportFailed status : TlsProgram Bytes)
        (s.receiving (receiveExactly incoming n).2) := rfl

theorem readExact_ok {incoming : List TransportRead}
    (h : receiveExactly incoming n = (.ok data, rest)) :
    readExact n (s.receiving incoming) = .ok data (s.receiving rest) := by
  rw [readExact_receiving, h]
  rfl

theorem readExact_error {incoming : List TransportRead} {status : NTSTATUS}
    (h : receiveExactly incoming n = (.error status, rest)) :
    readExact n (s.receiving incoming) = transportFailed status (s.receiving rest) := by
  rw [readExact_receiving, h]

theorem readExact_congr {incoming incoming' : List TransportRead}
    (h : receiveExactly incoming n = receiveExactly incoming' n) :
    readExact n (s.receiving incoming) = readExact n (s.receiving incoming') := by
  rw [readExact_receiving, h]
  rfl

/-- A read that waits ends with the failure. -/
theorem prepended_failed {failure : FailureStatus} {later : List TransportRead}
    (h : 0 < n) : prepended data (receiveExactly (.failed failure :: later) n) =
      (.error failure.val, later) := by
  obtain ⟨m, rfl⟩ := Nat.exists_eq_add_one.2 h
  rfl

theorem readRecordHeader_short (h : s.inputBuffer.length < tlsRecordHeaderLength)
    (incoming : List TransportRead) :
    readRecordHeader (s.receiving incoming) =
      (readExact (tlsRecordHeaderLength - s.inputBuffer.length) >>= fun data =>
        modify fun s => { s with inputBuffer := s.inputBuffer ++ data }) (s.receiving incoming) := by
  change Program.when (s.inputBuffer.length < tlsRecordHeaderLength) _ _ = _
  rw [Program.when, if_pos h]
  rfl

theorem readRecordHeader_there (h : tlsRecordHeaderLength ≤ s.inputBuffer.length)
    (incoming : List TransportRead) :
    readRecordHeader (s.receiving incoming) = .ok () (s.receiving incoming) := by
  change Program.when (s.inputBuffer.length < tlsRecordHeaderLength) _ _ = _
  rw [Program.when, if_neg (not_lt.2 h)]
  rfl

/-- What is there behind the header. -/
structure HeaderRead (s : TlsConnection) (chunks : List Bytes) (t : TlsConnection)
    (rest : List Bytes) : Prop where
  header : tlsRecordHeaderLength ≤ t.inputBuffer.length
  stream : t.inputBuffer ++ rest.flatten = s.inputBuffer ++ chunks.flatten
  exact : rest.flatten = chunks.flatten ∨ t.inputBuffer.length = tlsRecordHeaderLength
  shorter : rest.flatten.length ≤ chunks.flatten.length
  plaintext : t.plaintext = s.plaintext

theorem readRecordHeader_takes (s : TlsConnection) (chunks : List Bytes) :
    Takes readRecordHeader s chunks (HeaderRead s chunks) fun t inHand =>
      t = s ∧ inHand = chunks.flatten ∧ (s.inputBuffer ++ inHand).length < tlsRecordHeaderLength := by
  by_cases hshort : s.inputBuffer.length < tlsRecordHeaderLength
  · cases answers chunks (tlsRecordHeaderLength - s.inputBuffer.length) with
    | enough data rest hlength hoctets h =>
      have hheader : (s.inputBuffer ++ data).length = tlsRecordHeaderLength := by
        rw [List.length_append]
        omega
      refine .returns () { s with inputBuffer := s.inputBuffer ++ data } rest (fun later => ?_)
        ⟨hheader.ge, ?_, .inr hheader, ?_, rfl⟩
      · rw [readRecordHeader_short hshort, bind_of_ok (readExact_ok (h later))]
        rfl
      · rw [hoctets, List.append_assoc]
      · rw [hoctets, List.length_append]
        exact Nat.le_add_left _ _
    | ended rest h =>
      refine .fails statusConnectionDisconnected
        { s with history := { s.history with disconnects := s.history.disconnects + 1 } } rest
        fun later => ?_
      rw [readRecordHeader_short hshort, bind_of_error ((readExact_error (h later)).trans rfl)]
      rfl
    | waits hwait h =>
      refine .waits s chunks.flatten 0 zero_le_one (fun failure later => ?_) (fun hnone later => ?_)
        ⟨rfl, rfl, ?_⟩
      · have hread := h (.failed failure :: later)
        rw [prepended_failed (by omega)] at hread
        rw [readRecordHeader_short hshort, bind_of_error ((readExact_error hread).trans rfl)]
        rfl
      · have hread := h later
        rw [hnone, prepended_nil, List.length_nil, Nat.sub_zero] at hread
        rw [readRecordHeader_short hshort, readRecordHeader_short hshort, bind_apply,
          readExact_congr hread, ← bind_apply]
      · rw [List.length_append]
        omega
  · rw [not_lt] at hshort
    exact .returns () s chunks (fun later => readRecordHeader_there hshort _)
      ⟨hshort, rfl, .inl rfl, le_rfl, rfl⟩

/-- What follows the header. -/
def readRecordBody (E : Environment) : TlsProgram TlsMutablePlaintextRecord := do
  readRecordFragment
  takeRecord E

theorem readRecord_eq : readRecord E = readRecordHeader >>= fun _ => readRecordBody E := rfl

def fragmentCounted (s : TlsConnection) : TlsConnection := { s with recordsRead := s.recordsRead + 1 }

theorem readRecordFragment_cases (s : TlsConnection) :
    (∀ incoming, readRecordFragment (s.receiving incoming) = .ok () (s.receiving incoming)) ∨
    (∃ status, ∀ incoming,
      readRecordFragment (s.receiving incoming) = .error status (s.receiving incoming)) ∨
    (tlsRecordHeaderLength ≤ s.inputBuffer.length → s.inputBuffer.length < recordLength s.inputBuffer) ∧
      ∀ incoming, readRecordFragment (s.receiving incoming) =
        (readExact (recordLength s.inputBuffer - s.inputBuffer.length) >>= fun data =>
          modify fun s => { s with inputBuffer := s.inputBuffer ++ data })
        (s.fragmentCounted.receiving incoming) := by
  cases hparse : parseRecord s.inputBuffer with
  | ok view =>
    refine .inl fun incoming => ?_
    have hparse' : parseRecord (s.receiving incoming).inputBuffer = .ok view := hparse
    rw [readRecordFragment, bind_of_ok (rfl : (get : TlsProgram _) (s.receiving incoming) = _)]
    simp only [hparse']
    rfl
  | error status =>
    refine .inr ?_
    have hbody : ∀ incoming, readRecordFragment (s.receiving incoming) =
        (do
          require (status = statusMoreProcessingRequired) status
          require (recordLength s.inputBuffer ≤
            tlsRecordHeaderLength + (tlsMaxPlaintextLength + 2048)) statusInvalidNetworkResponse
          require (recordLength s.inputBuffer ≤ tlsIoBufferLength) statusBufferTooSmall
          recordReceivedTlsRecord
          readFragment) (s.receiving incoming) := by
      intro incoming
      have hparse' : parseRecord (s.receiving incoming).inputBuffer = .error status := hparse
      rw [readRecordFragment, bind_of_ok (rfl : (get : TlsProgram _) (s.receiving incoming) = _)]
      simp only [hparse']
      rfl
    by_cases hmore : status = statusMoreProcessingRequired
    · by_cases hlong : recordLength s.inputBuffer ≤
          tlsRecordHeaderLength + (tlsMaxPlaintextLength + 2048)
      · by_cases hroom : recordLength s.inputBuffer ≤ tlsIoBufferLength
        · by_cases hcount : s.recordsRead < hardMaxConnectionFrames
          · refine .inr ⟨fun hheader => parseRecord_eq_more (hmore ▸ hparse) hheader, fun incoming => ?_⟩
            rw [hbody, bind_of_ok (require_of hmore _ _), bind_of_ok (require_of hlong _ _),
              bind_of_ok (require_of hroom _ _)]
            have hcounted : recordReceivedTlsRecord (s.receiving incoming) =
                .ok () (s.fragmentCounted.receiving incoming) := by
              change (Program.require (s.recordsRead < hardMaxConnectionFrames) _ >>= _ :
                TlsProgram Unit) _ = _
              rw [bind_of_ok (require_of hcount _ _)]
              rfl
            rw [bind_of_ok hcounted]
            rfl
          · refine .inl ⟨statusInvalidNetworkResponse, fun incoming => ?_⟩
            rw [hbody, bind_of_ok (require_of hmore _ _), bind_of_ok (require_of hlong _ _),
              bind_of_ok (require_of hroom _ _)]
            refine bind_of_error ?_ _
            change (Program.require (s.recordsRead < hardMaxConnectionFrames) _ >>= _ :
              TlsProgram Unit) _ = _
            exact bind_of_error (require_of_not hcount _ _) _
        · refine .inl ⟨statusBufferTooSmall, fun incoming => ?_⟩
          rw [hbody, bind_of_ok (require_of hmore _ _), bind_of_ok (require_of hlong _ _)]
          exact bind_of_error (require_of_not hroom _ _) _
      · refine .inl ⟨statusInvalidNetworkResponse, fun incoming => ?_⟩
        rw [hbody, bind_of_ok (require_of hmore _ _)]
        exact bind_of_error (require_of_not hlong _ _) _
    · exact .inl ⟨status, fun incoming => (hbody incoming).trans
        (bind_of_error (require_of_not hmore _ _) _)⟩

/-- What is there behind a record. -/
structure RecordTaken (s : TlsConnection) (chunks : List Bytes) (t : TlsConnection)
    (rest : List Bytes) : Prop where
  progress : recordInProgress (t.inputBuffer ++ rest.flatten) =
    recordInProgress (s.inputBuffer ++ chunks.flatten)
  exact : rest.flatten = chunks.flatten ∧ (s.inputBuffer = [] → t.inputBuffer = []) ∨
    t.inputBuffer = []
  shorter : rest.flatten.length ≤ chunks.flatten.length
  plaintext : t.plaintext = []

theorem takeRecord_receiving (incoming : List TransportRead) :
    Commutes (redirected incoming).apply (takeRecord E) := takeRecord_commutes rfl rfl

theorem readRecordBody_takes (s : TlsConnection) (chunks : List Bytes)
    (hheader : tlsRecordHeaderLength ≤ s.inputBuffer.length) :
    Takes (readRecordBody E) s chunks
      (fun t rest => RecordTaken s chunks t rest ∧
        (s.inputBuffer.length = tlsRecordHeaderLength → t.inputBuffer = []))
      fun t inHand => t = s ∧ inHand = chunks.flatten ∧
        recordInProgress (s.inputBuffer ++ chunks.flatten) = s.inputBuffer ++ inHand := by
  rcases readRecordFragment_cases s with hthere | ⟨status, hfails⟩ | ⟨hshort, hreads⟩
  · cases htake : takeRecord E s with
    | ok record t =>
      obtain ⟨hlen, hbuffer, hplaintext⟩ := takeRecord_eq_ok htake
      refine .returns record t chunks (fun later => ?_)
        ⟨⟨?_, .inl ⟨rfl, fun hempty => ?_⟩, le_rfl, hplaintext⟩, fun hexact => ?_⟩
      · rw [readRecordBody, bind_of_ok (hthere _)]
        exact (takeRecord_receiving _).ok htake
      · rw [hbuffer, recordInProgress_complete _ hheader hlen]
      · rw [hbuffer, hempty, List.drop_nil]
      · have hleast : tlsRecordHeaderLength ≤ recordLength s.inputBuffer := Nat.le_add_right _ _
        rw [hbuffer, List.drop_eq_nil_iff, hexact]
        exact hleast
    | error status t =>
      refine .fails status t chunks fun later => ?_
      rw [readRecordBody, bind_of_ok (hthere _)]
      exact (takeRecord_receiving _).error htake
  · exact .fails status s chunks fun later => bind_of_error (hfails _) _
  specialize hshort hheader
  cases answers chunks (recordLength s.inputBuffer - s.inputBuffer.length) with
  | enough data rest hlength hoctets h =>
    let u : TlsConnection := { s.fragmentCounted with inputBuffer := s.inputBuffer ++ data }
    have hfragment (later : List TransportRead) :
        readRecordFragment (s.receiving (delivered chunks later)) =
          .ok () (u.receiving (delivered rest later)) := by
      rw [hreads, bind_of_ok (readExact_ok (h later))]
      rfl
    have hrecord : recordLength u.inputBuffer = u.inputBuffer.length := by
      change recordLength (s.inputBuffer ++ data) = (s.inputBuffer ++ data).length
      rw [recordLength_append data hheader, List.length_append]
      omega
    cases htake : takeRecord E u with
    | ok record t =>
      obtain ⟨hlen, hbuffer, hplaintext⟩ := takeRecord_eq_ok htake
      rw [hrecord, List.drop_length] at hbuffer
      refine .returns record t rest (fun later => ?_)
        ⟨⟨?_, .inr hbuffer, ?_, hplaintext⟩, fun _ => hbuffer⟩
      · rw [readRecordBody, bind_of_ok (hfragment later)]
        exact (takeRecord_receiving _).ok htake
      · have hu : tlsRecordHeaderLength ≤ u.inputBuffer.length :=
          hheader.trans (by rw [← hrecord]; exact (recordLength_append data hheader).ge.trans' hshort.le)
        have hcomplete := recordInProgress_complete rest.flatten hu hlen
        rw [hrecord, List.drop_length] at hcomplete
        rw [hbuffer, ← hcomplete, hoctets, ← List.append_assoc]
      · rw [hoctets, List.length_append]
        exact Nat.le_add_left _ _
    | error status t =>
      refine .fails status t rest fun later => ?_
      rw [readRecordBody, bind_of_ok (hfragment later)]
      exact (takeRecord_receiving _).error htake
  | ended rest h =>
    refine .fails statusConnectionDisconnected
      { s.fragmentCounted with
        history := { s.history with disconnects := s.history.disconnects + 1 } } rest fun later => ?_
    refine bind_of_error ?_ _
    rw [hreads, bind_of_error ((readExact_error (h later)).trans rfl)]
    rfl
  | waits hwait h =>
    refine .waits s chunks.flatten 1 le_rfl (fun failure later => ?_) (fun hnone later => ?_)
      ⟨rfl, rfl, ?_⟩
    · have hread := h (.failed failure :: later)
      rw [prepended_failed (by omega)] at hread
      refine bind_of_error ?_ _
      rw [hreads, bind_of_error ((readExact_error hread).trans rfl)]
      rfl
    · have hread := h later
      rw [hnone, prepended_nil, List.length_nil, Nat.sub_zero] at hread
      rw [readRecordBody, bind_apply, bind_apply, hreads, hreads, bind_apply, readExact_congr hread,
        ← bind_apply]
    · refine recordInProgress_incomplete ?_
      rw [recordLength_append _ hheader, List.length_append]
      omega

/-- What is there where a read waits: the buffer as the read has found it, and the octets of the
    read in hand. -/
structure RecordWaits (s : TlsConnection) (chunks : List Bytes) (t : TlsConnection)
    (inHand : Bytes) : Prop where
  progress : recordInProgress (s.inputBuffer ++ chunks.flatten) = t.inputBuffer ++ inHand
  exact : inHand = chunks.flatten ∧ (s.inputBuffer = [] → t.inputBuffer = []) ∨
    t.inputBuffer.length = tlsRecordHeaderLength ∨ t.inputBuffer = []
  header : t.inputBuffer.length < tlsRecordHeaderLength →
    (t.inputBuffer ++ inHand).length < tlsRecordHeaderLength
  shorter : inHand.length ≤ chunks.flatten.length
  plaintext : s.plaintext = [] → t.plaintext = []

/-- **A read of a record**, whatever comes behind the octets that have come. -/
theorem readRecord_arriving (s : TlsConnection) (chunks : List Bytes) :
    Takes (readRecord E) s chunks (RecordTaken s chunks) (RecordWaits s chunks) := by
  cases readRecordHeader_takes s chunks with
  | returns u t rest h hheader =>
    obtain ⟨hthere, hstream, hexact, hshorter, hsame⟩ := hheader
    have hrecord (later : List TransportRead) :
        readRecord E (s.receiving (delivered chunks later)) =
          readRecordBody E (t.receiving (delivered rest later)) := bind_of_ok (h later) _
    have hbuffer (hrest : rest.flatten = chunks.flatten) : t.inputBuffer = s.inputBuffer := by
      rw [hrest] at hstream
      exact List.append_cancel_right hstream
    cases readRecordBody_takes t rest hthere with
    | returns record v rest' hbody htaken =>
      obtain ⟨⟨hprogress, hbodyExact, hbodyShorter, hplaintext⟩, hempty⟩ := htaken
      refine .returns record v rest' (fun later => (hrecord later).trans (hbody later))
        ⟨?_, ?_, hbodyShorter.trans hshorter, hplaintext⟩
      · rw [hprogress, hstream]
      · rcases hexact with hexact | hfive
        · rwa [hexact, hbuffer hexact] at hbodyExact
        · exact .inr (hempty hfive)
    | fails status v rest' hbody =>
      exact .fails status v rest' fun later => (hrecord later).trans (hbody later)
    | waits v inHand records hrecords hfails hslow hwaits =>
      obtain ⟨rfl, rfl, hprogress⟩ := hwaits
      refine .waits v rest.flatten records hrecords
        (fun failure later => (hrecord _).trans (hfails failure later)) (fun hnone later => ?_)
        ⟨?_, ?_, fun hshort => absurd hthere (not_le.2 hshort), hshorter, hsame.trans⟩
      · rw [hrecord, hslow hnone, readRecord_eq, bind_of_ok (readRecordHeader_there hthere later)]
      · rw [← hstream, hprogress]
      · exact hexact.imp (fun h => ⟨h, (hbuffer h).trans⟩) .inl
  | fails status t rest h => exact .fails status t rest fun later => bind_of_error (h later) _
  | waits t inHand records hrecords hfails hslow hwaits =>
    obtain ⟨rfl, rfl, hshort⟩ := hwaits
    refine .waits t chunks.flatten records hrecords
      (fun failure later => bind_of_error (hfails failure later) _) (fun hnone later => ?_)
      ⟨recordInProgress_short hshort, .inl ⟨rfl, id⟩, fun _ => hshort, le_rfl, id⟩
    rw [readRecord_eq, bind_apply, hslow hnone, ← bind_apply]

end TlsConnection

end KernelHttp.Tls
