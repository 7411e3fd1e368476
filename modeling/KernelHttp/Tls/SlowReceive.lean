/-
  A call of `Receive` that a failing read interrupts (`tls/TlsConnection.cpp`).

  Nothing is lost exactly if the octets end where a header or a record ends (`losesNothing_iff`).
-/
import KernelHttp.Tls.SlowReads
import KernelHttp.Tls.KeyChanges

namespace KernelHttp.Tls

open Program

namespace TlsConnection

variable {α : Type} {E : Environment}

/-! ## The loop up to the record in progress -/

/-- What `Receive` does with a record in a state. -/
def processRecord (E : Environment) (length turns emptyRecords postHandshakeRecords : ℕ)
    (record : TlsMutablePlaintextRecord) (s : TlsConnection) : TlsProgram Bytes :=
  if s.tls13RecordProtection ∧ record.contentType = .handshake then do
    require (postHandshakeRecords < tlsApplicationMaxPostHandshakeRecords)
      statusInvalidNetworkResponse
    consumeTls13PostHandshakeRecord E record.fragment
    receiveFrom E length turns emptyRecords (postHandshakeRecords + 1)
  else if ¬ s.tls13RecordProtection ∧ s.context.protocol = .tls12 ∧
      record.contentType = .handshake then do
    require (postHandshakeRecords < tlsApplicationMaxPostHandshakeRecords)
      statusInvalidNetworkResponse
    consumeOptionalPlainHandshakeRecord record.fragment
    receiveFrom E length turns emptyRecords (postHandshakeRecords + 1)
  else if record.contentType = .alert then throw (alertStatus record.fragment)
  else if ¬ s.tls13RecordProtection ∧ s.context.protocol = .tls12 ∧
      (s.handshakeBuffer ≠ [] ∨ s.handshakeConsumed ≠ 0) then
    throw statusInvalidNetworkResponse
  else if record.contentType ≠ .applicationData then throw statusInvalidNetworkResponse
  else if record.fragment = [] then do
    require (emptyRecords < tlsApplicationMaxEmptyRecords) statusInvalidNetworkResponse
    receiveFrom E length turns (emptyRecords + 1) postHandshakeRecords
  else do
    modify fun s => { s with plaintext := record.fragment.drop length }
    return record.fragment.take length

/-- What `Receive` does with a record. -/
def afterRecord (E : Environment) (length turns emptyRecords postHandshakeRecords : ℕ)
    (record : TlsMutablePlaintextRecord) : TlsProgram Bytes := do
  let s ← get
  processRecord E length turns emptyRecords postHandshakeRecords record s

theorem receiveFrom_succ (length turns emptyRecords postHandshakeRecords : ℕ) :
    receiveFrom E length (turns + 1) emptyRecords postHandshakeRecords =
      readRecord E >>= afterRecord E length turns emptyRecords postHandshakeRecords := rfl

/-- The ways in which the loop takes pieces that have come: where it waits, it is as a loop that
    begins with the record in progress. -/
inductive LoopTakes (E : Environment) (length : ℕ) (p : TlsProgram Bytes)
    (turns emptyRecords postHandshakeRecords : ℕ) (s : TlsConnection) (chunks : List Bytes) : Prop
  | returns (data : Bytes) (t : TlsConnection) (rest : List Bytes)
      (h : ∀ later, p (s.receiving (delivered chunks later)) =
        .ok data (t.receiving (delivered rest later)))
  | fails (status : NTSTATUS) (t : TlsConnection) (rest : List Bytes)
      (h : ∀ later, p (s.receiving (delivered chunks later)) =
        .error status (t.receiving (delivered rest later)))
  | waits (t : TlsConnection) (inHand : Bytes) (records : ℕ) (hrecords : records ≤ 1)
      (turns' emptyRecords' postHandshakeRecords' : ℕ) (hturns : turns' ≤ turns)
      (hempty : emptyRecords ≤ emptyRecords') (hpost : postHandshakeRecords ≤ postHandshakeRecords')
      (hfails : ∀ (failure : FailureStatus) (later : List TransportRead),
        p (s.receiving (delivered chunks (.failed failure :: later))) =
          .error failure.val ((counting records (endings failure)).apply (t.receiving later)))
      (hslow : inHand = [] → ∀ later, p (s.receiving (delivered chunks later)) =
        receiveFrom E length turns' emptyRecords' postHandshakeRecords' (t.receiving later))
      (hwaits : RecordWaits s chunks t inHand)

variable {length turns emptyRecords postHandshakeRecords : ℕ} {s t u : TlsConnection}
  {chunks rest : List Bytes} {inHand : Bytes}

theorem RecordWaits.of_taken (hwaits : RecordWaits u rest t inHand)
    (htaken : RecordTaken s chunks u rest) : RecordWaits s chunks t inHand where
  progress := htaken.progress.symm.trans hwaits.progress
  exact := by
    rcases hwaits.exact with ⟨hrest, hempty⟩ | hexact
    · rcases htaken.exact with ⟨hchunks, hempty'⟩ | hnil
      · exact .inl ⟨hrest.trans hchunks, fun h => hempty (hempty' h)⟩
      · exact .inr (.inr (hempty hnil))
    · exact .inr hexact
  header := hwaits.header
  shorter := hwaits.shorter.trans htaken.shorter
  plaintext _ := hwaits.plaintext htaken.plaintext

/-- What the processing of a record leaves of the buffers. -/
theorem Blind.buffers {q : TlsProgram α} (hq : Blind q) {a : α} (h : q s = .ok a t) :
    t.inputBuffer = s.inputBuffer ∧ t.plaintext = s.plaintext ∧ t.recordsRead = s.recordsRead := by
  have hfixed := (hq
    { inputBuffer := fun _ => s.inputBuffer
      plaintext := fun _ => s.plaintext
      recordsRead := fun _ => s.recordsRead }).ok_fixed h rfl
  exact ⟨(congrArg inputBuffer hfixed).symm, (congrArg plaintext hfixed).symm,
    (congrArg recordsRead hfixed).symm⟩

theorem RecordWaits.of_buffers (hwaits : RecordWaits u chunks t inHand)
    (hbuffer : u.inputBuffer = s.inputBuffer) (hplaintext : u.plaintext = s.plaintext) :
    RecordWaits s chunks t inHand where
  progress := hbuffer ▸ hwaits.progress
  exact := hbuffer ▸ hwaits.exact
  header := hwaits.header
  shorter := hwaits.shorter
  plaintext := hplaintext ▸ hwaits.plaintext

namespace LoopTakes

variable {p : TlsProgram Bytes}

theorem bind_blind {q : TlsProgram Unit} (hq : Blind q)
    (h : ∀ t, LoopTakes E length p turns emptyRecords postHandshakeRecords t chunks) :
    LoopTakes E length (q >>= fun _ => p) turns emptyRecords postHandshakeRecords s chunks := by
  cases hrun : q s with
  | error status t =>
    exact .fails status t chunks fun later =>
      bind_of_error ((hq (redirected (delivered chunks later))).error hrun) _
  | ok a t =>
    obtain ⟨hbuffer, hplaintext, -⟩ := hq.buffers hrun
    have hstep (incoming : List TransportRead) :
        (q >>= fun _ => p) (s.receiving incoming) = p (t.receiving incoming) :=
      bind_of_ok ((hq (redirected incoming)).ok hrun) _
    cases h t with
    | returns data v rest h => exact .returns data v rest fun later => (hstep _).trans (h later)
    | fails status v rest h => exact .fails status v rest fun later => (hstep _).trans (h later)
    | waits v inHand records hrecords turns' emptyRecords' postHandshakeRecords' hturns hempty hpost
        hfails hslow hwaits =>
      exact .waits v inHand records hrecords turns' emptyRecords' postHandshakeRecords' hturns hempty
        hpost (fun failure later => (hstep _).trans (hfails failure later))
        (fun hnone later => (hstep _).trans (hslow hnone later))
        (hwaits.of_buffers hbuffer hplaintext)

theorem bind_require {c : Prop} [Decidable c] {status : NTSTATUS}
    (h : c → LoopTakes E length p turns emptyRecords postHandshakeRecords s chunks) :
    LoopTakes E length (require c status >>= fun _ => p) turns emptyRecords postHandshakeRecords s
      chunks := by
  by_cases hc : c
  · have hsame : (require c status >>= fun _ => p : TlsProgram Bytes) = p := by
      rw [require, if_pos hc]
      rfl
    rw [hsame]
    exact h hc
  · exact .fails status s chunks fun later => bind_of_error (require_of_not hc _ _) _

theorem throw (status : NTSTATUS) :
    LoopTakes E length (throw status) turns emptyRecords postHandshakeRecords s chunks :=
  .fails status s chunks fun _ => rfl

theorem congr {p' : TlsProgram Bytes}
    (h : LoopTakes E length p turns emptyRecords postHandshakeRecords s chunks)
    (hp : ∀ incoming, p' (s.receiving incoming) = p (s.receiving incoming)) :
    LoopTakes E length p' turns emptyRecords postHandshakeRecords s chunks := by
  cases h with
  | returns data t rest h => exact .returns data t rest fun later => (hp _).trans (h later)
  | fails status t rest h => exact .fails status t rest fun later => (hp _).trans (h later)
  | waits t inHand records hrecords turns₁ emptyRecords₁ postHandshakeRecords₁ hturns₁ hempty₁ hpost₁
      hfails hslow hwaits =>
    exact .waits t inHand records hrecords turns₁ emptyRecords₁ postHandshakeRecords₁
      hturns₁ hempty₁ hpost₁ (fun failure later => (hp _).trans (hfails failure later))
      (fun hnone later => (hp _).trans (hslow hnone later)) hwaits

/-- More may still come. -/
theorem mono {turns' emptyRecords' postHandshakeRecords' : ℕ}
    (h : LoopTakes E length p turns emptyRecords postHandshakeRecords s chunks)
    (hturns : turns ≤ turns') (hempty : emptyRecords' ≤ emptyRecords)
    (hpost : postHandshakeRecords' ≤ postHandshakeRecords) :
    LoopTakes E length p turns' emptyRecords' postHandshakeRecords' s chunks := by
  cases h with
  | returns data t rest h => exact .returns data t rest h
  | fails status t rest h => exact .fails status t rest h
  | waits t inHand records hrecords turns₁ emptyRecords₁ postHandshakeRecords₁ hturns₁ hempty₁ hpost₁
      hfails hslow hwaits =>
    exact .waits t inHand records hrecords turns₁ emptyRecords₁ postHandshakeRecords₁
      (hturns₁.trans hturns) (hempty.trans hempty₁) (hpost.trans hpost₁) hfails hslow hwaits

end LoopTakes

theorem afterRecord_arriving (record : TlsMutablePlaintextRecord) (s : TlsConnection)
    (h : ∀ (emptyRecords postHandshakeRecords : ℕ) (s : TlsConnection),
      LoopTakes E length (receiveFrom E length turns emptyRecords postHandshakeRecords) turns
        emptyRecords postHandshakeRecords s chunks) :
    LoopTakes E length (afterRecord E length turns emptyRecords postHandshakeRecords record)
      (turns + 1) emptyRecords postHandshakeRecords s chunks := by
  have hread : LoopTakes E length
      (processRecord E length turns emptyRecords postHandshakeRecords record s)
      (turns + 1) emptyRecords postHandshakeRecords s chunks := by
    rw [processRecord]
    split
    · exact .bind_require fun _ => .bind_blind (consumeTls13PostHandshakeRecord_blind E _) fun t =>
        (h _ _ t).mono (Nat.le_succ _) le_rfl (Nat.le_succ _)
    split
    · exact .bind_require fun _ => .bind_blind (consumeOptionalPlainHandshakeRecord_blind _) fun t =>
        (h _ _ t).mono (Nat.le_succ _) le_rfl (Nat.le_succ _)
    split
    · exact .throw _
    split
    · exact .throw _
    split
    · exact .throw _
    split
    · exact .bind_require fun _ => (h _ _ s).mono (Nat.le_succ _) (Nat.le_succ _) le_rfl
    · exact .returns (record.fragment.take length)
        { s with plaintext := record.fragment.drop length } chunks fun _ => rfl
  exact hread.congr fun _ => rfl

/-- **The loop of `Receive`**, whatever comes behind the octets that have come. -/
theorem receiveFrom_arriving (length : ℕ) : ∀ (turns emptyRecords postHandshakeRecords : ℕ)
    (s : TlsConnection) (chunks : List Bytes),
    LoopTakes E length (receiveFrom E length turns emptyRecords postHandshakeRecords) turns
      emptyRecords postHandshakeRecords s chunks := by
  intro turns
  induction turns with
  | zero => exact fun _ _ s chunks => .throw _
  | succ turns ih =>
    intro emptyRecords postHandshakeRecords s chunks
    rw [receiveFrom_succ]
    cases @readRecord_arriving E s chunks with
    | fails status t rest h => exact .fails status t rest fun later => bind_of_error (h later) _
    | waits t inHand records hrecords hfails hslow hwaits =>
      refine .waits t inHand records hrecords (turns + 1) emptyRecords postHandshakeRecords le_rfl
        le_rfl le_rfl (fun failure later => bind_of_error (hfails failure later) _)
        (fun hnone later => ?_) hwaits
      rw [receiveFrom_succ, bind_apply, hslow hnone, ← bind_apply]
    | returns record u rest h htaken =>
      have hstep (later : List TransportRead) :
          (readRecord E >>= afterRecord E length turns emptyRecords postHandshakeRecords)
              (s.receiving (delivered chunks later)) =
            afterRecord E length turns emptyRecords postHandshakeRecords record
              (u.receiving (delivered rest later)) := bind_of_ok (h later) _
      cases @afterRecord_arriving E length turns emptyRecords postHandshakeRecords rest record u
          fun _ _ _ => ih _ _ _ _ with
      | returns data v rest' h => exact .returns data v rest' fun later => (hstep _).trans (h later)
      | fails status v rest' h => exact .fails status v rest' fun later => (hstep _).trans (h later)
      | waits v inHand records hrecords turns' emptyRecords' postHandshakeRecords' hturns hempty
          hpost hfails hslow hwaits =>
        exact .waits v inHand records hrecords turns' emptyRecords' postHandshakeRecords' hturns
          hempty hpost (fun failure later => (hstep _).trans (hfails failure later))
          (fun hnone later => (hstep _).trans (hslow hnone later)) (hwaits.of_taken htaken)

/-! ## Runs with other counters -/

/-- Where one program returns with room for more records, another returns the same from the state
    in which more records and ends of the connection have been counted. -/
def Follows (records disconnects : ℕ) (p p' : TlsProgram α) : Prop :=
  ∀ s a t, p s = .ok a t → s.recordsRead ≤ t.recordsRead ∧
    (t.recordsRead + records ≤ hardMaxConnectionFrames →
      p' ((counting records disconnects).apply s) = .ok a ((counting records disconnects).apply t))

namespace Follows

variable {β : Type} {records disconnects : ℕ} {p p' : TlsProgram α}

theorem bind {f f' : α → TlsProgram β} (hp : Follows records disconnects p p')
    (hf : ∀ a, Follows records disconnects (f a) (f' a)) :
    Follows records disconnects (p >>= f) (p' >>= f') := by
  intro s b t h
  obtain ⟨a, u, hpu, hfu⟩ := bind_eq_ok h
  obtain ⟨hle, hroom⟩ := hp s a u hpu
  obtain ⟨hle', hroom'⟩ := hf a u b t hfu
  refine ⟨hle.trans hle', fun hmore => ?_⟩
  rw [bind_of_ok (hroom (by omega))]
  exact hroom' hmore

/-- What is read is looked at only beside the counters. -/
theorem read {f f' : TlsConnection → TlsProgram α}
    (hread : ∀ s, f' ((counting records disconnects).apply s) = f' s)
    (hf : ∀ s, Follows records disconnects (f s) (f' s)) :
    Follows records disconnects (get >>= f) (get >>= f') := by
  intro s a t h
  obtain ⟨hle, hroom⟩ := hf s s a t h
  refine ⟨hle, fun hmore => ?_⟩
  rw [← hroom hmore, ← hread s]
  rfl

/-- A program that does not see the counters. -/
theorem of_commutes (h : ∀ (recordsRead : ℕ → ℕ) (disconnects : ℕ),
      Commutes (Aside.apply { recordsRead, disconnects }) p) : Follows records disconnects p p := by
  intro s a t hp
  have hfixed := (h (fun _ => s.recordsRead) 0).ok_fixed hp rfl
  exact ⟨(congrArg recordsRead hfixed).le, fun _ => (h _ _).ok hp⟩

theorem of_blind (h : Blind p) : Follows records disconnects p p := of_commutes fun _ _ => h _

theorem throw (status : NTSTATUS) : Follows records disconnects (throw status) p := by
  intro s a t h
  cases h

theorem ite {c : Prop} [Decidable c] {q q' : TlsProgram α} (hp : Follows records disconnects p p')
    (hq : Follows records disconnects q q') :
    Follows records disconnects (if c then p else q) (if c then p' else q') := by
  split_ifs
  · exact hp
  · exact hq

theorem require {c c' : Prop} [Decidable c] [Decidable c'] (status : NTSTATUS) (h : c → c') :
    Follows records disconnects (require c status) (require c' status) := by
  intro s a t hrequire
  obtain ⟨hc, rfl⟩ := require_eq_ok hrequire
  exact ⟨le_rfl, fun _ => require_of (h hc) _ _⟩

theorem buffered (data : Bytes) : Follows records disconnects
    (modify fun s => { s with inputBuffer := s.inputBuffer ++ data } : TlsProgram PUnit)
    (modify fun s => { s with inputBuffer := s.inputBuffer ++ data }) :=
  of_commutes fun _ _ => .modify fun _ => rfl

theorem readExact (n : ℕ) : Follows records disconnects (readExact n) (TlsConnection.readExact n) := by
  refine of_commutes fun recordsRead disconnects => ?_
  refine @Commutes.update _ _ _ (Aside.apply { recordsRead, disconnects })
    (fun s : TlsConnection => { s with incoming := (receiveExactly s.incoming n).2 }) _
    (fun _ => rfl) (fun _ => rfl) fun s => ?_
  split
  · exact .pure _
  · exact transportFailed_blind _ _

theorem readRecordHeader :
    Follows records disconnects readRecordHeader TlsConnection.readRecordHeader :=
  read (fun _ => rfl) fun _ =>
    ite (bind (readExact _) fun _ => buffered _) (of_commutes fun _ _ => .pure ())

theorem readFragment : Follows records disconnects readFragment TlsConnection.readFragment :=
  read (fun _ => rfl) fun _ => bind (readExact _) fun _ => buffered _

theorem recordReceivedTlsRecord :
    Follows records disconnects recordReceivedTlsRecord TlsConnection.recordReceivedTlsRecord := by
  intro s a t h
  obtain ⟨_, _, hget, h⟩ := bind_eq_ok h
  cases hget
  obtain ⟨_, u, hrequire, h⟩ := bind_eq_ok h
  obtain ⟨hroom, rfl⟩ := require_eq_ok hrequire
  cases h
  refine ⟨Nat.le_succ _, fun hmore => ?_⟩
  change s.recordsRead + 1 + records ≤ hardMaxConnectionFrames at hmore
  have hcount : s.recordsRead + records < hardMaxConnectionFrames := by omega
  change (Program.require (s.recordsRead + records < hardMaxConnectionFrames) _ >>= _ :
    TlsProgram Unit) _ = _
  rw [bind_of_ok (require_of hcount _ _)]
  change EStateM.Result.ok _ _ = _
  simp only [Aside.apply, counting, Nat.add_right_comm]

theorem readRecordFragment :
    Follows records disconnects readRecordFragment TlsConnection.readRecordFragment := by
  refine read (fun _ => rfl) fun s => ?_
  split
  · exact of_commutes fun _ _ => .pure ()
  · exact bind (require _ id) fun _ => bind (require _ id) fun _ => bind (require _ id) fun _ =>
      bind recordReceivedTlsRecord fun _ => readFragment

theorem readRecord : Follows records disconnects (readRecord E) (TlsConnection.readRecord E) :=
  bind readRecordHeader fun _ => bind readRecordFragment fun _ =>
    of_commutes fun _ _ => takeRecord_commutes rfl rfl

end Follows

variable {records disconnects : ℕ}

theorem receiveFrom_follows (length : ℕ) :
    ∀ {turns turns' emptyRecords emptyRecords' postHandshakeRecords postHandshakeRecords' : ℕ},
      turns ≤ turns' → emptyRecords' ≤ emptyRecords → postHandshakeRecords' ≤ postHandshakeRecords →
      Follows records disconnects
        (receiveFrom E length turns emptyRecords postHandshakeRecords)
        (receiveFrom E length turns' emptyRecords' postHandshakeRecords') := by
  intro turns
  induction turns with
  | zero => exact fun _ _ _ => .throw _
  | succ turns ih =>
    intro turns' emptyRecords emptyRecords' postHandshakeRecords postHandshakeRecords' hturns
      hempty hpost
    obtain ⟨turns', rfl⟩ : ∃ n, turns' = n + 1 := ⟨turns' - 1, by omega⟩
    replace hturns := Nat.le_of_succ_le_succ hturns
    refine .bind .readRecord fun record => .read (fun _ => rfl) fun s => ?_
    refine .ite ?_ (.ite ?_ (.ite (.throw _) (.ite (.throw _) (.ite (.throw _) (.ite ?_ ?_)))))
    · exact .bind (.require _ hpost.trans_lt) fun _ =>
        .bind (.of_blind (consumeTls13PostHandshakeRecord_blind E _)) fun _ =>
        ih hturns hempty (Nat.succ_le_succ hpost)
    · exact .bind (.require _ hpost.trans_lt) fun _ =>
        .bind (.of_blind (consumeOptionalPlainHandshakeRecord_blind _)) fun _ =>
        ih hturns hempty (Nat.succ_le_succ hpost)
    · exact .bind (.require _ hempty.trans_lt) fun _ => ih hturns (Nat.succ_le_succ hempty) hpost
    · exact .of_commutes fun _ _ => .bind (.modify fun _ => rfl) fun _ => .pure _

/-! ## The connection stays established -/

theorem updateTls13ApplicationTrafficSecret_established {context context' : TlsContext}
    {state : TlsAeadCipherState} {K : KeyFunctions} {client : Bool}
    (h : context.updateTls13ApplicationTrafficSecret K client = .ok (context', state)) :
    context'.established = context.established := by
  obtain ⟨_, -, h⟩ := Incremental.bind_eq_ok h
  obtain ⟨secret, -, h⟩ := Incremental.bind_eq_ok h
  obtain ⟨state', -, h⟩ := Incremental.bind_eq_ok h
  obtain ⟨rfl, -⟩ := Prod.mk.inj (Except.ok.inj h)
  cases client <;> rfl

theorem storeTls13Ticket_established {context context' : TlsContext} {ticket : Tls13SessionTicket}
    (h : context.storeTls13Ticket ticket = .ok context') :
    context'.established = context.established := by
  obtain ⟨_, -, h⟩ := Incremental.bind_eq_ok h
  obtain rfl := Except.ok.inj h
  rfl

theorem step_established {c d : Core} (h : Step E c d) :
    d.context.established = c.context.established := by
  cases h with
  | ticketStored ticket context _ hcontext => exact storeTls13Ticket_established hcontext
  | clientUpdated context state h => exact updateTls13ApplicationTrafficSecret_established h
  | serverUpdated context state h => exact updateTls13ApplicationTrafficSecret_established h
  | consumed n =>
    rw [Core.consumed]
    split <;> rfl
  | sent => rfl
  | transcript => rfl
  | clientMessage => rfl
  | bufferedMessage => rfl
  | recordMessage => rfl
  | buffered => rfl
  | compacted => rfl
  | recordArrived => rfl

theorem receive_established {status : NTSTATUS} (h : receive E length s = .error status t) :
    t.context.established = s.context.established :=
  invariant_of_steps (I := fun c => c.context.established = s.context.established)
    (fun _ _ hstep hc => (step_established hstep).trans hc) ((receive_makes E length s).error h) rfl

/-! ## What an interrupted call loses -/

/-- **A call loses nothing**: the input buffer holds the octets of the record in progress, and a
    later call returns what the call would have returned if the read had been slow, as long as
    there is room for one more record. -/
structure LosesNothing (p : TlsProgram α) (s : TlsConnection) (chunks : List Bytes)
    (t : TlsConnection) : Prop where
  kept : t.inputBuffer = recordInProgress (s.inputBuffer ++ chunks.flatten)
  resumes : ∀ (later : List TransportRead) (a : α) (v : TlsConnection),
    p (s.receiving (delivered chunks later)) = .ok a v → v.recordsRead < hardMaxConnectionFrames →
      ∃ records disconnects, p (t.receiving later) = .ok a ((counting records disconnects).apply v)

/-- The octets that the call has received end where a header or a record ends. -/
def EndsAtBoundary (s : TlsConnection) (chunks : List Bytes) : Prop :=
  chunks.flatten = [] ∨ recordInProgress (s.inputBuffer ++ chunks.flatten) = [] ∨
    (recordInProgress (s.inputBuffer ++ chunks.flatten)).length = tlsRecordHeaderLength

/-- Nothing is in hand exactly at a boundary. -/
theorem RecordWaits.inHand_iff (hwaits : RecordWaits s chunks t inHand) :
    inHand = [] ↔ EndsAtBoundary s chunks := by
  rw [EndsAtBoundary, hwaits.progress]
  constructor
  · rintro rfl
    rw [List.append_nil]
    rcases hwaits.exact with ⟨hall, -⟩ | hfive | hnil
    · exact .inl hall.symm
    · exact .inr (.inr hfive)
    · exact .inr (.inl hnil)
  · rintro (hnone | hnil | hfive)
    · have hshorter := hwaits.shorter
      rw [hnone] at hshorter
      exact List.eq_nil_of_length_eq_zero (Nat.le_zero.1 hshorter)
    · exact (List.append_eq_nil_iff.1 hnil).2
    · have hheader : tlsRecordHeaderLength ≤ t.inputBuffer.length := by
        by_contra hshort
        have := hwaits.header (not_le.1 hshort)
        omega
      rw [List.length_append] at hfive
      exact List.eq_nil_of_length_eq_zero (by omega)

/-- What an interrupted call has kept. -/
theorem RecordWaits.kept_iff (hwaits : RecordWaits s chunks t inHand) :
    t.inputBuffer = recordInProgress (s.inputBuffer ++ chunks.flatten) ↔ inHand = [] := by
  rw [hwaits.progress, List.self_eq_append_right]

theorem delivered_ne (chunks : List Bytes) (failure : FailureStatus) (later : List TransportRead) :
    later ≠ delivered chunks (.failed failure :: later) := by
  intro h
  have hlength := congrArg List.length h
  rw [delivered, List.length_append, List.length_cons] at hlength
  omega

variable {failure : FailureStatus} {status : NTSTATUS}

theorem receiving_incoming (h : s.incoming = delivered chunks (.failed failure :: t.incoming)) :
    s = s.receiving (delivered chunks (.failed failure :: t.incoming)) := by
  rw [← h]
  rfl

/-- **An interrupted read of a record** fails with the failure of the transport, and loses nothing
    exactly if the octets end at a boundary. -/
theorem readRecord_losesNothing_iff (h : readRecord E s = .error status t)
    (hincoming : s.incoming = delivered chunks (.failed failure :: t.incoming)) :
    status = failure.val ∧ (LosesNothing (readRecord E) s chunks t ↔ EndsAtBoundary s chunks) := by
  rw [receiving_incoming hincoming] at h
  cases @readRecord_arriving E s chunks with
  | returns record u rest hreturns =>
    rw [hreturns] at h
    cases h
  | fails status' u rest hfails =>
    rw [hfails] at h
    obtain ⟨-, hstate⟩ := EStateM.Result.error.inj h
    exact absurd (congrArg incoming hstate).symm (delivered_ne rest failure _)
  | waits u inHand records hrecords hfails hslow hwaits =>
    rw [hfails] at h
    obtain ⟨rfl, hstate⟩ := EStateM.Result.error.inj h
    have hbuffer : t.inputBuffer = u.inputBuffer := (congrArg inputBuffer hstate).symm
    refine ⟨rfl, fun hkeeps => ?_, fun hboundary => ⟨?_, fun later record v hrun hroom => ?_⟩⟩
    · rw [← hwaits.inHand_iff, ← hwaits.kept_iff, ← hbuffer]
      exact hkeeps.kept
    · rw [hbuffer, hwaits.kept_iff, hwaits.inHand_iff]
      exact hboundary
    · rw [hslow (hwaits.inHand_iff.2 hboundary)] at hrun
      refine ⟨records, endings failure, ?_⟩
      rw [← hstate]
      exact (@Follows.readRecord E records (endings failure) _ _ _ hrun).2 (by omega)

theorem receive_eq (hready : s.context.established ∧ length ≠ 0) (hplaintext : s.plaintext = []) :
    receive E length s = receiveFrom E length receiveTurns 0 0 s := by
  change (Program.require (s.context.established ∧ length ≠ 0) statusInvalidParameter >>= fun _ =>
    if s.plaintext ≠ [] then _ else receiveFrom E length receiveTurns 0 0 : TlsProgram Bytes) s = _
  rw [bind_of_ok (require_of hready _ _), if_neg (not_not.2 hplaintext)]

theorem receive_eq_error (h : receive E length s = .error status t) :
    (s.context.established ∧ length ≠ 0) ∧ s.plaintext = [] ∨ t = s := by
  by_cases hready : s.context.established ∧ length ≠ 0
  · by_cases hplaintext : s.plaintext = []
    · exact .inl ⟨hready, hplaintext⟩
    · change (Program.require (s.context.established ∧ length ≠ 0) statusInvalidParameter >>= fun _ =>
        if s.plaintext ≠ [] then _ else _ : TlsProgram Bytes) s = _ at h
      rw [bind_of_ok (require_of hready _ _), if_pos hplaintext] at h
      cases h
  · change (Program.require (s.context.established ∧ length ≠ 0) statusInvalidParameter >>= _ :
      TlsProgram Bytes) s = _ at h
    rw [bind_of_error (require_of_not hready _ _)] at h
    exact .inr (EStateM.Result.error.inj h).2.symm

/-- **An interrupted `Receive`** likewise. -/
theorem receive_losesNothing_iff (h : receive E length s = .error status t)
    (hincoming : s.incoming = delivered chunks (.failed failure :: t.incoming)) :
    status = failure.val ∧
      (LosesNothing (receive E length) s chunks t ↔ EndsAtBoundary s chunks) := by
  obtain ⟨hready, hplaintext⟩ | rfl := receive_eq_error h
  case inr => exact absurd hincoming (delivered_ne chunks failure _)
  have hestablished := receive_established h
  rw [receive_eq hready hplaintext, receiving_incoming hincoming] at h
  cases @receiveFrom_arriving E length receiveTurns 0 0 s chunks with
  | returns data u rest hreturns =>
    rw [hreturns] at h
    cases h
  | fails status' u rest hfails =>
    rw [hfails] at h
    obtain ⟨-, hstate⟩ := EStateM.Result.error.inj h
    exact absurd (congrArg incoming hstate).symm (delivered_ne rest failure _)
  | waits u inHand records hrecords turns' emptyRecords' postHandshakeRecords' hturns hempty hpost
      hfails hslow hwaits =>
    rw [hfails] at h
    obtain ⟨rfl, hstate⟩ := EStateM.Result.error.inj h
    have hbuffer : t.inputBuffer = u.inputBuffer := (congrArg inputBuffer hstate).symm
    refine ⟨rfl, fun hkeeps => ?_, fun hboundary => ⟨?_, fun later data v hrun hroom => ?_⟩⟩
    · rw [← hwaits.inHand_iff, ← hwaits.kept_iff, ← hbuffer]
      exact hkeeps.kept
    · rw [hbuffer, hwaits.kept_iff, hwaits.inHand_iff]
      exact hboundary
    · have hbegin : receive E length (s.receiving (delivered chunks later)) =
          receiveFrom E length receiveTurns 0 0 (s.receiving (delivered chunks later)) :=
        receive_eq hready hplaintext
      rw [hbegin, hslow (hwaits.inHand_iff.2 hboundary)] at hrun
      refine ⟨records, endings failure, ?_⟩
      have hlate := (@receiveFrom_follows E records (endings failure) length turns' receiveTurns
        emptyRecords' 0 postHandshakeRecords' 0 hturns (Nat.zero_le _) (Nat.zero_le _) _ _ _ hrun).2
        (by omega)
      have hagain : receive E length (t.receiving later) =
          receiveFrom E length receiveTurns 0 0 (t.receiving later) :=
        receive_eq ⟨hestablished.trans hready.1, hready.2⟩
          ((congrArg plaintext hstate).symm.trans (hwaits.plaintext hplaintext))
      rw [hagain, ← hlate, ← hstate]
      rfl

/-- **Reads that fail on the way.**  A `ReadRecord` or a `Receive` that the transport interrupts
    fails with the transport's failure, and loses nothing exactly if the octets that it has
    received end where a header or a record ends. -/
theorem losesNothing_iff (E : Environment) (s t : TlsConnection) (status : NTSTATUS)
    (chunks : List Bytes) (failure : FailureStatus)
    (hincoming : s.incoming = delivered chunks (.failed failure :: t.incoming)) :
    (readRecord E s = .error status t → status = failure.val ∧
      (LosesNothing (readRecord E) s chunks t ↔ EndsAtBoundary s chunks)) ∧
    ∀ length, receive E length s = .error status t → status = failure.val ∧
      (LosesNothing (receive E length) s chunks t ↔ EndsAtBoundary s chunks) :=
  ⟨fun h => readRecord_losesNothing_iff h hincoming,
    fun _ h => receive_losesNothing_iff h hincoming⟩

/-! ## A record that comes in two pieces -/

instance : DecidableEq FailureStatus := inferInstanceAs (DecidableEq (Subtype _))

deriving instance DecidableEq for TransportRead

/-- The status of a program that fails. -/
def failureOf (p : TlsProgram α) (s : TlsConnection) : Option NTSTATUS :=
  match p s with
  | .ok _ _ => none
  | .error status _ => some status

theorem eq_error_of_failureOf {p : TlsProgram α} {status : NTSTATUS}
    (h : failureOf p s = some status) : p s = .error status (after p s) := by
  rw [failureOf] at h
  rw [after]
  cases hp : p s with
  | ok a t =>
    rw [hp] at h
    cases h
  | error status' t =>
    rw [hp] at h
    rw [Option.some.inj h]

def timedOut : FailureStatus := ⟨statusIoTimeout, rfl⟩

def applicationRecord : Bytes := plainTls13Record 23 [1, 2]

/-- Behind the handshake, a record that comes in two pieces, with a timeout between them. -/
def interruptedServer (n : ℕ) : TlsConnection where
  incoming := separatedServer.incoming ++
    [.octets (applicationRecord.take n), .failed timedOut, .octets (applicationRecord.drop n)]

def interrupted (n : ℕ) : TlsConnection :=
  session plainEnvironment plainOptions [] (interruptedServer n)

/-- The timeout behind the header. -/
theorem losesNothing_iff_header :
    (LosesNothing (readRecord plainEnvironment) (interrupted 5) [applicationRecord.take 5]
        (after (readRecord plainEnvironment) (interrupted 5)) ↔
      EndsAtBoundary (interrupted 5) [applicationRecord.take 5]) ∧
    (LosesNothing (receive plainEnvironment 16) (interrupted 5) [applicationRecord.take 5]
        (after (receive plainEnvironment 16) (interrupted 5)) ↔
      EndsAtBoundary (interrupted 5) [applicationRecord.take 5]) := by
  have hrecord : failureOf (readRecord plainEnvironment) (interrupted 5) = some statusIoTimeout := by
    decide +kernel
  have hreceive : failureOf (receive plainEnvironment 16) (interrupted 5) =
      some statusIoTimeout := by decide +kernel
  constructor
  · exact ((losesNothing_iff plainEnvironment (interrupted 5) _ _ [applicationRecord.take 5] timedOut
      (by decide +kernel)).1 (eq_error_of_failureOf hrecord)).2
  · exact ((losesNothing_iff plainEnvironment (interrupted 5) _ _ [applicationRecord.take 5] timedOut
      (by decide +kernel)).2 16 (eq_error_of_failureOf hreceive)).2

/-- **Octets are lost**: the timeout comes behind two octets of the header, the input buffer is
    empty then, and a later call fails, though the rest of the record has come. -/
theorem receive_losesOctets :
    (interrupted 2).context.established = true ∧
    failureOf (receive plainEnvironment 16) (interrupted 2) = some statusIoTimeout ∧
    (interrupted 2).incoming = delivered [applicationRecord.take 2]
      (.failed timedOut :: (after (receive plainEnvironment 16) (interrupted 2)).incoming) ∧
    ¬ LosesNothing (receive plainEnvironment 16) (interrupted 2) [applicationRecord.take 2]
      (after (receive plainEnvironment 16) (interrupted 2)) ∧
    failureOf (receive plainEnvironment 16) (after (receive plainEnvironment 16) (interrupted 2)) =
      some statusInvalidNetworkResponse := by
  have hlost : (after (receive plainEnvironment 16) (interrupted 2)).inputBuffer = [] := by
    decide +kernel
  have hbefore : (interrupted 2).inputBuffer = [] := by decide +kernel
  refine ⟨by decide +kernel, by decide +kernel, by decide +kernel, fun hkeeps => ?_,
    by decide +kernel⟩
  have hkept := hkeeps.kept
  rw [hlost, hbefore, List.nil_append, recordInProgress_short (by decide)] at hkept
  exact absurd hkept (by decide)

end TlsConnection

end KernelHttp.Tls
