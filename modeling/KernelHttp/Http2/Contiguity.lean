/-
  Header blocks in one piece (RFC 9113, Section 6.10).

  Between HEADERS without END_HEADERS and its end only CONTINUATION may come; three loops check
  this.
-/
import KernelHttp.Http2.SendWindow

namespace KernelHttp.Http2

/-! ## The rule -/

def Http2ActiveStream.blockOpen (a : Http2ActiveStream) : Bool :=
  a.inUse && a.responseState.expectingContinuation

namespace Http2Reader

def own : Http2Reader → List Http2ActiveStream
  | .single a => [a]
  | .dispatch | .tunnel _ _ _ => []

def openBlocks (reader : Http2Reader) (c : Http2Connection) : List Http2ActiveStream :=
  (c.activeStreams ++ reader.own).filter Http2ActiveStream.blockOpen

def status (reader : Http2Reader) (w : Http2World) (f : Http2Frame) : NTSTATUS :=
  match reader with
  | .dispatch => (dispatchFrame w f).1
  | .single a => (singleFrame w a f).1
  | .tunnel streamId i capacity =>
    match (receiveStreamFrame w streamId i capacity f).2 with
    | .failed status _ _ => status
    | .again | .data _ _ | .closed => statusSuccess

/-- The loop fails, and GOAWAY is all that is sent. -/
def FailsConnection (reader : Http2Reader) (w : Http2World) (f : Http2Frame) : Prop :=
  reader.status w f = statusInvalidNetworkResponse ∧
    reader.handle w f = (sendGoAway w .protocolError).2

/-- While a header block is open, a frame continues it or the connection fails;
    CONTINUATION without an open block and PUSH_PROMISE are not accepted. -/
structure KeepsBlocks (reader : Http2Reader) (w : Http2World) (f : Http2Frame) : Prop where
  contiguous : ∀ a ∈ reader.openBlocks w.conn,
    (f.type = .continuation ∧ f.streamId = a.stream.streamId) ∨ reader.FailsConnection w f
  expected : ntSuccess (reader.status w f) = true → f.type ≠ .pushPromise ∧
    (f.type = .continuation → ∃ a ∈ reader.openBlocks w.conn, a.stream.streamId = f.streamId)

/-- A frame for another stream than the tunnel's, whose header block is open. -/
def Continues (c : Http2Connection) (streamId : ℕ) (f : Http2Frame) : Prop :=
  f.streamId ≠ streamId ∧ (c.findActiveStream f.streamId).any
    (fun i => (c.slot i).responseState.expectingContinuation) = true

/-- The frames that keep header blocks in one piece in every loop: `DispatchFrame`
    tests all frames itself. -/
def Guards (reader : Http2Reader) (c : Http2Connection) (f : Http2Frame) : Prop :=
  match reader with
  | .dispatch => True
  | .single _ => c.findContinuationStream = none
  | .tunnel streamId _ _ => isValidFrameTarget f = true →
      Continues c streamId f ∨ c.findContinuationStream = none ∧ f.type ≠ .pushPromise ∧
        (f.type = .continuation → c.findActiveStream f.streamId ≠ none)

instance (c : Http2Connection) (streamId : ℕ) (f : Http2Frame) :
    Decidable (Continues c streamId f) := inferInstanceAs (Decidable (_ ∧ _))

instance (reader : Http2Reader) (c : Http2Connection) (f : Http2Frame) :
    Decidable (reader.Guards c f) :=
  match reader with
  | .dispatch => inferInstanceAs (Decidable True)
  | .single _ => inferInstanceAs (Decidable (_ = _))
  | .tunnel _ _ _ => inferInstanceAs (Decidable (_ → _))

end Http2Reader

/-- A frame that was read keeps header blocks in one piece, whatever surrounds the
    connection. -/
def Http2Event.KeepsBlocks : Http2Event → Prop
  | .received f reader c => ∀ w : Http2World, w.conn = c → reader.KeepsBlocks w f
  | .sent _ _ => True

def Http2Event.Guarded : Http2Event → Prop
  | .received f reader c => reader.Guards c f
  | .sent _ _ => True

instance : ∀ e : Http2Event, Decidable e.Guarded
  | .received f reader c => inferInstanceAs (Decidable (reader.Guards c f))
  | .sent _ _ => inferInstanceAs (Decidable True)

/-! ## Open blocks -/

section Blocks

variable {c c' : Http2Connection} {w : Http2World} {f : Http2Frame} {a : Http2ActiveStream}

theorem exists_slot (h : a ∈ c.activeStreams) : ∃ i, c.slot i = a := by
  obtain ⟨i, hi, rfl⟩ := List.getElem_of_mem h
  exact ⟨i, slot_eq_getElem hi⟩

theorem slot_mem {i : ℕ} (h : (c.slot i).inUse = true) : c.slot i ∈ c.activeStreams := by
  rcases lt_or_ge i c.activeStreams.length with hi | hi
  · rw [slot_eq_getElem hi]
    exact List.getElem_mem hi
  · rw [Http2Connection.slot, List.getD_eq_getElem?_getD, List.getElem?_eq_none hi] at h
    cases h

theorem inUse_of_blockOpen (h : a.blockOpen = true) : a.inUse = true :=
  (Bool.and_eq_true_iff.1 h).1

theorem blockOpen_iff : a.blockOpen = true ↔
    a.inUse = true ∧ a.responseState.expectingContinuation = true := Bool.and_eq_true_iff

theorem findContinuationStream_spec (h : c.findContinuationStream = some a) :
    a ∈ c.activeStreams ∧ a.blockOpen = true :=
  ⟨List.mem_of_find?_eq_some h, List.find?_some h⟩

theorem findContinuationStream_eq_none :
    c.findContinuationStream = none ↔ ∀ a ∈ c.activeStreams, a.blockOpen = false := by
  refine List.find?_eq_none.trans (forall₂_congr fun a _ => ?_)
  rw [Bool.not_eq_true]
  rfl

theorem mem_openBlocks {reader : Http2Reader} : a ∈ reader.openBlocks c ↔
    (a ∈ c.activeStreams ∨ a ∈ reader.own) ∧ a.blockOpen = true := by
  rw [Http2Reader.openBlocks, List.mem_filter, List.mem_append]

/-- All open header blocks are of one stream. -/
def OneBlock (c : Http2Connection) : Prop :=
  ∀ i j, (c.slot i).blockOpen = true → (c.slot j).blockOpen = true →
    (c.slot i).stream.streamId = (c.slot j).stream.streamId

theorem OneBlock.eq (h : OneBlock c) {b : Http2ActiveStream} (ha : a ∈ c.activeStreams)
    (hb : b ∈ c.activeStreams) (ha' : a.blockOpen = true) (hb' : b.blockOpen = true) :
    a.stream.streamId = b.stream.streamId := by
  obtain ⟨i, rfl⟩ := exists_slot ha
  obtain ⟨j, rfl⟩ := exists_slot hb
  exact h i j ha' hb'

end Blocks

/-! ## The loops -/

section Loops

variable {w : Http2World} {f : Http2Frame}

theorem dispatchFrame_pushPromise (hf : f.type = .pushPromise) :
    ntSuccess (dispatchFrame w f).1 = false := by
  unfold dispatchFrame
  split
  · rfl
  · next h =>
    rw [not_or, not_not] at h
    have h0 : f.streamId ≠ 0 := by
      have := h.1
      rw [isValidFrameTarget, hf] at this
      simpa using this
    rw [if_neg h0, if_pos (.inr (.inr (.inr hf)))]
    rfl

/-- **`DispatchFrame`** keeps to one open header block. -/
theorem dispatch_keepsBlocks (h : f.type = .continuation → OneBlock w.conn) :
    Http2Reader.dispatch.KeepsBlocks w f := by
  constructor
  · intro a ha
    obtain ⟨ha | ha, hopen⟩ := mem_openBlocks.1 ha
    · cases hfind : w.conn.findContinuationStream with
      | none =>
        rw [findContinuationStream_eq_none.1 hfind a ha] at hopen
        cases hopen
      | some b =>
        obtain ⟨hb, hb'⟩ := findContinuationStream_spec hfind
        by_cases hcont : f.type = .continuation ∧ f.streamId = b.stream.streamId
        · exact .inl ⟨hcont.1, hcont.2.trans ((h hcont.1).eq hb ha hb' hopen)⟩
        · have hbreaks : breaksContinuation w.conn f = true := by
            rw [breaksContinuation, hfind]
            simp only [Bool.or_eq_true, bne_iff_ne]
            exact not_and_or.1 hcont
          have hrefuse : dispatchFrame w f = refuse w .protocolError statusInvalidNetworkResponse :=
            if_pos (.inr hbreaks)
          exact .inr ⟨congrArg Prod.fst hrefuse, (congrArg Prod.snd hrefuse).trans rfl⟩
    · exact absurd ha List.not_mem_nil
  · intro hok
    change ntSuccess (dispatchFrame w f).1 = true at hok
    refine ⟨fun hf => ?_, fun hf => ?_⟩
    · rw [dispatchFrame_pushPromise hf] at hok
      cases hok
    · by_cases hbreaks : breaksContinuation w.conn f = true
      · rw [show dispatchFrame w f = _ from if_pos (.inr hbreaks)] at hok
        cases hok
      · rw [breaksContinuation] at hbreaks
        cases hfind : w.conn.findContinuationStream with
        | none => simp [hfind, hf] at hbreaks
        | some b =>
          obtain ⟨hb, hb'⟩ := findContinuationStream_spec hfind
          refine ⟨b, mem_openBlocks.2 ⟨.inl hb, hb'⟩, ?_⟩
          simp only [hfind, Bool.or_eq_true, bne_iff_ne, not_or, not_not] at hbreaks
          exact hbreaks.2.symm

/-- **The reader of a single stream** does it while no header block of a slot is
    open. -/
theorem single_keepsBlocks {a : Http2ActiveStream} (ha : OwnBlock a)
    (hslots : w.conn.findContinuationStream = none) :
    (Http2Reader.single a).KeepsBlocks w f := by
  have hrefuse : breaksSingleContinuation a.responseState f = true →
      singleFrame w a f = refuseConnection w a .protocolError statusInvalidNetworkResponse :=
    fun h => if_pos (.inr h)
  constructor
  · intro b hb
    obtain ⟨hb | hb, hopen⟩ := mem_openBlocks.1 hb
    · rw [findContinuationStream_eq_none.1 hslots b hb] at hopen
      cases hopen
    · obtain rfl := List.mem_singleton.1 hb
      obtain ⟨-, hexp⟩ := blockOpen_iff.1 hopen
      by_cases hcont : f.type = .continuation ∧ f.streamId = b.stream.streamId
      · exact .inl hcont
      · have hbreaks : breaksSingleContinuation b.responseState f = true := by
          rw [breaksSingleContinuation, hexp, ha.continues hexp]
          by_cases hf : f.type = .continuation
          · simpa [hf] using hcont
          · simp [hf]
        exact .inr ⟨congrArg Prod.fst (hrefuse hbreaks), congrArg (·.2.1) (hrefuse hbreaks)⟩
  · intro hok
    change ntSuccess (singleFrame w a f).1 = true at hok
    refine ⟨fun hf => ?_, fun hf => ?_⟩
    · unfold singleFrame at hok
      split at hok
      · cases hok
      · next h =>
        rw [not_or, not_not] at h
        have h0 : f.streamId ≠ 0 := by
          have := h.1
          rw [isValidFrameTarget, hf] at this
          simpa using this
        rw [if_neg h0, if_pos (.inr (.inr (.inr hf)))] at hok
        cases hok
    · by_cases hbreaks : breaksSingleContinuation a.responseState f = true
      · rw [hrefuse hbreaks] at hok
        cases hok
      · simp only [breaksSingleContinuation, hf, beq_self_eq_true, Bool.true_and, bne_self_eq_false,
          Bool.and_false, Bool.or_false, Bool.or_eq_true, Bool.not_eq_true', not_or,
          Bool.not_eq_false, bne_iff_ne, ne_eq, not_not] at hbreaks
        obtain ⟨hexp, hid⟩ := hbreaks
        refine ⟨a, mem_openBlocks.2 ⟨.inr (List.mem_singleton.2 rfl),
          blockOpen_iff.2 ⟨ha.inUse, hexp⟩⟩, ?_⟩
        rw [hid, ha.continues hexp]

theorem setSlot_self (c : Http2Connection) (i : ℕ) : c.setSlot i (c.slot i) = c := by
  have h : c.activeStreams.set i (c.slot i) = c.activeStreams := by
    rcases lt_or_ge i c.activeStreams.length with hi | hi
    · rw [slot_eq_getElem hi, List.set_getElem_self]
    · exact List.set_eq_of_length_le hi
  rw [Http2Connection.setSlot, h]

theorem processSlot_refuses {j : ℕ}
    (hopen : (w.conn.slot j).responseState.expectingContinuation = true)
    (hf : f.type ≠ .continuation) :
    processSlot w j f = refuse w .protocolError statusInvalidNetworkResponse := by
  have hprocess : processResponseFrame w (w.conn.slot j) f =
      (statusInvalidNetworkResponse, (sendGoAway w .protocolError).2, w.conn.slot j) := by
    unfold processResponseFrame
    rw [continuationGate_closed hopen hf]
    rfl
  have hslot : (sendGoAway w .protocolError).2.conn.slot j = w.conn.slot j :=
    (sendGoAway_quiet (t := .nothing) w .protocolError).slot j
  unfold processSlot
  rw [hprocess, ← hslot]
  simp only [setSlot_self]
  rfl

theorem processSlot_unexpected {j : ℕ}
    (hclosed : (w.conn.slot j).responseState.expectingContinuation = false)
    (hf : f.type = .continuation) : ntSuccess (processSlot w j f).1 = false := by
  have hgate : continuationGate (w.conn.slot j).responseState f =
      (false, (w.conn.slot j).responseState) := by
    unfold continuationGate
    rw [if_pos hf, if_pos (.inl (by simp [hclosed]))]
  unfold processSlot processResponseFrame
  rw [hgate]
  rfl

theorem Http2Reader.status_tunnel {streamId i capacity j : ℕ} (hvalid : isValidFrameTarget f = true)
    (hid : f.streamId ≠ streamId) (hj : w.conn.findActiveStream f.streamId = some j) :
    (Http2Reader.tunnel streamId i capacity).handle w f = (processSlot w j f).2 ∧
      (ntSuccess ((Http2Reader.tunnel streamId i capacity).status w f) =
        ntSuccess (processSlot w j f).1) ∧
      (ntSuccess (processSlot w j f).1 = false →
        (Http2Reader.tunnel streamId i capacity).status w f = (processSlot w j f).1) := by
  have hframe : receiveStreamFrame w streamId i capacity f = outcomeOf (processSlot w j f) := by
    unfold receiveStreamFrame
    rw [if_neg (by simp [hvalid]), if_neg (findActiveStream_spec hj).2, if_pos hid, hj]
  unfold Http2Reader.handle Http2Reader.status
  simp only [hframe, outcomeOf]
  by_cases hok : ntSuccess (processSlot w j f).1 = true
  · simp [hok]
  · simp [hok]

/-- **`ReceiveStreamData`** does it for the frames that are guarded. -/
theorem tunnel_keepsBlocks {streamId i capacity : ℕ} (hone : OneBlock w.conn)
    (hguard : (Http2Reader.tunnel streamId i capacity).Guards w.conn f) :
    (Http2Reader.tunnel streamId i capacity).KeepsBlocks w f := by
  by_cases hvalid : isValidFrameTarget f = true
  · rcases hguard hvalid with ⟨hid, hany⟩ | ⟨hnone, hpush, hknown⟩
    · -- the frame of a stream with an open header block
      obtain ⟨j, hj, hexp⟩ := (Option.any_eq_true _ _).1 hany
      obtain ⟨hslot, h0⟩ := findActiveStream_spec hj
      have hopen : (w.conn.slot j).blockOpen = true := blockOpen_iff.2 ⟨hslot.2.1, hexp⟩
      obtain ⟨hhandle, hstatus, hfail⟩ :=
        @Http2Reader.status_tunnel w f streamId i capacity j hvalid hid hj
      constructor
      · intro a ha
        obtain ⟨ha | ha, ha'⟩ := mem_openBlocks.1 ha
        · by_cases hf : f.type = .continuation
          · exact .inl ⟨hf, hslot.2.2.symm.trans (hone.eq (slot_mem hslot.2.1) ha hopen ha')⟩
          · have hrefuse := processSlot_refuses hexp hf
            rw [hrefuse] at hfail hhandle
            exact .inr ⟨hfail rfl, hhandle⟩
        · exact absurd ha List.not_mem_nil
      · intro hok
        rw [hstatus] at hok
        refine ⟨fun hf => ?_, fun _ =>
          ⟨_, mem_openBlocks.2 ⟨.inl (slot_mem hslot.2.1), hopen⟩, hslot.2.2⟩⟩
        rw [processSlot_refuses hexp (by simp [hf])] at hok
        cases hok
    · -- no header block is open
      rw [findContinuationStream_eq_none] at hnone
      constructor
      · intro a ha
        obtain ⟨ha | ha, ha'⟩ := mem_openBlocks.1 ha
        · rw [hnone a ha] at ha'
          cases ha'
        · exact absurd ha List.not_mem_nil
      · intro hok
        refine ⟨hpush, fun hf => ?_⟩
        obtain ⟨j, hj⟩ := Option.ne_none_iff_exists'.1 (hknown hf)
        obtain ⟨hslot, h0⟩ := findActiveStream_spec hj
        by_cases hid : f.streamId = streamId
        · have hown : receiveStreamFrame w streamId i capacity f =
              ((sendRstStream w streamId .protocolError).2,
                .failed statusInvalidNetworkResponse [] false) := by
            unfold receiveStreamFrame tunnelFrame
            rw [if_neg (by simp [hvalid]), if_neg h0, if_neg (by simp [hid]), hf]
          rw [Http2Reader.status, hown] at hok
          cases hok
        · have hclosed : (w.conn.slot j).responseState.expectingContinuation = false := by
            have := hnone _ (slot_mem hslot.2.1)
            rwa [Http2ActiveStream.blockOpen, hslot.2.1, Bool.true_and] at this
          rw [(Http2Reader.status_tunnel hvalid hid hj).2.1, processSlot_unexpected hclosed hf] at hok
          cases hok
  · have hrefuse : receiveStreamFrame w streamId i capacity f =
        ((sendGoAway w .protocolError).2, .failed statusInvalidNetworkResponse [] false) :=
      if_pos hvalid
    have hfails : (Http2Reader.tunnel streamId i capacity).FailsConnection w f := by
      unfold Http2Reader.FailsConnection Http2Reader.status Http2Reader.handle
      simp only [hrefuse, and_self]
    refine ⟨fun a _ => .inr hfails, fun hok => ?_⟩
    rw [hfails.1] at hok
    cases hok

/-- **Every loop keeps header blocks in one piece** on guarded frames, while all open
    blocks are of one stream. -/
theorem Http2Reader.keepsBlocks (reader : Http2Reader) (hv : reader.Valid w.conn)
    (hone : OneBlock w.conn) (hguard : reader.Guards w.conn f) : reader.KeepsBlocks w f := by
  cases reader with
  | dispatch => exact dispatch_keepsBlocks fun _ => hone
  | single a => exact single_keepsBlocks hv hguard
  | tunnel streamId i capacity => exact tunnel_keepsBlocks hone hguard

end Loops

/-! ## One header block at a time -/

section Runs

variable {c c' : Http2Connection} {w w' : Http2World} {f : Http2Frame}

/-- No header block is opened, apart from that of the slot at `i`. -/
def NoneOpened (i : ℕ → Prop) (c c' : Http2Connection) : Prop :=
  ∀ j, (c'.slot j).blockOpen = true → ((c.slot j).blockOpen = true ∧
    (c'.slot j).stream.streamId = (c.slot j).stream.streamId) ∨ i j

theorem NoneOpened.of_slots {i : ℕ → Prop} (h : ∀ j, (c'.slot j).inUse = (c.slot j).inUse ∧
    (c'.slot j).responseState.expectingContinuation =
      (c.slot j).responseState.expectingContinuation ∧
    (c'.slot j).stream.streamId = (c.slot j).stream.streamId) : NoneOpened i c c' := by
  intro j hj
  obtain ⟨hu, he, hid⟩ := h j
  rw [Http2ActiveStream.blockOpen, hu, he] at hj
  exact .inl ⟨hj, hid⟩

theorem NoneOpened.of_eq {i : ℕ → Prop} (h : c'.activeStreams = c.activeStreams) :
    NoneOpened i c c' := by
  refine .of_slots fun j => ?_
  simp only [Http2Connection.slot, h, and_self]

theorem NoneOpened.calm {i : ℕ → Prop} (h : Calm w w') : NoneOpened i w.conn w'.conn :=
  .of_slots fun j => ⟨(h.slot j).inUse, by rw [(h.slot j).responseState], (h.slot j).streamId⟩

/-- One slot changes. -/
theorem NoneOpened.set {i : ℕ → Prop} {k : ℕ} {a : Http2ActiveStream}
    (ha : c'.activeStreams = c.activeStreams.set k a)
    (h : a.blockOpen = true → ((c.slot k).blockOpen = true ∧
      a.stream.streamId = (c.slot k).stream.streamId) ∨ i k) : NoneOpened i c c' := by
  intro j hj
  by_cases hjk : j = k
  · subst hjk
    by_cases hlt : j < c.activeStreams.length
    · have hslot : c'.slot j = a := by
        rw [← slot_setSlot_self (a := a) hlt, Http2Connection.slot, ha]
        rfl
      rw [hslot] at hj ⊢
      exact h hj
    · have hslot : c'.slot j = {} := by
        rw [Http2Connection.slot, List.getD_eq_default]
        rw [ha, List.length_set]
        omega
      rw [hslot] at hj
      cases hj
  · have hslot : c'.slot j = c.slot j := by
      rw [← slot_setSlot_ne (c := c) (a := a) hjk, Http2Connection.slot, ha]
      rfl
    rw [hslot] at hj ⊢
    exact .inl ⟨hj, rfl⟩

theorem OneBlock.noneOpened (h : OneBlock c) (hn : NoneOpened (fun _ => False) c c') :
    OneBlock c' := by
  intro i j hi hj
  obtain ⟨hi, hid⟩ := (hn i hi).resolve_right id
  obtain ⟨hj, hjd⟩ := (hn j hj).resolve_right id
  rw [hid, hjd]
  exact h i j hi hj

/-- A frame opens one header block at most, and only HEADERS does. -/
theorem Handled.noneOpened (h : Handled w f w') :
    ∃ i, NoneOpened (fun j => j = i ∧ f.type = .headers) w.conn w'.conn := by
  cases h with
  | refused => exact ⟨0, .of_eq (sendGoAway_quiet (t := .nothing) w _).activeStreams⟩
  | connection s h0 => exact ⟨0, .calm (handleConnectionFrame_calm w f s)⟩
  | ignored => exact ⟨0, .of_eq rfl⟩
  | ignoredReset streamId e =>
    exact ⟨0, .of_eq (sendRstStream_quiet (t := .nothing) w streamId e).activeStreams⟩
  | single a => exact ⟨0, .of_eq (processResponseFrame_quiet w a f).activeStreams⟩
  | slot i hi h0 =>
    refine ⟨i, .set (processSlot_slotStep w i f).activeStreams fun hopen => ?_⟩
    obtain ⟨hu, hexp⟩ := blockOpen_iff.1 hopen
    cases processResponseFrame_block w (w.conn.slot i) f with
    | closed h =>
      rw [hexp] at h
      cases h
    | kept h _ hs => exact .inl ⟨blockOpen_iff.2 ⟨hi.2.1, h⟩, hs⟩
    | opened hf _ _ => exact .inr ⟨rfl, hf⟩
  | tunnel i capacity hi h0 hf =>
    obtain ⟨s, hs, hid, -⟩ := tunnelData_slotStep w i capacity f hi.1
    exact ⟨i, .set hs.activeStreams fun hopen => .inl ⟨hopen, hid⟩⟩

theorem Http2Reader.KeepsBlocks.oneBlock {reader : Http2Reader} (h : reader.KeepsBlocks w f)
    (hv : reader.Valid w.conn) (hone : OneBlock w.conn) : OneBlock (reader.handle w f).conn := by
  obtain ⟨i, hn⟩ := (reader.handle_handled f hv).noneOpened
  by_cases hf : f.type = .headers
  · by_cases hany : ∃ j, (w.conn.slot j).blockOpen = true
    · -- HEADERS while a block is open fails the connection
      obtain ⟨j, hj⟩ := hany
      have hmem : w.conn.slot j ∈ reader.openBlocks w.conn :=
        mem_openBlocks.2 ⟨.inl (slot_mem (inUse_of_blockOpen hj)), hj⟩
      rcases h.contiguous _ hmem with ⟨hcont, -⟩ | hfails
      · rw [hf] at hcont
        cases hcont
      · rw [hfails.2]
        exact hone.noneOpened (.calm (sendGoAway_calm w _))
    · intro j k hj hk
      obtain ⟨rfl, -⟩ := (hn j hj).resolve_left fun h => hany ⟨j, h.1⟩
      obtain ⟨rfl, -⟩ := (hn k hk).resolve_left fun h => hany ⟨k, h.1⟩
      rfl
  · exact hone.noneOpened fun j hj => .inl ((hn j hj).resolve_right fun h => hf h.2)

/-- No frame is read, and no header block is opened. -/
structure Uneventful (w w' : Http2World) : Prop where
  events : ∀ e ∈ w'.events, e ∈ w.events ∨ ∃ frames status, e = .sent frames status
  blocks : NoneOpened (fun _ => False) w.conn w'.conn

theorem Uneventful.of_eq (he : w'.events = w.events)
    (hb : NoneOpened (fun _ => False) w.conn w'.conn) : Uneventful w w' :=
  ⟨fun _ hmem => .inl (he ▸ hmem), hb⟩

theorem Uneventful.of_sent {frames : List Http2Frame} {status : NTSTATUS}
    (he : w'.events = w.events ++ [.sent frames status])
    (ha : w'.conn.activeStreams = w.conn.activeStreams) : Uneventful w w' := by
  refine ⟨fun e hmem => ?_, .of_eq ha⟩
  rw [he] at hmem
  rcases List.mem_append.1 hmem with hmem | hmem
  · exact .inl hmem
  · exact .inr ⟨frames, status, List.mem_singleton.1 hmem⟩

theorem Calm.uneventful (h : Calm w w') : Uneventful w w' := by
  obtain ⟨es, he, hc⟩ := h.events
  refine ⟨fun e hmem => ?_, .calm h⟩
  rw [he] at hmem
  rcases List.mem_append.1 hmem with hmem | hmem
  · exact .inl hmem
  · obtain ⟨f, status, rfl, -⟩ := hc e hmem
    exact .inr ⟨[f], status, rfl⟩

theorem Step.uneventful_or_frame {k : Option (Http2Connection → Prop)} (h : Step k w w') :
    Uneventful w w' ∨ ∃ reader f, Http2Reader.Valid reader w.conn ∧
      w' = reader.handle (receiveFrame w reader f) f := by
  cases h with
  | bookkeeping incoming h => exact .inl (.of_eq rfl (.of_eq h.activeStreams))
  | frame reader f h hb => exact .inr ⟨reader, f, h, rfl⟩
  | goAway _ e => exact .inl (sendGoAway_calm w e).uneventful
  | ping _ d => exact .inl (.of_sent rfl rfl)
  | shutdown =>
    refine .inl ?_
    unfold Http2.shutdown
    split
    · exact .of_eq rfl (.of_eq rfl)
    · exact .of_sent rfl rfl
  | openStream r t h _ =>
    exact .inl (.of_eq rfl (.set (i := fun _ => False) rfl fun hopen => by cases hopen))
  | clear => exact .inl (.of_eq rfl (.of_eq rfl))
  | flush => exact .inl (.of_sent rfl rfl)
  | sendHeaders _ i b =>
    exact .inl (.of_eq rfl (.set (i := fun _ => False) rfl fun hopen => .inl ⟨hopen, by simp⟩))
  | queue _ h => exact .inl (.of_eq rfl (.of_eq rfl))
  | @debit _ _ _ i _ chunk last hslot hpos hle h =>
    obtain ⟨g, stream, -, hd, rfl⟩ := debitData_eq h
    have hid : stream.streamId = (w.conn.slot i).stream.streamId := by
      have := Http2Stream.sendData_streamId (w.conn.slot i).stream chunk.length last
      rwa [hd] at this
    exact .inl (.of_eq rfl (.set (i := fun _ => False) rfl fun hopen => .inl ⟨hopen, hid⟩))
  | release _ streamId =>
    unfold Http2.releaseStream Http2Connection.releaseActiveStream
    split
    · exact .inl (.of_eq rfl (.of_eq rfl))
    · exact .inl (.of_eq rfl (.set (i := fun _ => False) rfl fun hopen => by cases hopen))
  | publish _ i =>
    exact .inl (.of_eq rfl (.set (i := fun _ => False) rfl fun hopen => .inl ⟨hopen, rfl⟩))

theorem FrameEffect.sends (h : FrameEffect w f w') :
    ∀ e ∈ w'.events, e ∈ w.events ∨ ∃ frames status, e = .sent frames status := by
  obtain ⟨t, es, he, hc⟩ := h.events
  intro e hmem
  rw [he] at hmem
  rcases List.mem_append.1 hmem with hmem | hmem
  · exact .inl hmem
  · obtain ⟨f, status, rfl, -⟩ := hc e hmem
    exact .inr ⟨[f], status, rfl⟩

/-- While all frames were guarded, header blocks are in one piece and one is open at
    most. -/
def BlockInvariant (w : Http2World) : Prop :=
  (∀ e ∈ w.events, e.Guarded) → OneBlock w.conn ∧ ∀ e ∈ w.events, e.KeepsBlocks

theorem Started.blockInvariant (h : Started w) : BlockInvariant w := by
  obtain ⟨n, hc⟩ := h.conn
  obtain ⟨settings, sent, f, c, acked, -, he, hty, -⟩ := h.events
  refine fun _ => ⟨?_, ?_⟩
  · have hslots : ∀ i, w.conn.slot i = {} := by
      intro i
      rw [hc]
      simp only [freshConnection, Http2Connection.slot, List.getD_eq_getElem?_getD,
        List.getElem?_replicate]
      split <;> rfl
    intro i j hi
    rw [hslots i] at hi
    cases hi
  · rw [he]
    intro e hmem
    simp only [List.mem_cons, List.not_mem_nil, or_false] at hmem
    rcases hmem with rfl | rfl | rfl
    · trivial
    · exact fun w _ => dispatch_keepsBlocks fun hf => by rw [hty] at hf; cases hf
    · trivial

theorem Step.blockInvariant {k : Option (Http2Connection → Prop)} (h : BlockInvariant w)
    (hs : Step k w w') : BlockInvariant w' := by
  intro hguard
  have hgrows := hs.grows.events
  obtain ⟨hone, hkeeps⟩ := h fun e he => hguard e (hgrows.subset he)
  rcases hs.uneventful_or_frame with hun | ⟨reader, f, hv, rfl⟩
  · refine ⟨hone.noneOpened hun.blocks, fun e he => ?_⟩
    rcases hun.events e he with he | ⟨frames, status, rfl⟩
    · exact hkeeps e he
    · trivial
  · have hmem : .received f reader w.conn ∈ (reader.handle (receiveFrame w reader f) f).events :=
      (reader.frame_effect f hv).grows.events.subset (by simp [receiveFrame])
    have hframe : ∀ w₁ : Http2World, w₁.conn = w.conn → reader.KeepsBlocks w₁ f := by
      intro w₁ hw₁
      refine reader.keepsBlocks ?_ ?_ ?_
      · rwa [hw₁]
      · rwa [hw₁]
      · rw [hw₁]
        exact hguard _ hmem
    refine ⟨(hframe (receiveFrame w reader f) rfl).oneBlock hv hone, fun e he => ?_⟩
    rcases (reader.frame_effect f hv).sends e he with he | ⟨frames, status, rfl⟩
    · rcases List.mem_append.1 he with he | he
      · exact hkeeps e he
      · rw [List.mem_singleton.1 he]
        exact hframe
    · trivial

end Runs

/-- **Header blocks are in one piece** in every run whose frames are guarded. -/
theorem headerBlocks_kept {w : Http2World} (h : Reachable w)
    (hguard : ∀ e ∈ w.events, e.Guarded) : ∀ e ∈ w.events, e.KeepsBlocks :=
  (Reachable.induct (P := BlockInvariant) (fun _ h => h.blockInvariant)
    (fun _ _ h hs => hs.blockInvariant h) h hguard).2

/-- SETTINGS (ENABLE_CONNECT_PROTOCOL), the response on stream 1, HEADERS without
    END_HEADERS on stream 3, then `rest` and DATA on stream 1. -/
def openBlockThen (rest : Bytes) : Bytes :=
  [0, 0, 6, 4, 0, 0, 0, 0, 0, 0, 8, 0, 0, 0, 1,
    0, 0, 1, 1, 4, 0, 0, 0, 1, 0x88,
    0, 0, 1, 1, 0, 0, 0, 0, 3, 0x88] ++ rest ++ [0, 0, 2, 0, 0, 0, 0, 0, 1, 0x61, 0x62]

/-- A tunnel on stream 1 is read while a request on stream 3 is open. -/
def tunnelBeside : List Http2Call :=
  [.beginRequest tunnelRequest, .receiveResponseHeaders 1, .beginRequest getRequest,
    .receiveStreamData 1 16]

/-- CONTINUATION on stream 3 comes first. -/
theorem headerBlocks_kept_continued :
    (runOn (openBlockThen [0, 0, 0, 9, 4, 0, 0, 0, 3]) tunnelBeside).events ≠ [] ∧
      ∀ e ∈ (runOn (openBlockThen [0, 0, 0, 9, 4, 0, 0, 0, 3]) tunnelBeside).events,
        e.KeepsBlocks :=
  ⟨by decide +kernel,
    headerBlocks_kept (runOn_reachable (by decide +kernel)) (by decide +kernel)⟩

/-- DATA of the tunnel is delivered while the header block of stream 3 is open. -/
theorem headerBlocks_interleaved :
    ¬ ∀ w, Reachable w → ∀ e ∈ w.events, e.KeepsBlocks := by
  intro hall
  have hrun : ∃ e ∈ (runOn (openBlockThen []) tunnelBeside).events, (match e with
      | .received f reader c => decide (f.type = .data ∧
          ntSuccess (reader.status { conn := c } f) = true ∧ reader.openBlocks c ≠ [])
      | .sent _ _ => false) = true := by
    decide +kernel
  obtain ⟨e, he, h⟩ := hrun
  have hkeeps := hall _ (runOn_reachable (by decide +kernel)) e he
  cases e with
  | sent frames status => cases h
  | received f reader c =>
    obtain ⟨hf, hok, hne⟩ := of_decide_eq_true h
    obtain ⟨a, ha⟩ := List.exists_mem_of_ne_nil _ hne
    rcases (hkeeps { conn := c } rfl).contiguous a ha with ⟨hcont, -⟩ | hfails
    · rw [hf] at hcont
      cases hcont
    · rw [hfails.1] at hok
      cases hok

end KernelHttp.Http2
