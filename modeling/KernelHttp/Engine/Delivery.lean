/-
  Which responses are delivered.

  The reader parses again and again, growing `DecodedBody` when a result has no room; the
  scratch body is not grown.
-/
import KernelHttp.Engine.ResponseReader
import KernelHttp.Http1.Framing
import KernelHttp.Http1.Results
import KernelHttp.Lib.Loop

namespace KernelHttp.Engine

open Http1 Program Placing Loop

/-! ## Growth of the workspace -/

namespace ResponseWorkspace

/-- What `KhWorkspaceCreate` provides: both buffers, of sizes that are `SIZE_T` values. -/
structure Created (workspace : ResponseWorkspace) : Prop where
  decodedBody : workspace.decodedBodyLength ≠ 0
  scratchBody : workspace.scratchBodyLength ≠ 0
  decodedBody_le : workspace.decodedBodyLength ≤ maxSizeT
  maxResponseBytes_le : workspace.maxResponseBytes ≤ maxSizeT

/-- The largest response, and the largest `DecodedBody`. -/
def limit (workspace : ResponseWorkspace) : ℕ :=
  if workspace.maxResponseBytes = 0 then maxSizeT else workspace.maxResponseBytes

def capacities (workspace : ResponseWorkspace) : Capacities :=
  ⟨workspace.decodedBodyLength, workspace.scratchBodyLength⟩

/-- The workspace behind a number of doublings of `DecodedBody`. -/
def grown (workspace : ResponseWorkspace) (doublings : ℕ) : ResponseWorkspace :=
  { workspace with
    decodedBodyLength := max workspace.decodedBodyLength
      (min (workspace.decodedBodyLength * 2 ^ doublings) workspace.limit) }

/-- A result has room; inflate takes no buffer whose length is not a `ULONG`.  What is decoded is
not more than 64 times as long as what it is decoded from. -/
def Fits (k : Capacities) : CodingResult → Prop
  | .stored location octets inflated =>
    octets.length ≤ k.room location ∧ (inflated = true → k.room location ≤ 0xFFFFFFFF)
  | .checked encodedLength decodedLength => isDecodedSizeAllowed encodedLength decodedLength = true

/-- With one of the lengths that `DecodedBody` grows to, every result fits. -/
def HasRoom (workspace : ResponseWorkspace) (results : List CodingResult) : Prop :=
  ∃ doublings, workspace.decodedBodyLength * 2 ^ doublings ≤ maxSizeT ∧
    ∀ r ∈ results, Fits (workspace.grown doublings).capacities r

/-- `DecodedBody` can be doubled once more. -/
def CanGrow (workspace : ResponseWorkspace) : Prop :=
  workspace.decodedBodyLength < workspace.limit ∧ workspace.decodedBodyLength * 2 ≤ maxSizeT

variable {workspace : ResponseWorkspace} {results : List CodingResult} {r : CodingResult}

variable {k : Capacities} {doublings : ℕ}

theorem sizeFitsUlong_iff {size : ℕ} : sizeFitsUlong size = true ↔ size ≤ 0xFFFFFFFF :=
  decide_eq_true_iff

theorem fits_iff : Fits k r ↔ r.place k = .ok () := by
  cases r with
  | stored location octets inflated =>
    rw [CodingResult.place, Fits, ← sizeFitsUlong_iff]
    constructor
    · rintro ⟨hle, hulong⟩
      rw [if_neg fun h => h.2 (hulong h.1), if_pos hle]
    · intro h
      split_ifs at h with hlong hle
      exact ⟨hle, fun hinflated => by_contra fun hnot => hlong ⟨hinflated, hnot⟩⟩
  | checked encodedLength decodedLength =>
    rw [CodingResult.place, Fits]
    split_ifs with hallowed
    · exact iff_of_true hallowed rfl
    · exact iff_of_false hallowed fun h => by cases h

theorem store_fits :
    store (fun k r => CodingResult.place k r) k results = .ok () ↔ ∀ r ∈ results, Fits k r := by
  rw [store_eq_ok]
  exact forall₂_congr fun r _ => fits_iff.symm

theorem grown_zero : workspace.grown 0 = workspace := by
  rw [grown, pow_zero, mul_one, max_eq_left (Nat.min_le_left _ _)]

theorem CanGrow.grown_length (h : workspace.CanGrow) :
    (workspace.grown 1).decodedBodyLength =
      min (workspace.decodedBodyLength * 2) workspace.limit := by
  obtain ⟨hlt, -⟩ := h
  simp only [grown, pow_one]
  omega

theorem CanGrow.lt_grown (h : workspace.CanGrow) (hw : workspace.Created) :
    workspace.decodedBodyLength < (workspace.grown 1).decodedBodyLength := by
  rw [h.grown_length]
  have := hw.decodedBody
  have := h.1
  omega

theorem Created.grown (hw : workspace.Created) (h : workspace.CanGrow) :
    (workspace.grown 1).Created where
  decodedBody := (Nat.zero_le _).trans_lt (h.lt_grown hw) |>.ne'
  scratchBody := hw.scratchBody
  decodedBody_le := by
    rw [h.grown_length]
    exact (Nat.min_le_left _ _).trans h.2
  maxResponseBytes_le := hw.maxResponseBytes_le

theorem le_mul_two_pow {length : ℕ} : length * 2 ≤ length * 2 ^ (doublings + 1) := by
  rw [pow_succ']
  exact Nat.mul_le_mul_left _ (Nat.le_mul_of_pos_right 2 (Nat.two_pow_pos doublings))

theorem CanGrow.grown_grown (h : workspace.CanGrow)
    (hle : workspace.decodedBodyLength * 2 ≤ workspace.limit) :
    (workspace.grown 1).grown doublings = workspace.grown (doublings + 1) := by
  have hlen : (workspace.grown 1).decodedBodyLength = workspace.decodedBodyLength * 2 := by
    rw [h.grown_length, Nat.min_eq_left hle]
  have hpow : workspace.decodedBodyLength * 2 ≤ workspace.decodedBodyLength * 2 ^ (doublings + 1) :=
    le_mul_two_pow
  rw [ResponseWorkspace.grown.eq_def (workspace.grown 1), hlen, mul_assoc, ← pow_succ',
    show (workspace.grown 1).limit = workspace.limit from rfl]
  simp only [grown]
  congr 1
  omega

theorem CanGrow.grown_grown_of_lt (h : workspace.CanGrow)
    (hlt : workspace.limit < workspace.decodedBodyLength * 2) :
    (workspace.grown 1).grown doublings = workspace.grown 1 := by
  have hlen : (workspace.grown 1).decodedBodyLength = workspace.limit := by
    rw [h.grown_length, Nat.min_eq_right hlt.le]
  rw [ResponseWorkspace.grown.eq_def (workspace.grown 1), hlen,
    show (workspace.grown 1).limit = workspace.limit from rfl,
    max_eq_left (Nat.min_le_right _ _), ← hlen]

theorem grown_succ_of_lt (hlt : workspace.limit < workspace.decodedBodyLength * 2) :
    workspace.grown (doublings + 1) = workspace.grown 1 := by
  have hpow : workspace.decodedBodyLength * 2 ≤ workspace.decodedBodyLength * 2 ^ (doublings + 1) :=
    le_mul_two_pow
  simp only [grown, pow_one]
  congr 1
  omega

theorem grown_of_limit_le (h : workspace.limit ≤ workspace.decodedBodyLength) :
    workspace.grown doublings = workspace := by
  rw [grown, max_eq_left ((Nat.min_le_right _ _).trans h)]

theorem Created.withResponseLength (hw : workspace.Created) {responseLength : ℕ} :
    { workspace with responseLength : ResponseWorkspace }.Created :=
  ⟨hw.decodedBody, hw.scratchBody, hw.decodedBody_le, hw.maxResponseBytes_le⟩

theorem hasRoom_iff (hw : workspace.Created) : workspace.HasRoom results ↔
    (∀ r ∈ results, Fits workspace.capacities r) ∨
      workspace.CanGrow ∧ (workspace.grown 1).HasRoom results := by
  constructor
  · rintro ⟨doublings, hle, hfits⟩
    rcases Nat.lt_or_ge workspace.decodedBodyLength workspace.limit with hlimit | hlimit
    swap
    · rw [grown_of_limit_le hlimit] at hfits
      exact .inl hfits
    rcases doublings with - | doublings
    · rw [grown_zero] at hfits
      exact .inl hfits
    have hgrow : workspace.CanGrow := ⟨hlimit, le_mul_two_pow.trans hle⟩
    refine .inr ⟨hgrow, ?_⟩
    rcases Nat.lt_or_ge workspace.limit (workspace.decodedBodyLength * 2) with hlt | hge
    · refine ⟨0, ?_, ?_⟩
      · rw [pow_zero, mul_one]
        exact (hw.grown hgrow).decodedBody_le
      · rw [grown_succ_of_lt hlt] at hfits
        rw [grown_zero]
        exact hfits
    · refine ⟨doublings, ?_, ?_⟩
      · rw [hgrow.grown_length, Nat.min_eq_left hge, mul_assoc, ← pow_succ']
        exact hle
      · rw [hgrow.grown_grown hge]
        exact hfits
  · rintro (hfits | ⟨hgrow, doublings, hle, hfits⟩)
    · refine ⟨0, ?_, ?_⟩
      · rw [pow_zero, mul_one]
        exact hw.decodedBody_le
      · rw [grown_zero]
        exact hfits
    rcases Nat.lt_or_ge workspace.limit (workspace.decodedBodyLength * 2) with hlt | hge
    · rw [hgrow.grown_grown_of_lt hlt] at hfits
      exact ⟨1, by rw [pow_one]; exact hgrow.2, hfits⟩
    · rw [hgrow.grown_grown hge] at hfits
      rw [hgrow.grown_length, Nat.min_eq_left hge, mul_assoc, ← pow_succ'] at hle
      exact ⟨doublings + 1, hle, hfits⟩

theorem store_ne_more :
    store (fun k r => CodingResult.place k r) k results ≠ .error statusMoreProcessingRequired := by
  intro h
  obtain ⟨r, -, hr⟩ := store_eq_error h
  cases r
  all_goals
    rw [CodingResult.place] at hr
    split_ifs at hr
    all_goals exact absurd (Except.error.inj hr) (by decide)

theorem room_le_grown {location : BodyLocation} :
    workspace.capacities.room location ≤ (workspace.grown doublings).capacities.room location := by
  cases location with
  | decodedBody => exact Nat.le_max_left _ _
  | scratchBody => exact le_rfl
  | null => exact le_rfl
  | wire => exact le_rfl

/-- What is refused for another reason than its length does not fit a longer buffer either. -/
theorem Fits.not_refused {status : NTSTATUS}
    (h : Fits (workspace.grown doublings).capacities r)
    (hplace : CodingResult.place workspace.capacities r = .error status) :
    status = statusBufferTooSmall := by
  cases r with
  | stored location octets inflated =>
    rw [CodingResult.place] at hplace
    split_ifs at hplace with hlong
    · refine absurd ?_ hlong.2
      exact sizeFitsUlong_iff.2 (room_le_grown.trans (h.2 hlong.1))
    · exact (Except.error.inj hplace).symm
  | checked encodedLength decodedLength =>
    rw [CodingResult.place, if_pos (show isDecodedSizeAllowed encodedLength decodedLength = true
      from h)] at hplace
    cases hplace

/-- How storing the results ends, and what that says about room. -/
inductive StoreStep (workspace : ResponseWorkspace) (results : List CodingResult) : Prop
  | fits : store (fun k r => CodingResult.place k r) workspace.capacities results = .ok () →
      workspace.HasRoom results → StoreStep workspace results
  | grows : store (fun k r => CodingResult.place k r) workspace.capacities results =
      .error statusBufferTooSmall → workspace.CanGrow →
      (workspace.HasRoom results ↔ (workspace.grown 1).HasRoom results) →
      StoreStep workspace results
  | full : store (fun k r => CodingResult.place k r) workspace.capacities results =
      .error statusBufferTooSmall → ¬ workspace.CanGrow → ¬ workspace.HasRoom results →
      StoreStep workspace results
  | refused (status : NTSTATUS) : store (fun k r => CodingResult.place k r) workspace.capacities
      results = .error status → status ≠ statusBufferTooSmall → ¬ workspace.HasRoom results →
      StoreStep workspace results

theorem Created.storeStep (hw : workspace.Created) (results : List CodingResult) :
    StoreStep workspace results := by
  cases hs : store (fun k r => CodingResult.place k r) workspace.capacities results with
  | ok u => exact .fits hs ((hasRoom_iff hw).2 (.inl (store_fits.1 hs)))
  | error status =>
    have hnow : ¬ ∀ r ∈ results, Fits workspace.capacities r := by
      rw [← store_fits, hs]
      exact nofun
    by_cases hsmall : status = statusBufferTooSmall
    · obtain rfl := hsmall
      by_cases hgrow : workspace.CanGrow
      · refine .grows hs hgrow ?_
        rw [hasRoom_iff hw]
        exact ⟨fun h => (h.resolve_left hnow).2, fun h => .inr ⟨hgrow, h⟩⟩
      · refine .full hs hgrow ?_
        rw [hasRoom_iff hw]
        exact fun h => h.elim hnow fun h => hgrow h.1
    · obtain ⟨r, hr, hplace⟩ := store_eq_error hs
      refine .refused status hs hsmall ?_
      rintro ⟨doublings, -, hfits⟩
      exact hsmall ((hfits r hr).not_refused hplace)

end ResponseWorkspace

namespace ResponseReader

variable {σ : Type} {R : ResponseReader σ} {workspace : ResponseWorkspace} {response : Bytes}

def baseOptions (R : ResponseReader σ) : HttpParseOptions where
  headers := ⟨true, R.headerCapacity⟩
  trailers := ⟨true, R.trailerCapacity⟩
  responseBodyForbidden := R.responseBodyForbidden

/-- What `ParseResponse` says about octets, at the end of the connection or before it. -/
def parse (R : ResponseReader σ) (closed : Bool) (data : Bytes) (k : Capacities) :
    Except NTSTATUS HttpResponse :=
  parseResponse R.codecs (k.options (R.baseOptions.atClose closed)) data

/-- The same without the check of what is decoded: the response a server has sent. -/
def parseUnbounded (R : ResponseReader σ) (closed : Bool) (data : Bytes) (k : Capacities) :
    Except NTSTATUS HttpResponse :=
  @parseResponse anyDecodedSize R.codecs (k.options (R.baseOptions.atClose closed)) data

theorem parseResponse_parseOptions (hw : workspace.Created) (closed : Bool) (data : Bytes) :
    parseResponse R.codecs (R.parseOptions workspace closed) data =
      R.parse closed data workspace.capacities := by
  rw [parse, parseOptions, decide_eq_true hw.decodedBody, decide_eq_true hw.scratchBody]
  rfl

/-- Nothing is refused for want of memory, and the deadline does not pass. -/
structure Undisturbed (R : ResponseReader σ) : Prop where
  allocates : ∀ length, R.canAllocate length = true
  inTime : ∀ turns, R.timeLeft turns = true

theorem doubledLength_ok {limit required : ℕ} (hlimit : limit ≠ 0 → required ≤ limit) :
    ∀ (fuel newLength : ℕ), required ≤ newLength * 2 ^ fuel →
    ∃ length, doubledLength limit required fuel newLength = .ok length ∧ required ≤ length := by
  intro fuel
  induction fuel with
  | zero =>
    intro newLength hle
    rw [pow_zero, mul_one] at hle
    exact ⟨newLength, rfl, hle⟩
  | succ fuel ih =>
    intro newLength hle
    rw [doubledLength]
    split_ifs with h1 h2 h3 h4
    · exact ⟨newLength, rfl, h1⟩
    · have := hlimit h2.1
      omega
    · exact ⟨required, rfl, le_rfl⟩
    · refine ih limit ?_
      exact (hlimit h4.1).trans (Nat.le_mul_of_pos_right _ (Nat.two_pow_pos fuel))
    · refine ih (newLength * 2) ?_
      rwa [mul_assoc, ← pow_succ']

theorem ensureCapacity_ok (hR : R.Undisturbed) {limit current initial required : ℕ}
    (hlimit : limit ≠ 0 → required ≤ limit) (hrequired : required ≠ 0)
    (hsize : required ≤ maxSizeT) (hinitial : initial ≠ 0) :
    ∃ length, R.ensureCapacity limit current initial required = .ok length ∧ required ≤ length := by
  rw [ensureCapacity, if_neg hrequired, if_neg fun h => (hlimit h.1).not_gt h.2]
  by_cases hcurrent : required ≤ current
  · exact ⟨current, if_pos hcurrent, hcurrent⟩
  have hstart : (if current = 0 then initial else current) ≠ 0 := by
    split_ifs with h
    · exact hinitial
    · exact h
  obtain ⟨length, hlength, hle⟩ := doubledLength_ok hlimit 65
    (if current = 0 then initial else current) (by
      have : required ≤ 1 * 2 ^ 65 := hsize.trans (by decide)
      exact this.trans (Nat.mul_le_mul_right _ (Nat.one_le_iff_ne_zero.2 hstart)))
  refine ⟨length, ?_, hle⟩
  rw [if_neg hcurrent, hlength]
  exact if_pos (hR.allocates length)

theorem doubledLength_twice {limit length : ℕ} (hlength : length ≠ 0)
    (hlt : limit ≠ 0 → length < limit) (hsize : length * 2 ≤ maxSizeT) (fuel : ℕ) :
    doubledLength limit (if limit ≠ 0 ∧ length * 2 > limit then limit else length * 2) (fuel + 2)
      length = .ok (if limit ≠ 0 ∧ length * 2 > limit then limit else length * 2) := by
  rw [doubledLength]
  by_cases hbeyond : limit ≠ 0 ∧ length * 2 > limit
  · have := hlt hbeyond.1
    rw [if_pos hbeyond, if_neg (by omega), if_neg (by omega), if_neg (by omega), if_pos hbeyond,
      doubledLength, if_pos le_rfl]
  · rw [if_neg hbeyond, if_neg (by omega), if_neg fun h => absurd (hlt h.1) (by omega),
      if_neg (by omega), if_neg hbeyond, doubledLength, if_pos le_rfl]

theorem ite_limit : (if workspace.maxResponseBytes ≠ 0 ∧
      workspace.decodedBodyLength * 2 > workspace.maxResponseBytes then workspace.maxResponseBytes
    else workspace.decodedBodyLength * 2) =
      if workspace.maxResponseBytes = 0 then workspace.decodedBodyLength * 2
      else min (workspace.decodedBodyLength * 2) workspace.maxResponseBytes := by
  split_ifs
  all_goals omega

/-- `GrowDecodedBodyAfterBufferTooSmall` doubles the buffer up to the limit. -/
theorem growDecodedBody_ok (hR : R.Undisturbed) (hw : workspace.Created)
    (hgrow : workspace.CanGrow) :
    R.growDecodedBodyAfterBufferTooSmall workspace = .ok (workspace.grown 1) := by
  have hlength := hw.decodedBody
  have hmax := hgrow.lt_grown hw
  have hlt : workspace.maxResponseBytes ≠ 0 →
      workspace.decodedBodyLength < workspace.maxResponseBytes := fun h => by
    simpa only [ResponseWorkspace.limit, h, if_false] using hgrow.1
  have hrequired : (if workspace.maxResponseBytes ≠ 0 ∧
      workspace.decodedBodyLength * 2 > workspace.maxResponseBytes then workspace.maxResponseBytes
      else workspace.decodedBodyLength * 2) = (workspace.grown 1).decodedBodyLength := by
    rw [ite_limit, hgrow.grown_length, ResponseWorkspace.limit]
    split_ifs
    · exact (Nat.min_eq_left hgrow.2).symm
    · rfl
  have hdoubled := doubledLength_twice hlength hlt hgrow.2 63
  rw [hrequired] at hdoubled
  rw [growDecodedBodyAfterBufferTooSmall]
  dsimp only
  rw [if_neg fun h => (hlt h.1).not_ge h.2, if_neg fun h => h.2.not_ge hgrow.2, if_neg hlength,
    hrequired, if_neg (Nat.not_le.2 hmax), ensureDecodedBodyCapacity, ensureCapacity,
    if_neg (by omega), if_neg ?_, if_neg (Nat.not_le.2 hmax), if_neg hlength, hdoubled]
  · simp only [hR.allocates, if_true]
    rfl
  · rintro ⟨hne, hbeyond⟩
    rw [hgrow.grown_length, ResponseWorkspace.limit, if_neg hne] at hbeyond
    omega

theorem growDecodedBody_error (hw : workspace.Created) (hgrow : ¬ workspace.CanGrow) :
    R.growDecodedBodyAfterBufferTooSmall workspace = .error statusBufferTooSmall := by
  have hlength := hw.decodedBody
  rw [growDecodedBodyAfterBufferTooSmall]
  dsimp only
  by_cases hfull : workspace.maxResponseBytes ≠ 0 ∧
      workspace.decodedBodyLength ≥ workspace.maxResponseBytes
  · rw [if_pos hfull]
  have hsize : workspace.decodedBodyLength * 2 > maxSizeT := by
    by_contra hsize
    refine hgrow ⟨?_, Nat.not_lt.1 hsize⟩
    rw [ResponseWorkspace.limit]
    split_ifs with hzero
    · omega
    · exact Nat.not_le.1 fun hle => hfull ⟨hzero, hle⟩
  rw [if_neg hfull, if_pos ⟨hlength, hsize⟩]

/-- Below the limit, there is room for another read. -/
theorem prepareRead_ok (hR : R.Undisturbed) (hw : workspace.Created)
    (hlt : response.length < workspace.limit) :
    ∃ responseLength, response.length < responseLength ∧ ∀ turns,
      R.prepareRead turns workspace response = .ok { workspace with responseLength } := by
  rw [ResponseWorkspace.limit] at hlt
  have hmax := hw.maxResponseBytes_le
  have hlimit : workspace.maxResponseBytes ≠ 0 → response.length + 1 ≤ workspace.maxResponseBytes :=
    fun h => by rwa [if_neg h] at hlt
  have hsize : response.length + 1 ≤ maxSizeT := by
    split_ifs at hlt
    · exact hlt
    · omega
  have hinitial : withinLimit workspace.maxResponseBytes workspaceInitialResponseBytes ≠ 0 := by
    rw [withinLimit, workspaceInitialResponseBytes]
    split_ifs
    all_goals omega
  obtain ⟨length, hlength, hle⟩ := @ensureCapacity_ok σ R hR workspace.maxResponseBytes
    workspace.responseLength _ _ hlimit (Nat.succ_ne_zero _) hsize hinitial
  refine ⟨length, hle, fun turns => ?_⟩
  rw [prepareRead, if_neg fun h => (hlimit h.1).not_gt (Nat.lt_succ_of_le h.2), if_neg (by omega),
    ensureResponseCapacity, hlength]
  exact if_pos (hR.inTime turns)

theorem prepareRead_error {turns : ℕ} (hlength : response.length ≤ workspace.limit)
    (hle : workspace.limit ≤ response.length) :
    R.prepareRead turns workspace response = .error statusBufferTooSmall := by
  rw [prepareRead]
  rw [ResponseWorkspace.limit] at hle hlength
  split_ifs at hle hlength with hzero
  · rw [if_neg fun h => h.1 hzero, if_pos (le_antisymm hlength hle)]
  · rw [if_pos ⟨hzero, hle⟩]

theorem prepareRead_inTime (hR : R.Undisturbed) (turns : ℕ) :
    R.prepareRead turns workspace response = R.prepareRead 0 workspace response := by
  rw [prepareRead, prepareRead, hR.inTime turns, hR.inTime 0]

theorem prepareRead_eq_ok {turns : ℕ} {workspace' : ResponseWorkspace}
    (h : R.prepareRead turns workspace response = .ok workspace') :
    ∃ responseLength, workspace' = { workspace with responseLength } := by
  rw [prepareRead] at h
  split at h
  · cases h
  split at h
  · cases h
  obtain ⟨ensured, hensured, h⟩ := Incremental.bind_eq_ok h
  obtain ⟨responseLength, -, hensured⟩ := Incremental.bind_eq_ok hensured
  obtain rfl := Except.ok.inj hensured
  split_ifs at h
  obtain rfl := Except.ok.inj h
  exact ⟨responseLength, rfl⟩

/-! ### Turns of the reader -/

section

variable {turns : ℕ} {s s' : σ} {parsed : HttpResponse} {status : NTSTATUS}

theorem discard_final (hfinal : ¬ isNonFinalInformationalResponse parsed = true) :
    discardNonFinalInformationalResponse response parsed = .ok none := if_pos hfinal

theorem readResponse_parsed
    (h : parseResponse R.codecs (R.parseOptions workspace false) response = .ok parsed)
    (hfinal : ¬ isNonFinalInformationalResponse parsed = true) :
    R.readResponse (turns + 1) workspace response s = .ok (some parsed) s := by
  rw [readResponse, h]
  dsimp only
  rw [discard_final hfinal]
  rfl

theorem readResponse_tooSmall
    (h : parseResponse R.codecs (R.parseOptions workspace false) response =
      .error statusBufferTooSmall) :
    R.readResponse (turns + 1) workspace response s =
      match R.growDecodedBodyAfterBufferTooSmall workspace with
      | .ok workspace => R.readResponse turns workspace response s
      | .error status => .error status s := by
  rw [readResponse, h]
  dsimp only
  rw [if_pos rfl]
  cases R.growDecodedBodyAfterBufferTooSmall workspace
  all_goals rfl

theorem readResponse_error
    (h : parseResponse R.codecs (R.parseOptions workspace false) response = .error status)
    (hsmall : status ≠ statusBufferTooSmall) (hmore : status ≠ statusMoreProcessingRequired) :
    R.readResponse (turns + 1) workspace response s = .error status s := by
  rw [readResponse, h]
  dsimp only
  rw [if_neg hsmall, if_pos hmore]
  rfl

theorem readResponse_more
    (h : parseResponse R.codecs (R.parseOptions workspace false) response =
      .error statusMoreProcessingRequired) :
    R.readResponse (turns + 1) workspace response s =
      match R.prepareRead turns workspace response with
      | .error status => .error status s
      | .ok workspace =>
        match R.receive (workspace.responseLength - response.length) s with
        | .error status s' =>
          if status = statusConnectionDisconnected then
            (ofExcept (R.responseAtClose turns workspace response) : EStateM NTSTATUS σ _) s'
          else .error status s'
        | .ok received s' =>
          if received = [] then
            (ofExcept (R.responseAtClose turns workspace response) : EStateM NTSTATUS σ _) s'
          else R.readResponse turns workspace (response ++ received) s' := by
  rw [readResponse, h]
  dsimp only
  rw [if_neg (by decide), if_neg (not_not.2 rfl)]
  cases hprepare : R.prepareRead turns workspace response with
  | error status => rfl
  | ok workspace' =>
    rw [bind_of_ok (ofExcept_ok workspace' s), bind_apply, attempt]
    dsimp only
    cases hreceive : R.receive (workspace'.responseLength - response.length) s with
    | error status s' =>
      dsimp only
      split_ifs
      all_goals rfl
    | ok received s' =>
      dsimp only
      split_ifs
      all_goals rfl

theorem closedResponse_parsed
    (h : parseResponse R.codecs (R.parseOptions workspace true) response = .ok parsed)
    (hfinal : ¬ isNonFinalInformationalResponse parsed = true) :
    R.closedResponse (turns + 1) workspace response = .ok (some parsed) := by
  rw [closedResponse, h]
  dsimp only
  rw [discard_final hfinal]
  rfl

theorem closedResponse_tooSmall
    (h : parseResponse R.codecs (R.parseOptions workspace true) response =
      .error statusBufferTooSmall) :
    R.closedResponse (turns + 1) workspace response =
      match R.growDecodedBodyAfterBufferTooSmall workspace with
      | .ok workspace => R.closedResponse turns workspace response
      | .error status => .error status := by
  rw [closedResponse, h]
  dsimp only
  rw [if_pos rfl]
  cases R.growDecodedBodyAfterBufferTooSmall workspace
  all_goals rfl

theorem closedResponse_error
    (h : parseResponse R.codecs (R.parseOptions workspace true) response = .error status)
    (hsmall : status ≠ statusBufferTooSmall) :
    R.closedResponse (turns + 1) workspace response = .error status := by
  rw [closedResponse, h]
  dsimp only
  rw [if_neg hsmall]

end

/-! ### Delivery -/

/-- A transport with the octets that are still to come: a read brings some of them. -/
def Supplies (R : ResponseReader σ) (toCome : Bytes → σ → Prop) : Prop :=
  ∀ rest s length, toCome rest s → rest ≠ [] → 0 < length → ∃ received rest' s',
    R.receive length s = .ok received s' ∧ received ≠ [] ∧ rest = received ++ rest' ∧
      toCome rest' s'

/-- Behind the last octet the connection ends. -/
def EndsBehind (R : ResponseReader σ) (toCome : Bytes → σ → Prop) : Prop :=
  ∀ s length, toCome [] s → 0 < length → (∃ s', R.receive length s = .ok [] s') ∨
    ∃ s', R.receive length s = .error statusConnectionDisconnected s'

/-- The response when it is delivered, an error otherwise. -/
def Answer (delivered : Prop) (parsed : HttpResponse)
    (result : EStateM.Result NTSTATUS σ (Option HttpResponse)) : Prop :=
  delivered ∧ (∃ s', result = .ok (some parsed) s') ∨
    ¬ delivered ∧ ∃ status s', result = .error status s'

section

variable {data : Bytes} {parsed : HttpResponse} {results : List CodingResult}
  {delivered delivered' : Prop} {result : EStateM.Result NTSTATUS σ (Option HttpResponse)}

theorem Answer.congr (h : Answer delivered parsed result) (hiff : delivered' ↔ delivered) :
    Answer delivered' parsed result := by
  rwa [Answer, hiff]

theorem readHttpResponseFromSocket_iff {s : σ}
    (h : Settles fun turns =>
      Answer delivered parsed (R.readHttpResponseFromSocket turns workspace s)) :
    (Settles fun turns => ∃ s',
      R.readHttpResponseFromSocket turns workspace s = .ok (some parsed) s') ↔ delivered := by
  constructor
  · intro hok
    obtain ⟨turns, ⟨hdelivered, -⟩ | ⟨-, status, t, herror⟩, s', hs'⟩ := h.and_exists hok
    · exact hdelivered
    · rw [herror] at hs'
      cases hs'
  · intro hdelivered
    refine h.mono fun turns hanswer => ?_
    rcases hanswer with ⟨-, hok⟩ | ⟨hnot, -⟩
    · exact hok
    · exact absurd hdelivered hnot

variable (hR : R.Undisturbed) (hfinal : ¬ isNonFinalInformationalResponse parsed = true)
include hR hfinal

theorem closedResponse_answers
    (hgives : Gives (fun k r => CodingResult.place k r) (R.parse true data) parsed results)
    (s : σ) : ∀ (n : ℕ) {workspace : ResponseWorkspace}, workspace.Created →
    maxSizeT - workspace.decodedBodyLength < n → Settles fun turns =>
      Answer (workspace.HasRoom results) parsed
        ((ofExcept (R.closedResponse turns workspace data) : EStateM NTSTATUS σ _) s) := by
  intro n
  induction n with
  | zero => exact fun _ hn => absurd hn (Nat.not_lt_zero _)
  | succ n ih =>
    intro workspace hw hn
    have hparse := parseResponse_parseOptions (R := R) hw true data
    rcases hw.storeStep results with ⟨hs, hroom⟩ | ⟨hs, hgrow, hiff⟩ | ⟨hs, hgrow, hroom⟩ |
      ⟨status, hs, hsmall, hroom⟩
    · rw [hgives.ok_iff.2 ⟨rfl, hs⟩] at hparse
      refine .of_succ fun turns => .inl ⟨hroom, s, ?_⟩
      rw [closedResponse_parsed hparse hfinal]
      rfl
    · rw [hgives.error_iff.2 hs] at hparse
      have hlt := hgrow.lt_grown hw
      have hle := (hw.grown hgrow).decodedBody_le
      refine (ih (hw.grown hgrow) (by omega)).succ fun turns h => ?_
      rw [closedResponse_tooSmall hparse, growDecodedBody_ok hR hw hgrow]
      exact h.congr hiff
    · rw [hgives.error_iff.2 hs] at hparse
      refine .of_succ fun turns => .inr ⟨hroom, statusBufferTooSmall, s, ?_⟩
      rw [closedResponse_tooSmall hparse, growDecodedBody_error hw hgrow]
      rfl
    · rw [hgives.error_iff.2 hs] at hparse
      refine .of_succ fun turns => .inr ⟨hroom, status, s, ?_⟩
      rw [closedResponse_error hparse hsmall]
      rfl

variable {toCome : Bytes → σ → Prop} (hsupplies : R.Supplies toCome)
include hsupplies

theorem readResponse_answers {behind : Bytes}
    (hgives : Gives (fun k r => CodingResult.place k r) (R.parse false data) parsed results) :
    ∀ (n : ℕ) {workspace : ResponseWorkspace} {response rest : Bytes} {s : σ},
    workspace.Created → data.length ≤ workspace.limit → response ++ rest = data ++ behind →
    toCome rest s → rest.length + (maxSizeT - workspace.decodedBodyLength) < n →
    Settles fun turns =>
      Answer (workspace.HasRoom results) parsed (R.readResponse turns workspace response s) := by
  intro n
  induction n with
  | zero => exact fun _ _ _ _ hn => absurd hn (Nat.not_lt_zero _)
  | succ n ih =>
    intro workspace response rest s hw hlength heq hcome hn
    have hparse := parseResponse_parseOptions (R := R) hw false response
    have hstable : Incremental.Stable statusMoreProcessingRequired
        fun data => R.parse false data workspace.capacities := parseResponse_isStable rfl
    have hdata : R.parse false data workspace.capacities ≠ .error statusMoreProcessingRequired :=
      fun hdata => ResponseWorkspace.store_ne_more (hgives.error_iff.1 hdata)
    by_cases hmore : R.parse false response workspace.capacities =
        .error statusMoreProcessingRequired
    · rw [hmore] at hparse
      have hlt : response.length < data.length := by
        by_contra hle
        obtain ⟨t, rfl⟩ : data <+: response := List.prefix_of_prefix_length_le
          ⟨behind, rfl⟩ ⟨rest, heq⟩ (Nat.not_lt.1 hle)
        exact hdata ((hstable data t hdata).symm.trans hmore)
      have hrest : rest ≠ [] := by
        rintro rfl
        have := congrArg List.length heq
        simp only [List.append_nil, List.length_append] at this
        omega
      obtain ⟨responseLength, hresponse, hprepare⟩ := prepareRead_ok hR hw (hlt.trans_le hlength)
      obtain ⟨received, rest', s', hreceive, hreceived, rfl, hcome'⟩ :=
        hsupplies rest s (responseLength - response.length) hcome hrest (by omega)
      have hpos := List.length_pos_of_ne_nil hreceived
      rw [List.length_append] at hn
      refine (@ih { workspace with responseLength } (response ++ received) rest' s'
        hw.withResponseLength hlength (by rw [List.append_assoc, heq]) hcome'
        (by dsimp only; omega)).succ fun turns h => ?_
      rw [readResponse_more hparse, hprepare turns]
      dsimp only
      rw [hreceive]
      dsimp only
      rw [if_neg hreceived]
      exact h
    · have hsame : R.parse false response workspace.capacities =
          R.parse false data workspace.capacities := by
        have h1 := hstable response rest hmore
        have h2 := hstable data behind hdata
        dsimp only at h1 h2
        rw [← h1, ← h2, heq]
      rw [hsame] at hparse
      rcases hw.storeStep results with ⟨hs, hroom⟩ | ⟨hs, hgrow, hiff⟩ | ⟨hs, hgrow, hroom⟩ |
        ⟨status, hs, hsmall, hroom⟩
      · rw [hgives.ok_iff.2 ⟨rfl, hs⟩] at hparse
        exact .of_succ fun turns => .inl ⟨hroom, s, readResponse_parsed hparse hfinal⟩
      · rw [hgives.error_iff.2 hs] at hparse
        have hlt := hgrow.lt_grown hw
        have hle := (hw.grown hgrow).decodedBody_le
        refine (ih (hw.grown hgrow) hlength heq hcome (by omega)).succ fun turns h => ?_
        rw [readResponse_tooSmall hparse, growDecodedBody_ok hR hw hgrow]
        exact h.congr hiff
      · rw [hgives.error_iff.2 hs] at hparse
        refine .of_succ fun turns => .inr ⟨hroom, statusBufferTooSmall, s, ?_⟩
        rw [readResponse_tooSmall hparse, growDecodedBody_error hw hgrow]
      · rw [hgives.error_iff.2 hs] at hparse
        refine .of_succ fun turns => .inr ⟨hroom, status, s, readResponse_error hparse hsmall ?_⟩
        rintro rfl
        exact ResponseWorkspace.store_ne_more hs

theorem readResponse_answersAtClose (hends : R.EndsBehind toCome) (hdata : data ≠ [])
    (hgives : Gives (fun k r => CodingResult.place k r) (R.parse true data) parsed results)
    (hmore : ∀ k, R.parse false data k = .error statusMoreProcessingRequired) :
    ∀ (n : ℕ) {workspace : ResponseWorkspace} {response rest : Bytes} {s : σ},
    workspace.Created → data.length ≤ workspace.limit → response ++ rest = data →
    toCome rest s → rest.length < n → Settles fun turns =>
      Answer (workspace.HasRoom results ∧ data.length < workspace.limit) parsed
        (R.readResponse turns workspace response s) := by
  intro n
  induction n with
  | zero => exact fun _ _ _ _ hn => absurd hn (Nat.not_lt_zero _)
  | succ n ih =>
    intro workspace response rest s hw hlength heq hcome hn
    have hparse := parseResponse_parseOptions (R := R) hw false response
    have hstable : Incremental.Stable statusMoreProcessingRequired
        fun data => R.parse false data workspace.capacities := parseResponse_isStable rfl
    have hresponse : R.parse false response workspace.capacities =
        .error statusMoreProcessingRequired := by
      by_contra hne
      have := hstable response rest hne
      dsimp only at this
      rw [heq, hmore] at this
      exact hne this.symm
    rw [hresponse] at hparse
    have hle : response.length + rest.length = data.length := by
      rw [← heq, List.length_append]
    rcases Nat.lt_or_ge response.length workspace.limit with hlt | hge
    swap
    · refine .of_succ fun turns => .inr ⟨fun h => ?_, statusBufferTooSmall, s, ?_⟩
      · have := h.2
        omega
      · rw [readResponse_more hparse, prepareRead_error (by omega) hge]
    obtain ⟨responseLength, hroom, hprepare⟩ := prepareRead_ok hR hw hlt
    by_cases hrest : rest = []
    · rw [hrest, List.append_nil] at heq
      rw [heq] at hparse hlt hroom hprepare ⊢
      have hclose : ∀ turns, R.responseAtClose turns { workspace with responseLength } data =
          R.closedResponse turns { workspace with responseLength } data :=
        fun turns => if_neg hdata
      rw [hrest] at hcome
      rcases hends s (responseLength - data.length) hcome (by omega) with
        ⟨s', hreceive⟩ | ⟨s', hreceive⟩
      all_goals
        have hw' := @ResponseWorkspace.Created.withResponseLength workspace hw responseLength
        refine (closedResponse_answers hR hfinal hgives s' _ hw' (Nat.lt_succ_self _)).succ
          fun turns h => ?_
        rw [readResponse_more hparse, hprepare turns]
        dsimp only
        rw [hreceive]
        dsimp only
        rw [if_pos rfl, hclose]
        exact h.congr ⟨fun h => h.1, fun h => ⟨h, hlt⟩⟩
    · obtain ⟨received, rest', s', hreceive, hreceived, rfl, hcome'⟩ :=
        hsupplies rest s (responseLength - response.length) hcome hrest (by omega)
      have hpos := List.length_pos_of_ne_nil hreceived
      rw [List.length_append] at hn
      refine (@ih { workspace with responseLength } (response ++ received) rest' s'
        hw.withResponseLength hlength (by rw [List.append_assoc, heq]) hcome'
        (by omega)).succ fun turns h => ?_
      rw [readResponse_more hparse, hprepare turns]
      dsimp only
      rw [hreceive]
      dsimp only
      rw [if_neg hreceived]
      exact h

end

/-! ### Termination -/

/-- The octets that are left are fewer behind a read that brings some. -/
def Consumes (R : ResponseReader σ) (left : σ → ℕ) : Prop :=
  ∀ length s received s', R.receive length s = .ok received s' → received ≠ [] → left s' < left s

/-- What is left behind a response that is skipped is shorter. -/
theorem discard_lt {parsed : HttpResponse} {rest : Bytes} (hpos : 0 < parsed.bytesConsumed)
    (h : discardNonFinalInformationalResponse response parsed = .ok (some rest)) :
    rest.length < response.length := by
  rw [discardNonFinalInformationalResponse] at h
  split at h
  · cases h
  split at h
  · cases h
  obtain rfl := Option.some.inj (Except.ok.inj h)
  rw [List.length_drop]
  omega

section

variable (hR : R.Undisturbed)
include hR

theorem closedResponse_ends : ∀ (n : ℕ) {workspace : ResponseWorkspace} {response : Bytes},
    workspace.Created → response.length + (maxSizeT - workspace.decodedBodyLength) < n →
    Settles fun turns => R.closedResponse turns workspace response ≠ .ok none := by
  intro n
  induction n with
  | zero => exact fun _ hn => absurd hn (Nat.not_lt_zero _)
  | succ n ih =>
    intro workspace response hw hn
    cases hparse : parseResponse R.codecs (R.parseOptions workspace true) response with
    | ok parsed =>
      have hpos := parseResponse_consumed_pos hparse
      cases hdiscard : discardNonFinalInformationalResponse response parsed with
      | error status =>
        refine .of_succ fun turns => ?_
        rw [closedResponse, hparse]
        dsimp only
        rw [hdiscard]
        exact nofun
      | ok skipped =>
        cases skipped with
        | none =>
          refine .of_succ fun turns => ?_
          rw [closedResponse, hparse]
          dsimp only
          rw [hdiscard]
          exact nofun
        | some rest =>
          have hlt := discard_lt hpos hdiscard
          refine (ih hw (show rest.length + _ < n by omega)).succ fun turns h => ?_
          rw [closedResponse, hparse]
          dsimp only
          rw [hdiscard]
          exact h
    | error status =>
      by_cases hsmall : status = statusBufferTooSmall
      · rw [hsmall] at hparse
        by_cases hgrow : workspace.CanGrow
        · have hlt := hgrow.lt_grown hw
          have hle := (hw.grown hgrow).decodedBody_le
          refine (ih (hw.grown hgrow) (show response.length + _ < n by omega)).succ
            fun turns h => ?_
          rw [closedResponse_tooSmall hparse, growDecodedBody_ok hR hw hgrow]
          exact h
        · refine .of_succ fun turns => ?_
          rw [closedResponse_tooSmall hparse, growDecodedBody_error hw hgrow]
          exact nofun
      · refine .of_succ fun turns => ?_
        rw [closedResponse_error hparse hsmall]
        exact nofun

theorem responseAtClose_ends (hw : workspace.Created) (response : Bytes) (s : σ) :
    Settles fun turns => ∀ s', (ofExcept (R.responseAtClose turns workspace response) :
      EStateM NTSTATUS σ _) s ≠ .ok none s' := by
  by_cases hresponse : response = []
  · refine .of_succ fun turns s' => ?_
    rw [responseAtClose, if_pos hresponse]
    exact nofun
  · have h := @closedResponse_ends σ R hR _ workspace response hw (Nat.lt_succ_self _)
    refine h.mono fun turns h s' => ?_
    rw [responseAtClose, if_neg hresponse]
    exact fun heq => h (ofExcept_eq_ok heq).1

variable {left : σ → ℕ} (hleft : R.Consumes left)
include hleft

theorem readResponse_ends : ∀ (m n : ℕ) {workspace : ResponseWorkspace} {response : Bytes} {s : σ},
    workspace.Created → left s < m →
    response.length + (maxSizeT - workspace.decodedBodyLength) < n →
    Settles fun turns => ∀ s', R.readResponse turns workspace response s ≠ .ok none s' := by
  intro m
  induction m with
  | zero => exact fun _ _ _ _ _ hm => absurd hm (Nat.not_lt_zero _)
  | succ m ihm =>
    intro n
    induction n with
    | zero => exact fun _ _ hn => absurd hn (Nat.not_lt_zero _)
    | succ n ih =>
      intro workspace response s hw hm hn
      cases hparse : parseResponse R.codecs (R.parseOptions workspace false) response with
      | ok parsed =>
        have hpos := parseResponse_consumed_pos hparse
        cases hdiscard : discardNonFinalInformationalResponse response parsed with
        | error status =>
          refine .of_succ fun turns s' => ?_
          rw [readResponse, hparse]
          dsimp only
          rw [hdiscard]
          exact nofun
        | ok skipped =>
          cases skipped with
          | none =>
            refine .of_succ fun turns s' => ?_
            rw [readResponse, hparse]
            dsimp only
            rw [hdiscard]
            exact nofun
          | some rest =>
            have hlt := discard_lt hpos hdiscard
            refine (ih hw hm (show rest.length + _ < n by omega)).succ fun turns h => ?_
            rw [readResponse, hparse]
            dsimp only
            rw [hdiscard]
            exact h
      | error status =>
        by_cases hsmall : status = statusBufferTooSmall
        · rw [hsmall] at hparse
          by_cases hgrow : workspace.CanGrow
          · have hlt := hgrow.lt_grown hw
            have hle := (hw.grown hgrow).decodedBody_le
            refine (ih (hw.grown hgrow) hm (show response.length + _ < n by omega)).succ
              fun turns h => ?_
            rw [readResponse_tooSmall hparse, growDecodedBody_ok hR hw hgrow]
            exact h
          · refine .of_succ fun turns s' => ?_
            rw [readResponse_tooSmall hparse, growDecodedBody_error hw hgrow]
            exact nofun
        by_cases hmore : status = statusMoreProcessingRequired
        swap
        · refine .of_succ fun turns s' => ?_
          rw [readResponse_error hparse hsmall hmore]
          exact nofun
        rw [hmore] at hparse
        cases hprepare : R.prepareRead 0 workspace response with
        | error status =>
          refine .of_succ fun turns s' => ?_
          rw [readResponse_more hparse, prepareRead_inTime hR, hprepare]
          exact nofun
        | ok workspace' =>
          obtain ⟨responseLength, rfl⟩ := prepareRead_eq_ok hprepare
          have hw' := @ResponseWorkspace.Created.withResponseLength workspace hw responseLength
          have hclose := responseAtClose_ends hR hw' response
          cases hreceive : R.receive (responseLength - response.length) s with
          | error status s' =>
            refine (hclose s').succ fun turns h s'' => ?_
            rw [readResponse_more hparse, prepareRead_inTime hR, hprepare]
            dsimp only
            rw [hreceive]
            dsimp only
            split_ifs
            · exact h s''
            · exact nofun
          | ok received s' =>
            by_cases hreceived : received = []
            · refine (hclose s').succ fun turns h s'' => ?_
              rw [readResponse_more hparse, prepareRead_inTime hR, hprepare]
              dsimp only
              rw [hreceive]
              dsimp only
              rw [if_pos hreceived]
              exact h s''
            · have hlt := hleft _ _ _ _ hreceive hreceived
              refine (@ihm _ _ (response ++ received) s' hw' (hlt.trans_le (Nat.le_of_lt_succ hm))
                (Nat.lt_succ_self _)).succ fun turns h s'' => ?_
              rw [readResponse_more hparse, prepareRead_inTime hR, hprepare]
              dsimp only
              rw [hreceive]
              dsimp only
              rw [if_neg hreceived]
              exact h s''

end

/-- **Delivery of responses**, and the end of the loop.

`data` is a response that the parser accepts with some buffers when `IsDecodedSizeAllowed` is left
out, and `results` are what its transfer and content codings store on the way, whatever the
capacities, with the lengths that are checked.  The reader delivers it if and only if the workspace
has room for the results, none is more than 64 times as long as what it is decoded from and, where
the end of the response is that of the connection, the response is shorter than the limit.
Whatever arrives, the loop ends once nothing more does. -/
theorem responses_delivered (hcodecs : R.codecs.NeedLength) (hR : R.Undisturbed) :
    (∀ (data : Bytes) (k : Capacities) (parsed : HttpResponse),
      R.parseUnbounded true data k = .ok parsed → ¬ isNonFinalInformationalResponse parsed = true →
      ∃ results, Gives (fun k r => CodingResult.place k r)
          (R.parse parsed.bodyEndsOnConnectionClose data) parsed results ∧
        ∀ (behind : Bytes) (toCome : Bytes → σ → Prop) (workspace : ResponseWorkspace) (s : σ),
          R.Supplies toCome → toCome (data ++ behind) s →
          (parsed.bodyEndsOnConnectionClose = true → behind = [] ∧ R.EndsBehind toCome) →
          workspace.Created → data.length ≤ workspace.limit →
          ((Settles fun turns => ∃ s',
              R.readHttpResponseFromSocket turns workspace s = .ok (some parsed) s') ↔
            workspace.HasRoom results ∧
              (parsed.bodyEndsOnConnectionClose = true → data.length < workspace.limit))) ∧
    ∀ (left : σ → ℕ) (workspace : ResponseWorkspace) (s : σ), R.Consumes left →
      workspace.Created → Settles fun turns =>
        ∀ s', R.readHttpResponseFromSocket turns workspace s ≠ .ok none s' := by
  refine ⟨fun data k parsed hparse hfinal => ?_, fun left workspace s hleft hw =>
    readResponse_ends hR hleft _ _ hw (Nat.lt_succ_self _) (Nat.lt_succ_self _)⟩
  cases hends : parsed.bodyEndsOnConnectionClose with
  | false =>
    have hframed := parseResponse_framed hparse hends
    obtain ⟨results, hgives⟩ := parseResponse_sized hcodecs _ data k parsed hframed
    refine ⟨results, hgives, fun behind toCome workspace s hsupplies hcome _ hw hlength => ?_⟩
    rw [readHttpResponseFromSocket_iff (readResponse_answers hR hfinal hsupplies hgives _ hw hlength rfl hcome
      (Nat.lt_succ_self _))]
    exact ⟨fun h => ⟨h, nofun⟩, fun h => h.1⟩
  | true =>
    obtain ⟨results, hgives⟩ := parseResponse_sized hcodecs _ data k parsed hparse
    refine ⟨results, hgives, fun behind toCome workspace s hsupplies hcome hbehind hw hlength => ?_⟩
    obtain ⟨rfl, hclose⟩ := hbehind rfl
    rw [List.append_nil] at hcome
    have hdata : data ≠ [] := by
      rintro rfl
      cases hparse
    rw [readHttpResponseFromSocket_iff (readResponse_answersAtClose hR hfinal hsupplies hclose
      hdata hgives (fun _ => parseResponse_unframed hparse hends) _ hw hlength rfl hcome
      (Nat.lt_succ_self _))]
    exact ⟨fun h => ⟨h.1, fun _ => h.2⟩, fun h => ⟨h.1, h.2 rfl⟩⟩

/-! ### A compressed body in chunks -/

/-- A reader of octets that are there from the start; behind them the connection ends. -/
def streamReader : ResponseReader Bytes where
  codecs := noCodecs
  receive length := fun s => .ok (s.take length) (s.drop length)
  canAllocate _ := true
  timeLeft _ := true
  headerCapacity := 10
  trailerCapacity := 0
  responseBodyForbidden := false

theorem noCodecs_needLength : noCodecs.NeedLength where
  inflate _ _ _ h := nomatch h
  brotli _ _ _ h := nomatch h

theorem streamReader_undisturbed : streamReader.Undisturbed := ⟨fun _ => rfl, fun _ => rfl⟩

theorem streamReader_supplies : streamReader.Supplies fun rest s => s = rest := by
  rintro rest s length rfl hne hpos
  refine ⟨s.take length, s.drop length, s.drop length, rfl, fun h => ?_,
    (List.take_append_drop length s).symm, rfl⟩
  rcases List.take_eq_nil_iff.1 h with h | h
  · omega
  · exact hne h

theorem streamReader_consumes : streamReader.Consumes List.length := by
  intro length s received s' h hne
  cases h
  have := List.length_pos_of_ne_nil hne
  rw [List.length_take] at this
  rw [List.length_drop]
  omega

/-- What `compress` writes for three hundred times the letter `a`. -/
def compressedRun : Bytes :=
  [31, 157, 144, 97, 2, 10, 28, 72, 176, 160, 193, 131, 8, 19, 42, 92, 200, 176, 161, 195, 135,
    16, 35, 74, 156, 72, 177, 162, 197, 139]

def compressedMessage : Bytes :=
  text "HTTP/1.1 200 OK\r\nTransfer-Encoding: chunked\r\nContent-Encoding: compress\r\n\r\n1e\r\n"
    ++ compressedRun ++ text "\r\n0\r\n\r\n"

/-- A new workspace for responses of up to a thousand octets. -/
def smallWorkspace (requestBufferBytes : ℕ) : ResponseWorkspace :=
  ⟨1000, workspaceDecodedBodyBytes, requestBufferBytes, 1000⟩

/-- The body, whether the response is skipped, and whether it ends with the connection. -/
def bodyOf (result : Except NTSTATUS HttpResponse) : Option (Bytes × Bool × Bool) :=
  result.toOption.map fun parsed =>
    (parsed.body.octets, isNonFinalInformationalResponse parsed, parsed.bodyEndsOnConnectionClose)

theorem bodyOf_some {result : Except NTSTATUS HttpResponse} {body : Bytes} {skipped ends : Bool}
    (h : bodyOf result = some (body, skipped, ends)) : ∃ parsed, result = .ok parsed ∧
      parsed.body.octets = body ∧ isNonFinalInformationalResponse parsed = skipped ∧
      parsed.bodyEndsOnConnectionClose = ends := by
  cases result with
  | error status => cases h
  | ok parsed =>
    cases h
    exact ⟨parsed, rfl, rfl, rfl, rfl⟩

/-- With a request buffer of 512 octets the body is delivered, and the loop ends. -/
theorem responses_delivered_compressed :
    (∃ parsed, parsed.body.octets = List.replicate 300 97 ∧ Settles fun turns => ∃ s',
      streamReader.readHttpResponseFromSocket turns (smallWorkspace 512) compressedMessage =
        .ok (some parsed) s') ∧
    Settles fun turns => ∀ s', streamReader.readHttpResponseFromSocket turns (smallWorkspace 512)
      compressedMessage ≠ .ok none s' := by
  have hw : (smallWorkspace 512).Created := by constructor <;> decide
  obtain ⟨hdelivered, hterminates⟩ :=
    responses_delivered noCodecs_needLength streamReader_undisturbed
  refine ⟨?_, hterminates List.length _ _ streamReader_consumes hw⟩
  obtain ⟨parsed, hparse, hbody, hfinal, hends⟩ := bodyOf_some (show bodyOf
    (streamReader.parseUnbounded true compressedMessage (smallWorkspace 512).capacities) =
      some (List.replicate 300 97, false, false) by decide +kernel)
  obtain ⟨checked, hchecked, -⟩ := bodyOf_some (show bodyOf
    (streamReader.parse false compressedMessage (smallWorkspace 512).capacities) =
      some (List.replicate 300 97, false, false) by decide +kernel)
  refine ⟨parsed, hbody, ?_⟩
  obtain ⟨results, hgives, hiff⟩ := hdelivered _ _ parsed hparse (by rw [hfinal]; decide)
  rw [hends] at hgives
  refine (hiff [] _ (smallWorkspace 512) compressedMessage streamReader_supplies
    (List.append_nil _).symm (fun h => by rw [hends] at h; cases h) hw (by decide +kernel)).2
    ⟨⟨0, by decide, ?_⟩, fun h => by rw [hends] at h; cases h⟩
  rw [ResponseWorkspace.grown_zero]
  exact ResponseWorkspace.store_fits.1 (hgives.ok_iff.1 hchecked).2

example : compressedMessage.length ≤ (smallWorkspace 256).limit := by decide +kernel

/-- Two buffers of 300 octets are enough for the response, and 1000 are allowed, but with a
request buffer of 256 octets it is refused. -/
theorem compressedMessage_refused :
    (∃ parsed, streamReader.parse true compressedMessage ⟨300, 300⟩ = .ok parsed ∧
      parsed.body.octets = List.replicate 300 97 ∧
      isNonFinalInformationalResponse parsed = false ∧
      parsed.bodyEndsOnConnectionClose = false) ∧
    (smallWorkspace 256).Created ∧ compressedMessage.length ≤ (smallWorkspace 256).limit ∧
    300 ≤ (smallWorkspace 256).limit ∧
    ∀ turns, ∃ s', streamReader.readHttpResponseFromSocket (turns + 2) (smallWorkspace 256)
      compressedMessage = .error statusBufferTooSmall s' := by
  obtain ⟨hbody, hmore, hsmall, hlength⟩ : bodyOf
        (streamReader.parse true compressedMessage ⟨300, 300⟩) =
          some (List.replicate 300 97, false, false) ∧
      parseResponse streamReader.codecs (streamReader.parseOptions (smallWorkspace 256) false) [] =
        .error statusMoreProcessingRequired ∧
      parseResponse streamReader.codecs (streamReader.parseOptions (smallWorkspace 256) false)
        compressedMessage = .error statusBufferTooSmall ∧
      compressedMessage.length ≤ (smallWorkspace 256).limit := by decide +kernel
  refine ⟨bodyOf_some hbody, by constructor <;> decide, hlength, by decide, fun turns => ⟨[], ?_⟩⟩
  have hread : compressedMessage.take 1000 = compressedMessage ∧
      compressedMessage.drop 1000 = [] ∧ compressedMessage ≠ [] := by decide
  have hfirst : streamReader.readResponse (turns + 2) (smallWorkspace 256) [] compressedMessage =
      streamReader.readResponse (turns + 1) (smallWorkspace 256) compressedMessage [] := by
    rw [readResponse_more hmore, show streamReader.prepareRead (turns + 1) (smallWorkspace 256) [] =
      .ok (smallWorkspace 256) from rfl]
    change (if compressedMessage.take 1000 = [] then _ else streamReader.readResponse (turns + 1)
      (smallWorkspace 256) (compressedMessage.take 1000) (compressedMessage.drop 1000)) = _
    rw [hread.1, hread.2.1, if_neg hread.2.2]
  rw [readHttpResponseFromSocket, hfirst, readResponse_tooSmall hsmall]
  rfl

end ResponseReader

end KernelHttp.Engine
