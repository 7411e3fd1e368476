/-
  The codings of a body, undone in memory.
-/
import KernelHttp.Lib.Regions
import KernelHttp.Http1.CodingChain

namespace KernelHttp.Http1

open Incremental Regions

/-! ## Memory -/

/-- The octets of the buffers. -/
abbrev Memory := BodyLocation → ℕ → UInt8

/-- A pointer into a buffer, and the number of octets there. -/
structure Pointer where
  location : BodyLocation
  length : ℕ
deriving DecidableEq

/-- `length == 0 ? nullptr : pointer`. -/
def Pointer.orNull (p : Pointer) : Pointer := if p.length = 0 then ⟨.null, 0⟩ else p

def Pointer.body (p : Pointer) (m : Memory) : Body := ⟨p.location, cells (m p.location) p.length⟩

@[simp] theorem Pointer.body_location (p : Pointer) (m : Memory) :
    (p.body m).location = p.location := rfl

@[simp] theorem Pointer.length_body (p : Pointer) (m : Memory) :
    (p.body m).octets.length = p.length := length_cells _ _

theorem Pointer.body_eq_nil (p : Pointer) (m : Memory) : (p.body m).octets = [] ↔ p.length = 0 := by
  rw [← List.length_eq_zero_iff, p.length_body m]

theorem Pointer.orNull_body (p : Pointer) (m : Memory) : p.orNull.body m = (p.body m).orNull := by
  by_cases h : p.length = 0
  · have hp : p.orNull = ⟨.null, 0⟩ := if_pos h
    have hb : (p.body m).orNull = ⟨.null, []⟩ := if_pos ((p.body_eq_nil m).2 h)
    rw [hp, hb]
    rfl
  · have hp : p.orNull = p := if_neg h
    have hb : (p.body m).orNull = p.body m := if_neg fun hc => h ((p.body_eq_nil m).1 hc)
    rw [hp, hb]

/-! ## Results that are computed on a view -/

section View

variable {ε σ τ σ' τ' α : Type} {f : σ → τ} {f' : σ' → τ'}

theorem map_bind_eq {x : Except ε σ} {y : Except ε τ} {g : σ → Except ε σ'} {g' : τ → Except ε τ'}
    (h : x.map f = y) (hg : ∀ s, (g s).map f' = g' (f s)) : (x >>= g).map f' = y >>= g' := by
  subst h
  cases x with
  | error e => rfl
  | ok s => exact hg s

theorem map_bind_eq_map {f₁ : τ' → α} {f₂ : σ' → α} {x : Except ε σ} {y : Except ε τ}
    {g : σ → Except ε σ'} {g' : τ → Except ε τ'} (h : x.map f = y)
    (hg : ∀ s, (g s).map f₂ = (g' (f s)).map f₁) : (x >>= g).map f₂ = (y >>= g').map f₁ := by
  subst h
  cases x with
  | error e => rfl
  | ok s => exact hg s

theorem map_foldlM_eq {g : σ → α → Except ε σ} {g' : τ → α → Except ε τ}
    (hg : ∀ s a, (g s a).map f = g' (f s) a) (as : List α) :
    ∀ s, (as.foldlM g s).map f = as.foldlM g' (f s) := by
  induction as with
  | nil => exact fun _ => rfl
  | cons a as ih =>
    intro s
    rw [List.foldlM_cons, List.foldlM_cons]
    exact map_bind_eq (hg s a) ih

end View

/-! ## Decoders -/

/-- What a chunked decoder reports: lengths, and the trailers. -/
structure ChunkedCounts where
  bodyLength : ℕ
  bytesConsumed : ℕ
  trailerCount : ℕ
  trailers : List HttpHeader

/-- The result of a chunked decoder whose destination holds the cells `f`. -/
def ChunkedCounts.result (f : ℕ → UInt8) (r : ChunkedCounts) : ChunkedResult :=
  ⟨cells f r.bodyLength, r.bytesConsumed, r.trailerCount, r.trailers⟩

/-- The single decoders as procedures on a source and a destination. -/
structure DecoderProcedures (codecs : ExternalCodecs) where
  one : HttpCoding → ℕ → OutBuffer → Procedure UInt8 (Except NTSTATUS ℕ)
  one_alone : ∀ coding length destination source target,
    ((one coding length destination).alone source target).1.map
        (cells ((one coding length destination).alone source target).2) =
      decodeOne codecs coding ⟨.wire, cells source length⟩ destination
  chunked : ℕ → OutBuffer → OutBuffer → Procedure UInt8 (Except NTSTATUS ChunkedCounts)
  chunked_alone : ∀ length destination trailerTarget source target,
    ((chunked length destination trailerTarget).alone source target).1.map
        (ChunkedCounts.result ((chunked length destination trailerTarget).alone source target).2) =
      decodeChunkedBodyWithTrailers (cells source length) destination trailerTarget

def resultOctets : Except NTSTATUS Bytes → Bytes
  | .ok t => t
  | .error _ => []

/-- Decoders that read their source before they write. -/
def DecoderProcedures.readFirst (codecs : ExternalCodecs) : DecoderProcedures codecs where
  one coding length destination := Procedure.ofFunction length fun s =>
    ((decodeOne codecs coding ⟨.wire, s⟩ destination).map List.length,
      resultOctets (decodeOne codecs coding ⟨.wire, s⟩ destination))
  one_alone coding length destination source target := by
    obtain ⟨hresult, hcells⟩ := Procedure.alone_ofFunction length (fun s =>
      ((decodeOne codecs coding ⟨.wire, s⟩ destination).map List.length,
        resultOctets (decodeOne codecs coding ⟨.wire, s⟩ destination))) source target
    rw [hresult]
    dsimp only at hcells ⊢
    cases h : decodeOne codecs coding ⟨.wire, cells source length⟩ destination with
    | error status => rfl
    | ok t =>
      rw [h] at hcells
      exact congrArg Except.ok hcells
  chunked length destination trailerTarget := Procedure.ofFunction length fun s =>
    ((decodeChunkedBodyWithTrailers s destination trailerTarget).map fun r =>
        ⟨r.body.length, r.bytesConsumed, r.trailerCount, r.trailers⟩,
      resultOctets ((decodeChunkedBodyWithTrailers s destination trailerTarget).map
        ChunkedResult.body))
  chunked_alone length destination trailerTarget source target := by
    obtain ⟨hresult, hcells⟩ := Procedure.alone_ofFunction length (fun s =>
      ((decodeChunkedBodyWithTrailers s destination trailerTarget).map fun r =>
          (⟨r.body.length, r.bytesConsumed, r.trailerCount, r.trailers⟩ : ChunkedCounts),
        resultOctets ((decodeChunkedBodyWithTrailers s destination trailerTarget).map
          ChunkedResult.body))) source target
    rw [hresult]
    dsimp only at hcells ⊢
    cases h : decodeChunkedBodyWithTrailers (cells source length) destination trailerTarget with
    | error status => rfl
    | ok r =>
      rw [h] at hcells
      refine congrArg Except.ok ?_
      show ChunkedResult.mk _ _ _ _ = r
      rw [show cells _ r.body.length = r.body from hcells]

/-! ## Chains in memory -/

/-- The current pointer, whether the body is changed, and the memory. -/
abbrev ChainMemory := (Pointer × Bool) × Memory

/-- The body behind the current pointer. -/
def ChainMemory.view (st : ChainMemory) : Body × Bool := (st.1.1.body st.2, st.1.2)

section Chain

variable {codecs : ExternalCodecs} (decoders : DecoderProcedures codecs)
  (buffers : HttpCodingDecodeBuffers)

/-- `HttpCodingCodec::DecodeOne`. -/
def decodeOneIn (coding : HttpCoding) (source : Pointer) (location : BodyLocation)
    (destination : OutBuffer) (m : Memory) : Except NTSTATUS ℕ × Memory :=
  if source.location = .null ∧ (source.length ≠ 0 ∨ coding ≠ .identity) then
    (.error statusInvalidParameter, m)
  else (decoders.one coding source.length destination).run source.location location m

/-- One turn of the loop of `DecodeChainReverse`. -/
def chainStepIn (coding : HttpCoding) (st : ChainMemory) : Except NTSTATUS ChainMemory :=
  if coding = .identity then .ok st
  else
    let (location, destination) := selectDestination st.1.1.location buffers
    match decodeOneIn decoders coding st.1.1 location destination st.2 with
    | (.error status, _) => .error status
    | (.ok decodedLength, m) =>
      if ¬ isDecodedSizeAllowed st.1.1.length decodedLength then
        .error statusInvalidNetworkResponse
      else .ok ((Pointer.orNull ⟨location, decodedLength⟩, true), m)

/-- The copy of a transformed body into `DecodedBody`. -/
def moveToDecodedBodyIn (current : Pointer) (transformed : Bool) (m : Memory) :
    Except NTSTATUS (Pointer × Memory) :=
  if transformed ∧ current.length ≠ 0 ∧ buffers.decodedBody.present ∧
      current.location ≠ .decodedBody then
    if current.length > buffers.decodedBody.capacity then .error statusBufferTooSmall
    else .ok (⟨.decodedBody, current.length⟩,
      ((Procedure.copyFrom 0 current.length).run current.location .decodedBody m).2)
  else .ok (current, m)

/-- `HttpCodingCodec::DecodeChainReverse`. -/
def decodeChainReverseIn (codings : List HttpCoding) (body : Pointer) (m : Memory) :
    Except NTSTATUS ChainMemory :=
  if body.location = .null ∧ body.length ≠ 0 then .error statusInvalidParameter
  else if codings = [] ∨ body.length = 0 then .ok ((body.orNull, false), m)
  else do
    let st ← codings.reverse.foldlM (fun st coding => chainStepIn decoders buffers coding st)
      ((body, false), m)
    let r ← moveToDecodedBodyIn buffers st.1.1 st.1.2 st.2
    return ((r.1.orNull, st.1.2), r.2)

variable {decoders buffers}

theorem decodeOneIn_eq (decoders : DecoderProcedures codecs) {coding : HttpCoding} (hcoding : coding ≠ .identity) (source : Pointer)
    {location : BodyLocation} (hne : source.location ≠ .null → source.location ≠ location)
    (destination : OutBuffer) (m : Memory) :
    (decodeOneIn decoders coding source location destination m).1.map
        (fun n => cells ((decodeOneIn decoders coding source location destination m).2 location) n) =
      decodeOne codecs coding (source.body m) destination := by
  by_cases hnull : source.location = .null
  · have hguard : source.location = .null ∧ (source.length ≠ 0 ∨ coding ≠ .identity) :=
      ⟨hnull, .inr hcoding⟩
    have hguard' : (source.body m).location = .null ∧
        ((source.body m).octets ≠ [] ∨ coding ≠ .identity) := ⟨hnull, .inr hcoding⟩
    rw [decodeOneIn, if_pos hguard]
    unfold decodeOne
    rw [if_pos hguard']
    rfl
  · rw [decodeOneIn, if_neg fun h => hnull h.1, Procedure.run_eq (hne hnull)]
    dsimp only
    rw [Function.update_self, decoders.one_alone]
    exact (decodeOne_location hnull destination).symm

theorem chainStepIn_view (st : ChainMemory) (coding : HttpCoding) :
    (chainStepIn decoders buffers coding st).map ChainMemory.view =
      chainStep codecs buffers coding st.view := by
  obtain ⟨⟨current, transformed⟩, m⟩ := st
  by_cases hcoding : coding = .identity
  · rw [chainStepIn, if_pos hcoding, chainStep, if_pos hcoding]
    rfl
  · have hne : current.location ≠ .null →
        current.location ≠ (selectDestination current.location buffers).1 :=
      fun h => (selectDestination_ne h).symm
    have hone := decodeOneIn_eq decoders hcoding current hne
      (selectDestination current.location buffers).2 m
    rw [chainStepIn, if_neg hcoding, chainStep, if_neg hcoding]
    dsimp only [ChainMemory.view, Pointer.body_location]
    rw [← hone]
    generalize hout : decodeOneIn decoders coding current (selectDestination current.location
      buffers).1 (selectDestination current.location buffers).2 m = out
    obtain ⟨result, m'⟩ := out
    cases result with
    | error status => rfl
    | ok decodedLength =>
      dsimp only [Except.map]
      simp only [ChainMemory.view, Pointer.length_body, length_cells, DecodedSizeCheck.allowed_eq]
      split_ifs with hallowed
      · refine congrArg Except.ok ?_
        show (Pointer.body _ m', true) = _
        rw [Pointer.orNull_body]
        rfl
      · rfl

theorem moveToDecodedBodyIn_view (current : Pointer) (transformed : Bool) (m : Memory) :
    (moveToDecodedBodyIn buffers current transformed m).map (fun r => r.1.body r.2) =
      moveToDecodedBody buffers (current.body m) transformed := by
  rw [moveToDecodedBodyIn, moveToDecodedBody]
  simp only [ne_eq, Pointer.length_body, Pointer.body_eq_nil, Pointer.body_location]
  by_cases hcopy : transformed = true ∧ ¬ current.length = 0 ∧ buffers.decodedBody.present = true ∧
      current.location ≠ .decodedBody
  · rw [if_pos hcopy, if_pos hcopy]
    split_ifs with hlong
    · rfl
    · rw [Procedure.run_eq hcopy.2.2.2]
      refine congrArg Except.ok (congrArg (Body.mk _) ?_)
      dsimp only
      rw [Function.update_self, Procedure.cells_copy]
      rfl
  · rw [if_neg hcopy, if_neg hcopy]
    rfl

theorem decodeChainReverseIn_view (codings : List HttpCoding) (body : Pointer) (m : Memory) :
    (decodeChainReverseIn decoders buffers codings body m).map ChainMemory.view =
      decodeChainReverse codecs codings (body.body m) buffers := by
  rw [decodeChainReverseIn, decodeChainReverse]
  simp only [ne_eq, Pointer.body_eq_nil, Pointer.body_location]
  split_ifs with h1 h2
  · rfl
  · refine congrArg Except.ok ?_
    show (Pointer.body _ m, false) = _
    rw [Pointer.orNull_body]
  · refine map_bind_eq (f := ChainMemory.view) (map_foldlM_eq chainStepIn_view codings.reverse _)
      fun st => ?_
    refine map_bind_eq (moveToDecodedBodyIn_view _ _ _) fun r => ?_
    refine congrArg Except.ok ?_
    show (Pointer.body _ r.2, st.1.2) = _
    rw [Pointer.orNull_body]
    rfl

end Chain

/-! ## Both pipelines in memory -/

/-- The local variables of `DecodeResponseBody`, and the memory. -/
structure TransferMemory where
  current : Pointer
  outerBytesConsumed : ℕ
  transformed : Bool := false
  trailerCount : ℕ := 0
  trailers : List HttpHeader := []
  memory : Memory

/-- The local variables, with the body behind the current pointer. -/
def TransferMemory.view (st : TransferMemory) : TransferState :=
  ⟨st.current.body st.memory, st.outerBytesConsumed, st.transformed, st.trailerCount, st.trailers⟩

section Pipelines

variable {codecs : ExternalCodecs} (decoders : DecoderProcedures codecs)
  (buffers : HttpCodingDecodeBuffers) (trailerTarget : OutBuffer)

/-- A turn of `DecodeResponseBody` on a chunked coding. -/
def chunkedStepIn (outermost : Bool) (st : TransferMemory) : Except NTSTATUS TransferMemory :=
  let (location, destination) := selectDestination st.current.location buffers
  if st.current.location = .null then .error statusInvalidParameter
  else
    match (decoders.chunked st.current.length destination
        (if outermost then trailerTarget else {})).run st.current.location location st.memory with
    | (.error status, _) => .error status
    | (.ok r, m) =>
      let st' := { st with
        current := Pointer.orNull ⟨location, r.bodyLength⟩
        transformed := true
        memory := m }
      if outermost then
        .ok { st' with
          outerBytesConsumed := r.bytesConsumed
          trailerCount := r.trailerCount
          trailers := r.trailers }
      else if r.bytesConsumed ≠ st.current.length then .error statusInvalidNetworkResponse
      else .ok st'

/-- A turn of `DecodeResponseBody` on another coding. -/
def codingStepIn (coding : HttpCoding) (st : TransferMemory) : Except NTSTATUS TransferMemory := do
  let r ← decodeChainReverseIn decoders buffers [coding] st.current st.memory
  return { st with
    current := r.1.1.orNull
    transformed := st.transformed || r.1.2
    memory := r.2 }

/-- A turn of the loop of `DecodeResponseBody`. -/
def transferStepIn (outermost : Bool) (coding : HttpTransferCodingKind) (st : TransferMemory) :
    Except NTSTATUS TransferMemory :=
  match transferCodingToHttpCoding coding with
  | none => chunkedStepIn decoders buffers trailerTarget outermost st
  | some coding => codingStepIn decoders buffers coding st

/-- `HttpTransferCoding::DecodeResponseBody`: the body and the memory. -/
def decodeResponseBodyIn (info : HttpTransferCodingInfo) (closed : Bool) (wireLength : ℕ)
    (m : Memory) : Except NTSTATUS (Pointer × Memory) :=
  if ¬ info.hasTransferEncoding ∨ info.codings = [] then .ok (Pointer.orNull ⟨.wire, wireLength⟩, m)
  else if ¬ info.finalCodingIsChunked ∧ ¬ closed then .error statusMoreProcessingRequired
  else do
    let st ← (markOutermost info.codings.reverse).foldlM
      (fun st a => transferStepIn decoders buffers trailerTarget a.1 a.2 st)
      ⟨⟨.wire, wireLength⟩, if info.finalCodingIsChunked then 0 else wireLength, false, 0, [], m⟩
    let r ← moveToDecodedBodyIn buffers st.current st.transformed st.memory
    return (r.1.orNull, r.2)

/-- `HttpContentEncoding::Decode`: the body and the memory. -/
def contentEncodingDecodeIn (headers : List HttpHeader) (body : Pointer) (m : Memory) :
    Except NTSTATUS (Pointer × Memory) :=
  if body.location = .null ∧ body.length ≠ 0 then .error statusInvalidParameter
  else do
    let codings ← (fieldValues headers (text "Content-Encoding")).foldlM appendCodings []
    if codings = [] ∨ body.length = 0 then return (body.orNull, m)
    else
      let r ← decodeChainReverseIn decoders buffers codings body m
      return (r.1.1, r.2)

/-- `DecodeResponseBody`, and then `HttpContentEncoding::Decode`, in memory. -/
def deliverIn (info : HttpTransferCodingInfo) (closed : Bool) (headers : List HttpHeader)
    (wireLength : ℕ) (m : Memory) : Except NTSTATUS (Pointer × Memory) := do
  let r ← decodeResponseBodyIn decoders buffers trailerTarget info closed wireLength m
  contentEncodingDecodeIn decoders buffers headers r.1 r.2

variable {decoders buffers trailerTarget}

theorem chunkedStepIn_view (outermost : Bool) (st : TransferMemory) :
    (chunkedStepIn decoders buffers trailerTarget outermost st).map TransferMemory.view =
      chunkedStep buffers trailerTarget outermost st.view := by
  obtain ⟨current, consumed, transformed, count, trailers, m⟩ := st
  rw [chunkedStepIn, chunkedStep]
  simp only [TransferMemory.view, Pointer.body_location, Pointer.length_body]
  by_cases hnull : current.location = .null
  · rw [if_pos hnull, if_pos hnull]
    rfl
  rw [if_neg hnull, if_neg hnull, Procedure.run_eq (selectDestination_ne hnull).symm]
  have hone := decoders.chunked_alone current.length (selectDestination current.location buffers).2
    (if outermost then trailerTarget else {}) (m current.location)
    (m (selectDestination current.location buffers).1)
  rw [show (current.body m).octets = cells (m current.location) current.length from rfl, ← hone]
  generalize (decoders.chunked current.length (selectDestination current.location buffers).2
    (if outermost then trailerTarget else {})).alone (m current.location)
    (m (selectDestination current.location buffers).1) = out
  obtain ⟨result, target⟩ := out
  cases result with
  | error status => rfl
  | ok r =>
    -- the body that the decoder leaves in its destination
    have hbody : Pointer.body (Pointer.orNull ⟨(selectDestination current.location buffers).1,
        r.bodyLength⟩) (Function.update m (selectDestination current.location buffers).1 target) =
        Body.orNull ⟨(selectDestination current.location buffers).1,
          cells target r.bodyLength⟩ := by
      rw [Pointer.orNull_body, Pointer.body, Function.update_self]
    dsimp only [Except.map, ChunkedCounts.result]
    cases outermost with
    | true =>
      exact congrArg (fun b => Except.ok (TransferState.mk b r.bytesConsumed true r.trailerCount
        r.trailers)) hbody
    | false =>
      simp only [Bool.false_eq_true, if_false]
      split_ifs with hconsumed
      · rfl
      · exact congrArg (fun b => Except.ok (TransferState.mk b consumed true count trailers)) hbody

theorem codingStepIn_view (coding : HttpCoding) (st : TransferMemory) :
    (codingStepIn decoders buffers coding st).map TransferMemory.view =
      codingStep codecs buffers coding st.view := by
  refine map_bind_eq (decodeChainReverseIn_view [coding] st.current st.memory) fun r => ?_
  refine congrArg Except.ok ?_
  dsimp only [TransferMemory.view]
  rw [Pointer.orNull_body]

theorem transferStepIn_view (st : TransferMemory) (a : Bool × HttpTransferCodingKind) :
    (transferStepIn decoders buffers trailerTarget a.1 a.2 st).map TransferMemory.view =
      transferStep codecs buffers trailerTarget a.1 a.2 st.view := by
  rw [transferStepIn, transferStep]
  cases transferCodingToHttpCoding a.2 with
  | none => exact chunkedStepIn_view a.1 st
  | some coding => exact codingStepIn_view coding st

theorem decodeResponseBodyIn_body (info : HttpTransferCodingInfo) (closed : Bool) (wireLength : ℕ)
    (m : Memory) :
    (decodeResponseBodyIn decoders buffers trailerTarget info closed wireLength m).map
        (fun r => r.1.body r.2) =
      (decodeResponseBody codecs info closed buffers trailerTarget
        (cells (m .wire) wireLength)).map HttpTransferDecodeResult.body := by
  rw [decodeResponseBodyIn, decodeResponseBody, length_cells]
  by_cases h1 : ¬ info.hasTransferEncoding ∨ info.codings = []
  · rw [if_pos h1, if_pos h1]
    exact congrArg Except.ok (Pointer.orNull_body _ m)
  by_cases h2 : ¬ info.finalCodingIsChunked ∧ ¬ closed
  · rw [if_neg h1, if_neg h1, if_pos h2, if_pos h2]
    rfl
  · rw [if_neg h1, if_neg h1, if_neg h2, if_neg h2]
    refine map_bind_eq_map (f := TransferMemory.view) ?_ fun st => ?_
    · rw [transferLoop_eq]
      exact map_foldlM_eq transferStepIn_view _ _
    · exact map_bind_eq_map (moveToDecodedBodyIn_view _ _ _) fun r =>
        congrArg Except.ok (Pointer.orNull_body _ _)

theorem contentEncodingDecodeIn_body (headers : List HttpHeader) (body : Pointer) (m : Memory) :
    (contentEncodingDecodeIn decoders buffers headers body m).map (fun r => r.1.body r.2) =
      contentEncodingDecode codecs headers (body.body m) buffers := by
  rw [contentEncodingDecodeIn, contentEncodingDecode]
  simp only [ne_eq, Pointer.body_eq_nil, Pointer.body_location]
  split_ifs with hnull
  · rfl
  · cases (fieldValues headers (text "Content-Encoding")).foldlM appendCodings [] with
    | error status => rfl
    | ok codings =>
      show Except.map _ (ite _ _ _) = ite _ _ _
      split_ifs with h
      · exact congrArg Except.ok (Pointer.orNull_body _ m)
      · exact map_bind_eq (decodeChainReverseIn_view codings body m) fun _ => rfl

/-- **No octet of a body is overwritten before it is read.** -/
theorem deliverIn_body (decoders : DecoderProcedures codecs) (info : HttpTransferCodingInfo) (closed : Bool) (headers : List HttpHeader)
    (wireLength : ℕ) (m : Memory) :
    (deliverIn decoders buffers trailerTarget info closed headers wireLength m).map
        (fun r => r.1.body r.2) =
      deliver codecs info closed headers buffers trailerTarget (cells (m .wire) wireLength) := by
  have hdeliver : deliver codecs info closed headers buffers trailerTarget
      (cells (m .wire) wireLength) =
      ((decodeResponseBody codecs info closed buffers trailerTarget
        (cells (m .wire) wireLength)).map HttpTransferDecodeResult.body >>= fun b =>
          contentEncodingDecode codecs headers b buffers) := by
    rw [deliver]
    cases decodeResponseBody codecs info closed buffers trailerTarget (cells (m .wire) wireLength)
    all_goals rfl
  rw [hdeliver]
  exact map_bind_eq (decodeResponseBodyIn_body info closed wireLength m) fun r =>
    contentEncodingDecodeIn_body headers r.1 r.2

variable {closed : Bool} {info : HttpTransferCodingInfo} {headers : List HttpHeader} {m : Memory}
    {wireLength : ℕ}

theorem deliver_of_deliverIn {m' : Memory} {p : Pointer}
    (h : deliverIn decoders buffers trailerTarget info closed headers wireLength m = .ok (p, m')) :
    deliver codecs info closed headers buffers trailerTarget (cells (m .wire) wireLength) =
      .ok (p.body m') := by
  rw [← deliverIn_body decoders, h]
  rfl

theorem deliverIn_of_deliver (decoders : DecoderProcedures codecs) {b : Body}
    (h : deliver codecs info closed headers buffers trailerTarget (cells (m .wire) wireLength) =
      .ok b) :
    ∃ p m', deliverIn decoders buffers trailerTarget info closed headers wireLength m =
      .ok (p, m') ∧ p.body m' = b := by
  rw [← deliverIn_body decoders] at h
  cases hin : deliverIn decoders buffers trailerTarget info closed headers wireLength m with
  | error status =>
    rw [hin] at h
    cases h
  | ok r =>
    rw [hin] at h
    exact ⟨r.1, r.2, rfl, Except.ok.inj h⟩

theorem deliverIn_of_error (decoders : DecoderProcedures codecs) {status : NTSTATUS}
    (h : deliver codecs info closed headers buffers trailerTarget (cells (m .wire) wireLength) =
      .error status) :
    deliverIn decoders buffers trailerTarget info closed headers wireLength m = .error status := by
  rw [← deliverIn_body decoders] at h
  cases hin : deliverIn decoders buffers trailerTarget info closed headers wireLength m with
  | error status' =>
    rw [hin] at h
    exact congrArg Except.error (Except.error.inj h)
  | ok r =>
    rw [hin] at h
    cases h

/-- **The codings of a message are undone one after the other.** The octets delivered are those
    that the single decoders make, and they are in `DecodedBody` if they are not those on the
    wire and there is such a buffer. -/
theorem deliverIn_composed (hcodecs : codecs.NeedLength) (decoders : DecoderProcedures codecs)
    {codings : List HttpTransferCodingKind} {contents : List HttpCoding} {closed : Bool}
    {headers : List HttpHeader} {wireLength : ℕ} {m : Memory}
    (hcontents : (fieldValues headers (text "Content-Encoding")).foldlM appendCodings [] =
      .ok contents)
    (hend : EndsBody codings closed) (hfits : buffers.FitUlong) (hwire : wireLength ≠ 0)
    (hserve : buffers.Serve .wire (transforming (codingStages codings contents)))
    (hroomy : Roomy codecs isDecodedSizeAllowed trailerTarget buffers
      (codingStages codings contents) (cells (m .wire) wireLength)) :
    (∀ u, (∃ p m', deliverIn decoders buffers trailerTarget (.ofCodings codings) closed headers
          wireLength m = .ok (p, m') ∧ (p.body m').octets = u) ↔
        Composed codecs isDecodedSizeAllowed trailerTarget (codingStages codings contents)
          (cells (m .wire) wireLength) u) ∧
      ∀ p m', deliverIn decoders buffers trailerTarget (.ofCodings codings) closed headers
          wireLength m = .ok (p, m') →
        transforming (codingStages codings contents) ≠ 0 → buffers.decodedBody.present = true →
        p.length ≠ 0 → p.location = .decodedBody := by
  have hs : cells (m .wire) wireLength ≠ [] := fun h =>
    hwire ((length_cells (m .wire) wireLength).symm.trans (by rw [h]; rfl))
  obtain ⟨hok, hsound⟩ := deliver_composed hcodecs hfits hcontents hend hs hserve hroomy
  refine ⟨fun u => ⟨?_, fun hu => ?_⟩, fun p m' h hn hpresent hp => ?_⟩
  · rintro ⟨p, m', h, rfl⟩
    exact hsound _ (deliver_of_deliverIn h)
  · obtain ⟨b, transformed, hb, hdelivered⟩ := hok u hu
    obtain ⟨p, m', h, hbody⟩ := deliverIn_of_deliver decoders hb
    obtain ⟨location, hlocation, -⟩ := hdelivered.body
    obtain rfl : b = Body.orNull ⟨location, u⟩ := hlocation
    exact ⟨p, m', h, by rw [hbody, orNull_octets]⟩
  · have hdeliver := deliver_of_deliverIn h
    obtain ⟨b, transformed, hb, hdelivered⟩ := hok _ (hsound _ hdeliver)
    obtain rfl : p.body m' = b := Except.ok.inj (hdeliver.symm.trans hb)
    exact hdelivered.moved hn hpresent fun hnil => hp ((p.body_eq_nil m').1 hnil)

/-- A chunked body, in it a compressed one, in it the octet `a`. -/
def chunkedCompressed : Bytes :=
  [0x35, 13, 10, 0x1F, 0x9D, 0x90, 0x61, 0x00, 13, 10, 0x30, 13, 10, 13, 10]

/-- Codecs that take nothing. -/
def refusingCodecs : ExternalCodecs :=
  ⟨true, fun _ _ => .error statusInvalidNetworkResponse,
    fun _ _ => .error statusInvalidNetworkResponse⟩

/-- Two buffers of `n` octets. -/
def twoBuffers (n : ℕ) : HttpCodingDecodeBuffers := ⟨⟨true, n⟩, ⟨true, n⟩⟩

theorem refusingCodecs_needLength : refusingCodecs.NeedLength :=
  ⟨fun _ _ _ h => (nomatch h), fun _ _ _ h => (nomatch h)⟩

theorem chunkedCompressed_undoes :
    Undoes refusingCodecs isDecodedSizeAllowed {} (.chunked true) chunkedCompressed
        [0x1F, 0x9D, 0x90, 0x61, 0x00] ∧
      Undoes refusingCodecs isDecodedSizeAllowed {} (.coding .compress)
        [0x1F, 0x9D, 0x90, 0x61, 0x00] [0x61] :=
  ⟨⟨16, ⟨[0x1F, 0x9D, 0x90, 0x61, 0x00], 15, 0, []⟩, by decide +kernel, rfl, nofun⟩,
    ⟨16, by decide⟩, .inr (by decide)⟩

theorem chunkedCompressed_roomy :
    Roomy refusingCodecs isDecodedSizeAllowed {} (twoBuffers 16)
      (codingStages [.chunked] [.compress]) chunkedCompressed := by
  intro t ht
  obtain rfl := ht.unique refusingCodecs_needLength chunkedCompressed_undoes.1
  refine ⟨⟨fun _ => by decide, fun _ => by decide⟩, fun _ => nofun, fun u hu => ?_⟩
  obtain rfl := hu.unique refusingCodecs_needLength chunkedCompressed_undoes.2
  exact ⟨⟨fun _ => by decide, fun _ => by decide⟩, fun h => absurd rfl h, trivial⟩

/-- A message with a chunked and a compressed body. -/
theorem deliverIn_chunkedCompressed :
    ∃ p m', deliverIn (.readFirst refusingCodecs) (twoBuffers 16) {} (.ofCodings [.chunked]) false
        [⟨text "Content-Encoding", text "compress"⟩] 15
        (fun _ i => chunkedCompressed.getD i 0) = .ok (p, m') ∧ (p.body m').octets = [0x61] := by
  have hcells : cells (fun i => chunkedCompressed.getD i 0) 15 = chunkedCompressed :=
    cells_getD chunkedCompressed 0
  have hcontents : (fieldValues [⟨text "Content-Encoding", text "compress"⟩]
      (text "Content-Encoding")).foldlM appendCodings [] = .ok [.compress] := by decide
  refine ((deliverIn_composed refusingCodecs_needLength (.readFirst refusingCodecs) hcontents
    (.inr (.inl rfl)) ⟨by decide, by decide⟩ (by decide) (.inl ⟨rfl, rfl⟩) ?_).1 _).2 ?_
  · rw [hcells]
    exact chunkedCompressed_roomy
  · rw [hcells]
    exact ⟨_, chunkedCompressed_undoes.1, _, chunkedCompressed_undoes.2, rfl⟩

def deflatedZeros : Bytes := [99, 96, 24, 5, 163, 96, 20, 12, 119, 0, 0]

/-- Codecs that take the deflated zeros and nothing else. -/
def zerosCodecs : ExternalCodecs :=
  ⟨true, fun s capacity =>
    if s = deflatedZeros then
      if 1000 ≤ capacity then .ok (List.replicate 1000 0) else .error statusBufferTooSmall
    else .error statusInvalidNetworkResponse, fun _ _ => .error statusInvalidNetworkResponse⟩

theorem zerosCodecs_needLength : zerosCodecs.NeedLength := by
  refine ⟨fun s capacity t h capacity' => ?_, fun _ _ _ h => (nomatch h)⟩
  dsimp only [zerosCodecs] at h ⊢
  split_ifs at h with hs
  obtain rfl := Except.ok.inj h
  rw [if_pos hs, List.length_replicate]

theorem deflatedZeros_undoes :
    Undoes zerosCodecs (fun _ _ => true) {} (.coding .deflate) deflatedZeros
      (List.replicate 1000 0) :=
  ⟨⟨1000, by decide +kernel⟩, .inr rfl⟩

/-- A body that a single decoder takes is refused for what it expands to. -/
theorem deliverIn_expands :
    Composed zerosCodecs (fun _ _ => true) {} (codingStages [] [.deflate]) deflatedZeros
        (List.replicate 1000 0) ∧
      Roomy zerosCodecs (fun _ _ => true) {} (twoBuffers 1000) (codingStages [] [.deflate])
        deflatedZeros ∧
      deliverIn (.readFirst zerosCodecs) (twoBuffers 1000) {} (.ofCodings []) false
        [⟨text "Content-Encoding", text "deflate"⟩] 11 (fun _ i => deflatedZeros.getD i 0) =
          .error statusInvalidNetworkResponse := by
  refine ⟨⟨_, deflatedZeros_undoes, rfl⟩, fun t ht => ?_, ?_⟩
  · obtain rfl := ht.unique zerosCodecs_needLength deflatedZeros_undoes
    have hroom : (List.replicate 1000 (0 : UInt8)).length ≤ 1000 := List.length_replicate.le
    exact ⟨⟨fun _ => hroom, fun _ => hroom⟩, fun h => absurd rfl h, trivial⟩
  · have hcells : cells (fun i => deflatedZeros.getD i 0) 11 = deflatedZeros :=
      cells_getD deflatedZeros 0
    have hdeliver : deliver zerosCodecs (.ofCodings []) false
        [⟨text "Content-Encoding", text "deflate"⟩] (twoBuffers 1000) {} deflatedZeros =
          .error statusInvalidNetworkResponse := by decide +kernel
    refine deliverIn_of_error _ ?_
    rw [hcells]
    exact hdeliver

end Pipelines

end KernelHttp.Http1
