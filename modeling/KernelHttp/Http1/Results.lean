/-
  The room the codings of a response need.

  Decoding stores one result after another in one of the two buffers and checks its length.
-/
import KernelHttp.Http1.Response
import KernelHttp.Lib.Placing

namespace KernelHttp.Http1

open Incremental Placing

/-! ## Capacities and results -/

/-- The capacities of the two buffers, neither of them missing. -/
structure Capacities where
  decodedBody : ℕ
  scratchBody : ℕ
deriving DecidableEq

namespace Capacities

def buffers (k : Capacities) : HttpCodingDecodeBuffers :=
  ⟨⟨true, k.decodedBody⟩, ⟨true, k.scratchBody⟩⟩

def options (k : Capacities) (options : HttpParseOptions) : HttpParseOptions :=
  { options with decodedBody := ⟨true, k.decodedBody⟩, scratchBody := ⟨true, k.scratchBody⟩ }

section

variable (k : Capacities) (o : HttpParseOptions)

@[simp] theorem options_headers : (k.options o).headers = o.headers := rfl

@[simp] theorem options_trailers : (k.options o).trailers = o.trailers := rfl

@[simp] theorem options_buffers : (k.options o).buffers = k.buffers := rfl

@[simp] theorem options_closed : (k.options o).messageCompleteOnConnectionClose =
    o.messageCompleteOnConnectionClose := rfl

@[simp] theorem options_forbidden : (k.options o).responseBodyForbidden =
    o.responseBodyForbidden := rfl

end

/-- The capacity of the buffer a coding writes to. -/
def room (k : Capacities) : BodyLocation → ℕ
  | .decodedBody => k.decodedBody
  | .scratchBody => k.scratchBody
  | _ => 0

end Capacities

/-- What a coding has stored, and whether the operating system's inflate has: it takes no
capacity that is not a `ULONG`.  Or the lengths that `IsDecodedSizeAllowed` has checked. -/
inductive CodingResult where
  | stored (location : BodyLocation) (octets : Bytes) (inflated : Bool)
  | checked (encodedLength decodedLength : ℕ)
deriving DecidableEq

/-- Whether there is room for a result, and whether its length is allowed. -/
def CodingResult.place (k : Capacities) : CodingResult → Except NTSTATUS Unit
  | stored location octets inflated =>
    if inflated ∧ ¬ sizeFitsUlong (k.room location) then .error statusInvalidParameter
    else if octets.length ≤ k.room location then .ok ()
    else .error statusBufferTooSmall
  | checked encodedLength decodedLength =>
    if isDecodedSizeAllowed encodedLength decodedLength then .ok ()
    else .error statusInvalidNetworkResponse

/-- A decoder that needs exactly the length of its result. -/
def NeedsLength (f : ℕ → Except NTSTATUS Bytes) : Prop :=
  ∀ capacity out, f capacity = .ok out → ∀ capacity',
    f capacity' = if out.length ≤ capacity' then .ok out else .error statusBufferTooSmall

/-- The operating system's inflate and the brotli library need exactly the length of their
results. -/
structure ExternalCodecs.NeedLength (codecs : ExternalCodecs) : Prop where
  inflate : ∀ input, NeedsLength (codecs.rtlDecompressBufferEx input)
  brotli : ∀ input, NeedsLength (codecs.decodeBrotli input)

/-- A computation stores its results in order. -/
abbrev Stores {α : Type} (f : Capacities → Except NTSTATUS α) : Prop :=
  Sized (fun k r => CodingResult.place k r) f f

/-- `g` stores the results of `f` in order, and checks their lengths. -/
abbrev StoresChecked {α : Type} (f g : Capacities → Except NTSTATUS α) : Prop :=
  Sized (fun k r => CodingResult.place k r) f g

/-- A computation with one result. -/
theorem gives_single {α : Type} {f : Capacities → Except NTSTATUS α} {a : α} {out : Bytes}
    {location : BodyLocation} (hf : ∀ k, f k =
      if out.length ≤ k.room location then .ok a else .error statusBufferTooSmall) :
    Gives (fun k r => CodingResult.place k r) f a [.stored location out false] := by
  intro k
  rw [hf k, store, CodingResult.place]
  rw [if_neg (show ¬ (false = true ∧ ¬ sizeFitsUlong (k.room location) = true) from
    fun h => Bool.false_ne_true h.1)]
  by_cases hle : out.length ≤ k.room location
  · rw [if_pos hle, if_pos hle]
    rfl
  · rw [if_neg hle, if_neg hle]
    rfl

theorem NeedsLength.stores {f : ℕ → Except NTSTATUS Bytes} (hf : NeedsLength f)
    (location : BodyLocation) : Stores fun k => f (k.room location) :=
  fun _ _ h => ⟨_, gives_single fun k' => hf _ _ h (k'.room location)⟩

/-! ## Deflate and gzip -/

section

variable {codecs : ExternalCodecs} (hcodecs : codecs.NeedLength)
include hcodecs

theorem decodeRawDeflate_stores (compressed : Bytes) (location : BodyLocation) :
    Stores fun k => decodeRawDeflate codecs compressed (k.room location) := by
  intro k out h
  dsimp only at h
  rw [decodeRawDeflate] at h
  split_ifs at h with havailable hfits
  have hout : codecs.rtlDecompressBufferEx compressed (k.room location) = .ok out := by
    cases hrtl : codecs.rtlDecompressBufferEx compressed (k.room location) with
    | ok decoded =>
      rw [hrtl] at h
      exact h
    | error status =>
      rw [hrtl] at h
      dsimp only at h
      split_ifs at h
  refine ⟨[.stored location out true], fun k' => ?_⟩
  rw [not_or, not_not, not_not] at hfits
  dsimp only
  rw [decodeRawDeflate, if_neg (not_not.2 havailable), hcodecs.inflate _ _ _ hout (k'.room location), store,
    CodingResult.place]
  by_cases hk : sizeFitsUlong (k'.room location) = true
  · simp only [hfits.1, hk, not_true_eq_false, or_self, and_false, if_false]
    split_ifs
    all_goals rfl
  · rw [if_pos (.inr hk), if_pos ⟨rfl, hk⟩]
    rfl

theorem decodeDeflate_stores (compressed : Bytes) (location : BodyLocation) :
    Stores fun k => decodeDeflate codecs compressed (k.room location) := by
  refine Sized.ite (fun _ => Sized.ite (fun _ => .const _) fun _ => ?_)
    fun _ => decodeRawDeflate_stores hcodecs _ _
  exact (decodeRawDeflate_stores hcodecs _ _).bind fun decoded => .const _

theorem decodeGzip_stores (compressed : Bytes) (location : BodyLocation) :
    Stores fun k => decodeGzip codecs compressed (k.room location) := by
  unfold decodeGzip
  cases skipGzipHeader compressed with
  | none => exact .const _
  | some rest =>
    refine Sized.ite (fun _ => .const _) fun _ => ?_
    exact (decodeRawDeflate_stores hcodecs _ _).bind fun decoded => .const _

end

/-! ## Compress -/

theorem emitReverseStack_eq (capacity : ℕ) (stack output : Bytes)
    (hout : output.length ≤ capacity) : emitReverseStack ⟨true, capacity⟩ stack output =
      if (output ++ stack).length ≤ capacity then .ok (output ++ stack)
      else .error statusBufferTooSmall := by
  rw [emitReverseStack, List.length_append]
  by_cases hs : stack = []
  · rw [if_pos (.inl hs), if_pos (by rw [hs, List.length_nil]; omega)]
  · simp only [hs, true_and, false_or]

variable {st : CompressState} {capacity : ℕ}

theorem compressCode_needs {maxCodes code : ℕ} {st' : CompressState}
    (h : compressCode ⟨true, capacity⟩ maxCodes st code = .ok st')
    (hout : st.output.length ≤ capacity) :
    st.output.length ≤ st'.output.length ∧ st'.output.length ≤ capacity ∧
    ∀ capacity', st.output.length ≤ capacity' →
      compressCode ⟨true, capacity'⟩ maxCodes st code =
        if st'.output.length ≤ capacity' then .ok st' else .error statusBufferTooSmall := by
  rw [compressCode_eq] at h
  obtain ⟨⟨stack, extra⟩, hstack, h⟩ := bind_eq_ok h
  obtain ⟨output₁, h1, h⟩ := bind_eq_ok h
  obtain ⟨output₂, h2, h⟩ := bind_eq_ok h
  dsimp only at h1 h2 h
  rw [emitReverseStack_eq _ _ _ hout] at h1
  split_ifs at h1 with hle1
  obtain rfl := Except.ok.inj h1
  rw [emitReverseStack_eq _ _ _ hle1] at h2
  split_ifs at h2 with hle2
  obtain rfl := Except.ok.inj h2
  obtain rfl := Except.ok.inj h
  rw [compressTable_output]
  refine ⟨by simp only [List.length_append]; omega, hle2, fun capacity' hle => ?_⟩
  rw [compressCode_eq, bind_of_ok hstack]
  dsimp only
  rw [emitReverseStack_eq _ _ _ hle]
  by_cases hc1 : (st.output ++ stack).length ≤ capacity'
  · rw [if_pos hc1, bind_of_ok rfl, emitReverseStack_eq _ _ _ hc1]
    by_cases hc2 : (st.output ++ stack ++ extra).length ≤ capacity'
    · rw [if_pos hc2, if_pos hc2]
      rfl
    · rw [if_neg hc2, if_neg hc2]
      rfl
  · rw [if_neg hc1, if_neg (by simp only [List.length_append] at hc1 ⊢; omega)]
    rfl

theorem compressLoop_needs {d : Bytes} {maxBits : ℕ} {blockMode : Bool} {out : Bytes} {turns : ℕ}
    (h : compressLoop d ⟨true, capacity⟩ blockMode maxBits turns st = .ok out)
    (hout : st.output.length ≤ capacity) :
    st.output.length ≤ out.length ∧ ∀ capacity', st.output.length ≤ capacity' →
      compressLoop d ⟨true, capacity'⟩ blockMode maxBits turns st =
        if out.length ≤ capacity' then .ok out else .error statusBufferTooSmall := by
  induction turns generalizing st with
  | zero =>
    obtain rfl := Except.ok.inj h
    exact ⟨le_rfl, fun capacity' hle => by rw [if_pos hle]; rfl⟩
  | succ turns ih =>
    rw [compressLoop] at h
    simp only [compressLoop]
    by_cases h1 : ¬ hasCompleteCompressCode (d.length * 8) st.bitOffset st.codeBits
    · rw [if_pos h1] at h
      obtain rfl := Except.ok.inj h
      exact ⟨le_rfl, fun capacity' hle => by rw [if_pos h1, if_pos hle]⟩
    rw [if_neg h1] at h
    simp only [if_neg h1]
    have hst : (if st.nextCode > 2 ^ st.codeBits - 1 ∧ st.codeBits < maxBits then
        { st with
          bitOffset := alignCompressBitOffset st.bitOffset st.codeBits
          codeBits := st.codeBits + 1 }
      else st).output = st.output := by
      split_ifs <;> rfl
    dsimp only at h
    generalize (if st.nextCode > 2 ^ st.codeBits - 1 ∧ st.codeBits < maxBits then
        { st with
          bitOffset := alignCompressBitOffset st.bitOffset st.codeBits
          codeBits := st.codeBits + 1 }
      else st) = st₁ at h hst ⊢
    rw [← hst] at hout ⊢
    by_cases h2 : ¬ hasCompleteCompressCode (d.length * 8) st₁.bitOffset st₁.codeBits
    · rw [if_pos h2] at h
      obtain rfl := Except.ok.inj h
      exact ⟨le_rfl, fun capacity' hle => by rw [if_pos h2, if_pos hle]⟩
    rw [if_neg h2] at h
    simp only [if_neg h2]
    cases hread : readCompressCode d st₁.bitOffset st₁.codeBits with
    | none =>
      rw [hread] at h
      cases h
    | some code =>
      rw [hread] at h
      dsimp only at h ⊢
      by_cases h3 : blockMode = true ∧ code = 256
      · rw [if_pos h3] at h
        simp only [if_pos h3]
        exact ih h hout
      rw [if_neg h3] at h
      simp only [if_neg h3]
      cases hcode : compressCode ⟨true, capacity⟩ (2 ^ maxBits)
          { st₁ with bitOffset := st₁.bitOffset + st₁.codeBits } code with
      | error status =>
        rw [hcode] at h
        cases h
      | ok st₂ =>
        rw [hcode] at h
        obtain ⟨hle, hle2, hneeds⟩ := compressCode_needs hcode hout
        obtain ⟨hle3, hrest⟩ := ih h hle2
        refine ⟨hle.trans hle3, fun capacity' hcap => ?_⟩
        rw [hneeds capacity' hcap]
        by_cases hc : st₂.output.length ≤ capacity'
        · rw [if_pos hc]
          exact hrest capacity' hc
        · rw [if_neg hc, if_neg (by omega)]

theorem decodeCompress_needsLength (compressed : Bytes) :
    NeedsLength fun capacity => decodeCompress compressed ⟨true, capacity⟩ := by
  intro capacity out h capacity'
  unfold decodeCompress at h ⊢
  dsimp only at h ⊢
  split at h
  · next magic0 magic1 flags d =>
      by_cases hmagic : magic0.toNat ≠ 0x1F ∨ magic1.toNat ≠ 0x9D ∨ flags.toNat % 32 < 9 ∨
          flags.toNat % 32 > 16
      · rw [if_pos hmagic] at h
        cases h
      rw [if_neg hmagic] at h ⊢
      exact (compressLoop_needs h (Nat.zero_le _)).2 capacity' (Nat.zero_le _)
  · cases h

/-! ## Chunks -/

theorem trailerLoop_body {target : OutBuffer} {body : Bytes} : ∀ (n : ℕ) (rest : Bytes),
    rest.length ≤ n → ∀ (consumed trailerCount : ℕ) (trailers : List HttpHeader)
    (r : ChunkedResult), trailerLoop target body rest consumed trailerCount trailers = .ok r →
    r.body = body ∧ ∀ body', trailerLoop target body' rest consumed trailerCount trailers =
      .ok { r with body := body' } := by
  intro n
  induction n with
  | zero =>
    intro rest hn consumed trailerCount trailers r h
    obtain rfl : rest = [] := List.eq_nil_of_length_eq_zero (by omega)
    rw [trailerLoop_none rfl] at h
    cases h
  | succ n ih =>
    intro rest hn consumed trailerCount trailers r h
    cases hf : findCrlf rest with
    | none =>
      rw [trailerLoop_none hf] at h
      cases h
    | some lineEnd =>
      have hle := findCrlf_le hf
      rw [trailerLoop_some hf] at h
      simp only [trailerLoop_some hf]
      cases ht : parseTrailerFieldLine (rest.take lineEnd) with
      | error status =>
        simp only [ht] at h
        split_ifs at h with h1 h2
        obtain rfl := Except.ok.inj h
        exact ⟨rfl, fun body' => by rw [if_neg h1, if_pos h2]⟩
      | ok trailer =>
        simp only [ht] at h ⊢
        generalize (if target.present then trailers ++ [trailer] else trailers) = stored at h ⊢
        split_ifs at h with h1 h2 h3 h4
        · obtain rfl := Except.ok.inj h
          exact ⟨rfl, fun body' => by rw [if_neg h1, if_pos h2]⟩
        · simp only [if_neg h1, if_neg h2, if_neg h3, if_neg h4]
          exact ih _ (by simp only [List.length_drop]; omega) _ _ _ r h

theorem copyChunkData_eq (capacity : ℕ) (chunk body : Bytes) (hbody : body.length ≤ capacity) :
    copyChunkData chunk ⟨true, capacity⟩ body =
      if (body ++ chunk).length ≤ capacity then .ok (body ++ chunk)
      else .error statusBufferTooSmall := by
  rw [copyChunkData, List.length_append]
  by_cases hc : chunk = []
  · rw [if_pos hc, hc, List.append_nil, List.length_nil, if_pos (by omega)]
  · rw [if_neg hc]
    by_cases hle : body.length + chunk.length ≤ capacity
    · rw [if_neg (by simp only [not_true_eq_false, false_or]; omega), if_pos hle]
    · rw [if_pos (by simp only [not_true_eq_false, false_or]; omega), if_neg hle]

theorem chunkLoop_needs {trailerTarget : OutBuffer} : ∀ (n : ℕ) (rest : Bytes),
    rest.length ≤ n → ∀ (consumed chunkCount : ℕ) (body : Bytes) (r : ChunkedResult),
    chunkLoop ⟨true, capacity⟩ trailerTarget rest consumed chunkCount body = .ok r →
    body.length ≤ capacity →
    body.length ≤ r.body.length ∧ ∀ capacity', body.length ≤ capacity' →
      chunkLoop ⟨true, capacity'⟩ trailerTarget rest consumed chunkCount body =
        if r.body.length ≤ capacity' then .ok r else .error statusBufferTooSmall := by
  intro n
  induction n with
  | zero =>
    intro rest hn consumed chunkCount body r h
    obtain rfl : rest = [] := List.eq_nil_of_length_eq_zero (by omega)
    rw [chunkLoop_none rfl] at h
    cases h
  | succ n ih =>
    intro rest hn consumed chunkCount body r h hbody
    cases hf : findCrlf rest with
    | none =>
      rw [chunkLoop_none hf] at h
      cases h
    | some lineEnd =>
      have hle := findCrlf_le hf
      rw [chunkLoop_some hf] at h
      simp only [chunkLoop_some hf]
      unfold chunkTurn at h ⊢
      by_cases h1 : lineEnd > maxChunkSizeLineBytes
      · rw [if_pos h1] at h
        cases h
      rw [if_neg h1] at h
      simp only [if_neg h1]
      cases hsize : parseChunkSizeLine (rest.take lineEnd) with
      | error status =>
        rw [hsize] at h
        cases h
      | ok chunkSize =>
        rw [hsize] at h
        dsimp only at h ⊢
        by_cases h2 : chunkSize = 0
        · rw [if_pos h2] at h
          simp only [if_pos h2]
          obtain ⟨hr, -⟩ := trailerLoop_body _ _ le_rfl _ _ _ r h
          rw [hr]
          exact ⟨le_rfl, fun capacity' hcap => by rw [h, if_pos hcap]⟩
        rw [if_neg h2] at h
        simp only [if_neg h2]
        by_cases h3 : chunkCount + 1 > maxChunks
        · rw [if_pos h3] at h
          cases h
        by_cases h4 : chunkSize > (rest.drop (lineEnd + 2)).length
        · rw [if_neg h3, if_pos h4] at h
          cases h
        rw [if_neg h3, if_neg h4, copyChunkData_eq _ _ _ hbody] at h
        simp only [if_neg h3, if_neg h4]
        by_cases hcopy : (body ++ (rest.drop (lineEnd + 2)).take chunkSize).length ≤ capacity
        swap
        · rw [if_neg hcopy] at h
          cases h
        rw [if_pos hcopy] at h
        dsimp only at h
        split_ifs at h with h5 h6
        obtain ⟨hle2, hneeds⟩ := ih _ (by simp only [List.length_drop]; omega) _ _ _ r h hcopy
        refine ⟨by rw [List.length_append] at hle2; omega, fun capacity' hcap => ?_⟩
        rw [copyChunkData_eq _ _ _ hcap]
        by_cases hc : (body ++ (rest.drop (lineEnd + 2)).take chunkSize).length ≤ capacity'
        · rw [if_pos hc]
          simp only [if_neg h5, if_neg (not_not.2 h6)]
          exact hneeds capacity' hc
        · rw [if_neg hc, if_neg (by omega)]

theorem decodeChunkedBodyWithTrailers_stores (data : Bytes) (trailerTarget : OutBuffer)
    (location : BodyLocation) : Stores fun k =>
      decodeChunkedBodyWithTrailers data ⟨true, k.room location⟩ trailerTarget := by
  intro k r h
  simp only [decodeChunkedBodyWithTrailers] at h
  by_cases hnull : trailerTarget.present = false ∧ trailerTarget.capacity ≠ 0
  · rw [if_pos (.inr hnull)] at h
    cases h
  rw [if_neg fun hor => hor.elim (fun hf => Bool.false_ne_true hf.1.symm) hnull] at h
  refine ⟨_, @gives_single _ _ _ r.body location fun k' => ?_⟩
  simp only [decodeChunkedBodyWithTrailers]
  rw [if_neg fun hor => hor.elim (fun hf => Bool.false_ne_true hf.1.symm) hnull]
  exact (chunkLoop_needs _ _ le_rfl _ _ _ r h (Nat.zero_le _)).2 _ (Nat.zero_le _)

/-! ## Chains -/

/-- The buffer a coding writes to, when both are there. -/
def destinationOf (current : BodyLocation) : BodyLocation :=
  if current = .decodedBody then .scratchBody else .decodedBody

theorem selectDestination_buffers (current : BodyLocation) (k : Capacities) :
    selectDestination current k.buffers =
      (destinationOf current, ⟨true, k.room (destinationOf current)⟩) := by
  cases current
  all_goals rfl

theorem moveToDecodedBody_buffers (current : Body) (transformed : Bool) (k : Capacities) :
    moveToDecodedBody k.buffers current transformed =
      if transformed ∧ current.octets ≠ [] ∧ current.location ≠ .decodedBody then
        if current.octets.length > k.decodedBody then .error statusBufferTooSmall
        else .ok ⟨.decodedBody, current.octets⟩
      else .ok current := by
  simp [moveToDecodedBody, Capacities.buffers]

theorem moveToDecodedBody_stores (current : Body) (transformed : Bool) :
    Stores fun k => moveToDecodedBody k.buffers current transformed := by
  simp only [moveToDecodedBody_buffers]
  refine Sized.ite (fun _ => ?_) fun _ => .const _
  intro k r h
  dsimp only at h
  split_ifs at h
  obtain rfl := Except.ok.inj h
  refine ⟨_, @gives_single _ _ _ current.octets .decodedBody fun k' => ?_⟩
  change (if current.octets.length > k'.decodedBody then _ else _) =
    if current.octets.length ≤ k'.decodedBody then _ else _
  by_cases hc : current.octets.length > k'.decodedBody
  · rw [if_pos hc, if_neg (Nat.not_le.2 hc)]
  · rw [if_neg hc, if_pos (Nat.not_lt.1 hc)]

section

variable {codecs : ExternalCodecs} (hcodecs : codecs.NeedLength)
include hcodecs

theorem decodeOne_stores (coding : HttpCoding) (source : Body) (location : BodyLocation) :
    Stores fun k => decodeOne codecs coding source ⟨true, k.room location⟩ := by
  refine Sized.ite (fun _ => .const _) fun _ => ?_
  cases coding with
  | identity => exact .const _
  | gzip => exact decodeGzip_stores hcodecs _ _
  | deflate => exact decodeDeflate_stores hcodecs _ _
  | brotli => exact (hcodecs.brotli _).stores _
  | compress => exact (decodeCompress_needsLength _).stores _

omit hcodecs in
theorem chainStep_buffers [DecodedSizeCheck] {coding : HttpCoding} (hcoding : coding ≠ .identity)
    (acc : Body × Bool) (k : Capacities) : chainStep codecs k.buffers coding acc =
      decodeOne codecs coding acc.1 ⟨true, k.room (destinationOf acc.1.location)⟩ >>= fun decoded =>
        if ¬ DecodedSizeCheck.allowed acc.1.octets.length decoded.length then
          .error statusInvalidNetworkResponse
        else .ok (Body.orNull ⟨destinationOf acc.1.location, decoded⟩, true) := by
  rw [chainStep, if_neg hcoding, selectDestination_buffers]
  dsimp only
  cases decodeOne codecs coding acc.1 _
  all_goals rfl

/-- The check behind a decoder. -/
theorem chainStep_stores (coding : HttpCoding) (acc : Body × Bool) :
    StoresChecked (fun k => @chainStep anyDecodedSize codecs k.buffers coding acc)
      fun k => chainStep codecs k.buffers coding acc := by
  by_cases hcoding : coding = .identity
  · simp only [chainStep, if_pos hcoding]
    exact .const _
  · simp only [chainStep_buffers hcoding, @chainStep_buffers _ anyDecodedSize _ hcoding]
    refine (decodeOne_stores hcodecs coding acc.1 _).bind fun decoded k a h => ?_
    obtain rfl : _ = a := Except.ok.inj h
    refine ⟨[.checked acc.1.octets.length decoded.length], fun k' => ?_⟩
    rw [store, CodingResult.place]
    change (if ¬ isDecodedSizeAllowed acc.1.octets.length decoded.length = true then _ else _) = _
    by_cases hallowed : isDecodedSizeAllowed acc.1.octets.length decoded.length = true
    · rw [if_pos hallowed, if_neg (not_not.2 hallowed)]
      rfl
    · rw [if_neg hallowed, if_pos hallowed]
      rfl

theorem decodeChainReverse_stores (codings : List HttpCoding) (body : Body) :
    StoresChecked (fun k => @decodeChainReverse anyDecodedSize codecs codings body k.buffers)
      fun k => decodeChainReverse codecs codings body k.buffers := by
  refine Sized.ite (fun _ => .const _) fun _ => Sized.ite (fun _ => .const _) fun _ => ?_
  refine (Sized.foldlM (fun acc coding => chainStep_stores hcodecs coding acc) _ _).bind fun r => ?_
  exact (moveToDecodedBody_stores r.1 r.2).bind fun current => .const _

theorem contentEncodingDecode_stores (headers : List HttpHeader) (body : Body) :
    StoresChecked (fun k => @contentEncodingDecode anyDecodedSize codecs headers body k.buffers)
      fun k => contentEncodingDecode codecs headers body k.buffers := by
  refine Sized.ite (fun _ => .const _) fun _ => (Sized.const _).bind fun codings => ?_
  refine Sized.ite (fun _ => .const _) fun _ => ?_
  exact (decodeChainReverse_stores hcodecs codings body).bind fun r => .const _

/-! ## Transfer codings -/

theorem codingStep_stores (coding : HttpCoding) (st : TransferState) :
    StoresChecked (fun k => @codingStep anyDecodedSize codecs k.buffers coding st)
      fun k => codingStep codecs k.buffers coding st :=
  (decodeChainReverse_stores hcodecs [coding] st.current).bind fun _ => .const _

omit hcodecs in
theorem chunkedStep_stores (trailerTarget : OutBuffer) (outermost : Bool) (st : TransferState) :
    Stores fun k => chunkedStep k.buffers trailerTarget outermost st := by
  obtain ⟨finish, hstep⟩ : ∃ finish : ChunkedResult → Except NTSTATUS TransferState,
      ∀ k : Capacities, chunkedStep k.buffers trailerTarget outermost st =
        if st.current.location = .null then .error statusInvalidParameter
        else decodeChunkedBodyWithTrailers st.current.octets
          ⟨true, k.room (destinationOf st.current.location)⟩
          (if outermost then trailerTarget else {}) >>= finish := by
    refine ⟨fun r =>
      let st' := { st with
        current := Body.orNull ⟨destinationOf st.current.location, r.body⟩, transformed := true }
      if outermost then
        .ok { st' with
          outerBytesConsumed := r.bytesConsumed
          trailerCount := r.trailerCount
          trailers := r.trailers }
      else if r.bytesConsumed ≠ st.current.octets.length then
        .error statusInvalidNetworkResponse
      else .ok st', fun k => ?_⟩
    simp only [chunkedStep, selectDestination_buffers]
    by_cases hnull : st.current.location = .null
    · rw [if_pos hnull, if_pos hnull]
    rw [if_neg hnull, if_neg hnull]
    generalize decodeChunkedBodyWithTrailers _ _ _ = decoded
    cases decoded
    all_goals rfl
  rw [Stores, funext hstep]
  exact Sized.ite (fun _ => .const _) fun _ =>
    (decodeChunkedBodyWithTrailers_stores _ _ _).bind fun r => .const (finish r)

theorem transferStep_stores (trailerTarget : OutBuffer) (outermost : Bool)
    (coding : HttpTransferCodingKind) (st : TransferState) :
    StoresChecked
      (fun k => @transferStep anyDecodedSize codecs k.buffers trailerTarget outermost coding st)
      fun k => transferStep codecs k.buffers trailerTarget outermost coding st := by
  unfold transferStep
  cases transferCodingToHttpCoding coding with
  | none => exact chunkedStep_stores trailerTarget outermost st
  | some coding => exact codingStep_stores hcodecs coding st

theorem transferLoop_stores (trailerTarget : OutBuffer) (codings : List HttpTransferCodingKind)
    (st : TransferState) :
    StoresChecked (fun k => @transferLoop anyDecodedSize codecs k.buffers trailerTarget codings st)
      fun k => transferLoop codecs k.buffers trailerTarget codings st := by
  cases codings with
  | nil => exact .const _
  | cons outer inner =>
    refine (transferStep_stores hcodecs trailerTarget true outer st).bind fun st' => ?_
    exact Sized.foldlM (fun st coding => transferStep_stores hcodecs trailerTarget false coding st)
      inner st'

omit hcodecs in
theorem transferResult_stores (bodyKind : HttpBodyKind) (st : TransferState) :
    Stores fun k => transferResult k.buffers bodyKind st :=
  (moveToDecodedBody_stores st.current st.transformed).bind fun _ => .const _

theorem decodeResponseBody_stores (info : HttpTransferCodingInfo) (closed : Bool)
    (trailerTarget : OutBuffer) (wireBody : Bytes) : StoresChecked
      (fun k => @decodeResponseBody anyDecodedSize codecs info closed k.buffers trailerTarget
        wireBody)
      fun k => decodeResponseBody codecs info closed k.buffers trailerTarget wireBody := by
  refine Sized.ite (fun _ => .const _) fun _ => Sized.ite (fun _ => .const _) fun _ => ?_
  exact (transferLoop_stores hcodecs _ _ _).bind fun st => transferResult_stores _ st

/-! ## Responses -/

variable (options : HttpParseOptions)

theorem applyContentEncoding_stores (response : HttpResponse) (body : Body) :
    StoresChecked
      (fun k => @applyContentEncoding anyDecodedSize codecs (k.options options) response body)
      fun k => applyContentEncoding codecs (k.options options) response body := by
  refine Sized.ite (fun _ => .const _) fun _ => ?_
  exact (contentEncodingDecode_stores hcodecs response.headers body).bind fun decoded => .const _

theorem parseBody_stores (response : HttpResponse) (headerEnd : ℕ) (rest : Bytes) :
    StoresChecked (fun k => @parseBody anyDecodedSize codecs (k.options options) response headerEnd
        rest)
      fun k => parseBody codecs (k.options options) response headerEnd rest := by
  unfold parseBody parseTransferBody parseSizedBody parseUnframedBody
  simp only [Capacities.options_trailers, Capacities.options_buffers, Capacities.options_closed,
    Capacities.options_forbidden]
  by_cases hforbidden : options.responseBodyForbidden = true ∨
      statusCodeHasNoBody response.statusLine.statusCode = true
  · simp only [hforbidden, if_true]
    exact .const _
  simp only [hforbidden, if_false]
  refine (Sized.const _).bind fun info => ?_
  refine Sized.ite (fun _ => .const _) fun _ => ?_
  refine (Sized.const _).bind fun contentLength => ?_
  by_cases he : info.hasTransferEncoding = true
  · simp only [he, if_true]
    refine Sized.ite (fun _ => .const _) fun _ => ?_
    exact (decodeResponseBody_stores hcodecs info _ _ rest).bind
      fun decoded => applyContentEncoding_stores hcodecs options
        { response with
          bodyKind := decoded.bodyKind
          trailerCount := if options.trailers.present then decoded.trailerCount else 0
          trailers := decoded.trailers
          bodyEndsOnConnectionClose :=
            !info.finalCodingIsChunked && options.messageCompleteOnConnectionClose
          bytesConsumed := headerEnd + decoded.bytesConsumed } _
  · simp only [he, Bool.false_eq_true, if_false]
    cases contentLength with
    | some contentLength =>
      exact Sized.ite (fun _ => .const _) fun _ => applyContentEncoding_stores hcodecs options _ _
    | none =>
      by_cases hclosed : options.messageCompleteOnConnectionClose = true
      · simp only [hclosed, if_true]
        exact applyContentEncoding_stores hcodecs options _ _
      · simp only [hclosed, Bool.false_eq_true, if_false]
        exact .const _

/-- **What a response needs**: parsed with some capacities, and decoded whatever the lengths, it
has a list of results that says how parsing ends for all capacities. -/
theorem parseResponse_sized (data : Bytes) :
    StoresChecked (fun k => @parseResponse anyDecodedSize codecs (k.options options) data)
      fun k => parseResponse codecs (k.options options) data :=
  (Sized.const (parseHead options data)).bind fun r => parseBody_stores hcodecs options r.1 r.2 _

end

/-! ## The end of the connection -/

def HttpParseOptions.atClose (o : HttpParseOptions) (closed : Bool) : HttpParseOptions :=
  { o with messageCompleteOnConnectionClose := closed }

section

variable {codecs : ExternalCodecs} {o : HttpParseOptions} {response r : HttpResponse}
  {headerEnd : ℕ} {rest data : Bytes} {k k' : Capacities}

theorem parseBody_framed {_ : DecodedSizeCheck}
    (h : parseBody codecs (k.options (o.atClose true)) response headerEnd rest = .ok r)
    (hends : r.bodyEndsOnConnectionClose = false) :
    parseBody codecs (k.options (o.atClose false)) response headerEnd rest = .ok r := by
  unfold parseBody at h ⊢
  split at h
  · next hf => exact (if_pos hf).trans h
  next hf =>
  refine (if_neg hf).trans ?_
  obtain ⟨info, hi, h⟩ := bind_eq_ok h
  rw [bind_of_ok hi]
  split at h
  · cases h
  next hversion =>
  rw [if_neg hversion]
  obtain ⟨contentLength, hc, h⟩ := bind_eq_ok h
  rw [bind_of_ok hc]
  by_cases he : info.hasTransferEncoding = true
  · rw [if_pos he] at h ⊢
    split at h
    · cases h
    next hsome =>
    rw [if_neg hsome]
    unfold parseTransferBody at h ⊢
    obtain ⟨decoded, hd, h⟩ := bind_eq_ok h
    have hfinal : info.finalCodingIsChunked = true := by
      rw [applyContentEncoding_bodyEnds h] at hends
      simpa [HttpParseOptions.atClose] using hends
    rw [bind_of_ok (a := decoded) ?_]
    · rw [hfinal] at h ⊢
      exact h
    · rw [← hd]
      simp only [decodeResponseBody, hfinal, not_true_eq_false, false_and, if_false]
      rfl
  · rw [if_neg he] at h ⊢
    cases contentLength with
    | some contentLength => exact h
    | none =>
      simp only [parseUnframedBody, HttpParseOptions.atClose, Capacities.options_closed, if_true]
        at h
      rw [applyContentEncoding_bodyEnds h] at hends
      cases hends

theorem parseBody_unframed {check check' : DecodedSizeCheck}
    (h : @parseBody check codecs (k.options (o.atClose true)) response headerEnd rest = .ok r)
    (hresponse : response.bodyEndsOnConnectionClose = false)
    (hends : r.bodyEndsOnConnectionClose = true) :
    @parseBody check' codecs (k'.options (o.atClose false)) response headerEnd rest =
      .error statusMoreProcessingRequired := by
  unfold parseBody at h ⊢
  split at h
  · obtain rfl := Except.ok.inj h
    rw [show _ = false from hresponse] at hends
    cases hends
  next hf =>
  refine (if_neg hf).trans ?_
  obtain ⟨info, hi, h⟩ := bind_eq_ok h
  rw [bind_of_ok hi]
  split at h
  · cases h
  next hversion =>
  rw [if_neg hversion]
  obtain ⟨contentLength, hc, h⟩ := bind_eq_ok h
  rw [bind_of_ok hc]
  by_cases he : info.hasTransferEncoding = true
  · rw [if_pos he] at h ⊢
    split at h
    · cases h
    next hsome =>
    rw [if_neg hsome]
    unfold parseTransferBody at h ⊢
    obtain ⟨decoded, hd, h⟩ := bind_eq_ok h
    have hfinal : info.finalCodingIsChunked = false := by
      rw [applyContentEncoding_bodyEnds h] at hends
      simpa [HttpParseOptions.atClose] using hends
    have hcodings := (HttpTransferCodingInfo.parse_valid hi he).nonempty
    simp [decodeResponseBody, HttpParseOptions.atClose, he, hcodings, hfinal]
    rfl
  · rw [if_neg he] at h ⊢
    cases contentLength with
    | some contentLength =>
      dsimp only at h
      unfold parseSizedBody at h
      split at h
      · cases h
      rw [applyContentEncoding_bodyEnds h, show _ = false from hresponse] at hends
      cases hends
    | none => rfl

theorem parseResponse_framed {_ : DecodedSizeCheck}
    (h : parseResponse codecs (k.options (o.atClose true)) data = .ok r)
    (hends : r.bodyEndsOnConnectionClose = false) :
    parseResponse codecs (k.options (o.atClose false)) data = .ok r := by
  obtain ⟨⟨response, headerEnd⟩, hh, h⟩ := bind_eq_ok h
  exact (bind_of_ok hh _).trans (parseBody_framed h hends)

theorem parseResponse_unframed {check check' : DecodedSizeCheck}
    (h : @parseResponse check codecs (k.options (o.atClose true)) data = .ok r)
    (hends : r.bodyEndsOnConnectionClose = true) :
    @parseResponse check' codecs (k'.options (o.atClose false)) data =
      .error statusMoreProcessingRequired := by
  obtain ⟨⟨response, headerEnd⟩, hh, h⟩ := bind_eq_ok h
  exact (bind_of_ok hh _).trans (parseBody_unframed h (parseHead_bodyEnds hh) hends)

theorem parseResponse_consumed_pos (h : parseResponse codecs o data = .ok r) :
    0 < r.bytesConsumed := by
  obtain ⟨⟨response, headerEnd⟩, hh, h⟩ := bind_eq_ok h
  have hend := (findHeaderEnd_spec (parseHead_eq_ok hh).1).1
  have hconsumed := (parseBody_behindHead h).consumed
  dsimp only at hend
  omega

end

end KernelHttp.Http1
