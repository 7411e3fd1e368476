/-
  A chain of codings is undone coding by coding.
-/
import KernelHttp.Http1.Results

namespace KernelHttp.Http1

open Incremental

/-! ## Single decoders -/

/-- A coding that is undone: the chunked coding, with the trailers if it is the outermost, or
    another one. -/
inductive CodingStage where
  | chunked (outermost : Bool)
  | coding (coding : HttpCoding)
deriving DecidableEq

/-- The coding changes the body. -/
def CodingStage.transforms (stage : CodingStage) : Bool := stage != .coding .identity

section Decoders

variable (codecs : ExternalCodecs) (allowed : ℕ → ℕ → Bool) (trailerTarget : OutBuffer)

/-- What a decoder makes of its input when it has room; a coding other than the chunked one may
    be refused for the length of its result. -/
def Undoes : CodingStage → Bytes → Bytes → Prop
  | .chunked outermost, s, t => ∃ capacity r,
      decodeChunkedBodyWithTrailers s ⟨true, capacity⟩ (if outermost then trailerTarget else {}) =
        .ok r ∧ r.body = t ∧ (outermost = false → r.bytesConsumed = s.length)
  | .coding c, s, t => (∃ capacity, decodeOne codecs c ⟨.wire, s⟩ ⟨true, capacity⟩ = .ok t) ∧
      (c = .identity ∨ allowed s.length t.length = true)

def Composed : List CodingStage → Bytes → Bytes → Prop
  | [], s, u => s = u
  | stage :: stages, s, u => ∃ t, Undoes codecs allowed trailerTarget stage s t ∧ Composed stages t u

/-- A buffer that is there takes `n` octets. -/
def HttpCodingDecodeBuffers.HasRoom (buffers : HttpCodingDecodeBuffers) (n : ℕ) : Prop :=
  (buffers.decodedBody.present = true → n ≤ buffers.decodedBody.capacity) ∧
    (buffers.scratchBody.present = true → n ≤ buffers.scratchBody.capacity)

/-- The buffers take every result, and no result on the way is empty. -/
def Roomy (buffers : HttpCodingDecodeBuffers) : List CodingStage → Bytes → Prop
  | [], _ => True
  | stage :: stages, s => ∀ t, Undoes codecs allowed trailerTarget stage s t →
      buffers.HasRoom t.length ∧ (stages ≠ [] → t ≠ []) ∧ Roomy buffers stages t

end Decoders

/-- There is a buffer to write to for `n` more codings. -/
def HttpCodingDecodeBuffers.Serve (buffers : HttpCodingDecodeBuffers) (current : BodyLocation)
    (n : ℕ) : Prop :=
  (buffers.decodedBody.present = true ∧ buffers.scratchBody.present = true) ∨ n = 0 ∨
    (n = 1 ∧ current = .wire ∧
      (buffers.decodedBody.present = true ∨ buffers.scratchBody.present = true))

/-- The capacities are in the range of `ULONG`. -/
def HttpCodingDecodeBuffers.FitUlong (buffers : HttpCodingDecodeBuffers) : Prop :=
  sizeFitsUlong buffers.decodedBody.capacity = true ∧
    sizeFitsUlong buffers.scratchBody.capacity = true

section Room

variable {codecs : ExternalCodecs} {buffers : HttpCodingDecodeBuffers} {current : BodyLocation}

/-- The buffer that is written to is another one than the body is in. -/
theorem selectDestination_ne (h : current ≠ .null) :
    (selectDestination current buffers).1 ≠ current := by
  rw [selectDestination]
  split_ifs with h1 h2
  · exact h1.2.symm
  · exact h2.2.symm
  · exact h.symm

variable {s t t' : Bytes} {c : HttpCoding} {trailerTarget : OutBuffer} {n capacity capacity' : ℕ}

theorem selectDestination_serves (h : buffers.Serve current (n + 1)) :
    (selectDestination current buffers).2.present = true ∧
      (selectDestination current buffers).1 ≠ .null ∧
      (∀ m, buffers.HasRoom m → m ≤ (selectDestination current buffers).2.capacity) ∧
      (buffers.FitUlong →
        sizeFitsUlong (selectDestination current buffers).2.capacity = true) := by
  rw [selectDestination]
  split_ifs with h1 h2
  · exact ⟨h1.1, nofun, fun m hm => hm.1 h1.1, fun hf => hf.1⟩
  · exact ⟨h2.1, nofun, fun m hm => hm.2 h2.1, fun hf => hf.2⟩
  · -- neither buffer is there, or the body is in the only one
    rcases h with ⟨hd, hs⟩ | h | ⟨-, rfl, hd | hs⟩
    · by_cases hc : current = .decodedBody
      · exact absurd ⟨hs, by rw [hc]; decide⟩ h2
      · exact absurd ⟨hd, hc⟩ h1
    · omega
    · exact absurd ⟨hd, by decide⟩ h1
    · exact absurd ⟨hs, by decide⟩ h2

theorem HttpCodingDecodeBuffers.Serve.step (h : buffers.Serve current (n + 1))
    (location : BodyLocation) : buffers.Serve location n := by
  rcases h with h | h | ⟨h, -⟩
  · exact .inl h
  · omega
  · exact .inr (.inl (by omega))

theorem decodeRawDeflate_rtl (h : decodeRawDeflate codecs s capacity = .ok t) :
    codecs.rtlDecompressBufferEx s capacity = .ok t := by
  rw [decodeRawDeflate] at h
  split_ifs at h
  cases hrtl : codecs.rtlDecompressBufferEx s capacity with
  | ok decoded =>
    rw [hrtl] at h
    exact h
  | error status =>
    rw [hrtl] at h
    dsimp only at h
    split_ifs at h

theorem decodeRawDeflate_room (hcodecs : codecs.NeedLength)
    (h : decodeRawDeflate codecs s capacity = .ok t) (hle : t.length ≤ capacity')
    (hfits : sizeFitsUlong capacity' = true) : decodeRawDeflate codecs s capacity' = .ok t := by
  have hout := decodeRawDeflate_rtl h
  rw [decodeRawDeflate] at h ⊢
  split_ifs at h with havailable hulong
  rw [not_or, not_not, not_not] at hulong
  rw [if_neg (not_not.2 havailable), if_neg (by simp [hulong.1, hfits]),
    hcodecs.inflate s capacity t hout capacity', if_pos hle]

theorem decodeOne_room (hcodecs : codecs.NeedLength)
    (h : decodeOne codecs c ⟨.wire, s⟩ ⟨true, capacity⟩ = .ok t) (hle : t.length ≤ capacity')
    (hfits : sizeFitsUlong capacity' = true) :
    decodeOne codecs c ⟨.wire, s⟩ ⟨true, capacity'⟩ = .ok t := by
  have hnull : ¬ (BodyLocation.wire = .null ∧ (s ≠ [] ∨ c ≠ .identity)) := fun h => nomatch h.1
  unfold decodeOne at h ⊢
  rw [if_neg hnull] at h ⊢
  cases c with
  | identity => exact h
  | brotli =>
    have := hcodecs.brotli s capacity t h capacity'
    rwa [if_pos hle] at this
  | compress =>
    have := decodeCompress_needsLength s capacity t h capacity'
    rwa [if_pos hle] at this
  | deflate =>
    simp only [decodeDeflate] at h ⊢
    split_ifs at h ⊢
    · obtain ⟨decoded, hdecoded, h⟩ := bind_eq_ok h
      split_ifs at h with hsum
      obtain rfl := Except.ok.inj h
      rw [bind_of_ok (decodeRawDeflate_room hcodecs hdecoded hle hfits), if_pos hsum]
    · exact decodeRawDeflate_room hcodecs h hle hfits
  | gzip =>
    simp only [decodeGzip] at h ⊢
    split at h
    · cases h
    · split_ifs at h ⊢
      obtain ⟨decoded, hdecoded, h⟩ := bind_eq_ok h
      split_ifs at h with hsum
      obtain rfl := Except.ok.inj h
      rw [bind_of_ok (decodeRawDeflate_room hcodecs hdecoded hle hfits), if_neg hsum]

theorem decodeOne_location (h : current ≠ .null) (destination : OutBuffer) :
    decodeOne codecs c ⟨current, s⟩ destination = decodeOne codecs c ⟨.wire, s⟩ destination := by
  have hwire : ¬ (BodyLocation.wire = .null ∧ (s ≠ [] ∨ c ≠ .identity)) := fun hc => nomatch hc.1
  unfold decodeOne
  rw [if_neg fun hc => h hc.1, if_neg hwire]

theorem decodeChunked_room {r : ChunkedResult}
    (h : decodeChunkedBodyWithTrailers s ⟨true, capacity⟩ trailerTarget = .ok r)
    (hle : r.body.length ≤ capacity') :
    decodeChunkedBodyWithTrailers s ⟨true, capacity'⟩ trailerTarget = .ok r := by
  simp only [decodeChunkedBodyWithTrailers] at h ⊢
  by_cases hnull : trailerTarget.present = false ∧ trailerTarget.capacity ≠ 0
  · rw [if_pos (.inr hnull)] at h
    cases h
  rw [if_neg fun hor => hor.elim (fun hf => Bool.false_ne_true hf.1.symm) hnull] at h ⊢
  have := (chunkLoop_needs _ _ le_rfl _ _ _ r h (Nat.zero_le _)).2 capacity' (Nat.zero_le _)
  rwa [if_pos hle] at this

theorem NeedsLength.unique {f : ℕ → Except NTSTATUS Bytes} (hf : NeedsLength f)
    (h : f capacity = .ok t) (h' : f capacity' = .ok t') :
    t = t' := by
  have := hf capacity t h capacity'
  rw [h'] at this
  split_ifs at this
  exact (Except.ok.inj this).symm

theorem decodeRawDeflate_unique (hcodecs : codecs.NeedLength)
    (h : decodeRawDeflate codecs s capacity = .ok t)
    (h' : decodeRawDeflate codecs s capacity' = .ok t') : t = t' :=
  (hcodecs.inflate s).unique (decodeRawDeflate_rtl h) (decodeRawDeflate_rtl h')

theorem decodeOne_unique (hcodecs : codecs.NeedLength)
    (h : decodeOne codecs c ⟨.wire, s⟩ ⟨true, capacity⟩ = .ok t)
    (h' : decodeOne codecs c ⟨.wire, s⟩ ⟨true, capacity'⟩ = .ok t') : t = t' := by
  have hnull : ¬ (BodyLocation.wire = .null ∧ (s ≠ [] ∨ c ≠ .identity)) := fun h => nomatch h.1
  unfold decodeOne at h h'
  rw [if_neg hnull] at h h'
  cases c with
  | identity => exact Except.ok.inj (h.symm.trans h')
  | brotli => exact (hcodecs.brotli s).unique h h'
  | compress => exact (decodeCompress_needsLength s).unique h h'
  | deflate =>
    simp only [decodeDeflate] at h h'
    split_ifs at h h'
    · obtain ⟨decoded, hdecoded, h⟩ := bind_eq_ok h
      obtain ⟨decoded', hdecoded', h'⟩ := bind_eq_ok h'
      split_ifs at h h'
      rw [← Except.ok.inj h, ← Except.ok.inj h']
      exact decodeRawDeflate_unique hcodecs hdecoded hdecoded'
    · exact decodeRawDeflate_unique hcodecs h h'
  | gzip =>
    simp only [decodeGzip] at h h'
    cases hheader : skipGzipHeader s with
    | none =>
      rw [hheader] at h
      cases h
    | some rest =>
      rw [hheader] at h h'
      dsimp only at h h'
      split_ifs at h h'
      obtain ⟨decoded, hdecoded, h⟩ := bind_eq_ok h
      obtain ⟨decoded', hdecoded', h'⟩ := bind_eq_ok h'
      split_ifs at h h'
      rw [← Except.ok.inj h, ← Except.ok.inj h']
      exact decodeRawDeflate_unique hcodecs hdecoded hdecoded'

/-- A single decoder is a function. -/
theorem Undoes.unique (hcodecs : codecs.NeedLength) {allowed : ℕ → ℕ → Bool} {stage : CodingStage}
    (h : Undoes codecs allowed trailerTarget stage s t)
    (h' : Undoes codecs allowed trailerTarget stage s t') : t = t' := by
  cases stage with
  | chunked outermost =>
    obtain ⟨capacity, r, hr, rfl, -⟩ := h
    obtain ⟨capacity', r', hr', rfl, -⟩ := h'
    have := (decodeChunked_room hr (le_max_left _ r'.body.length)).symm.trans
      (decodeChunked_room hr' (le_max_right _ _))
    rw [Except.ok.inj this]
  | coding c =>
    obtain ⟨⟨capacity, h⟩, -⟩ := h
    obtain ⟨⟨capacity', h'⟩, -⟩ := h'
    exact decodeOne_unique hcodecs h h'

end Room

/-! ## Steps -/

section Steps

variable {codecs : ExternalCodecs} {allowed : ℕ → ℕ → Bool} {trailerTarget : OutBuffer}
  {buffers : HttpCodingDecodeBuffers} {S : Type} {view : S → Body × Bool}

def transforming (stages : List CodingStage) : ℕ := stages.countP CodingStage.transforms

/-- The body of `st'` is that of `st` with codings undone; it stays where it is if they do not
    change it. -/
structure Undone (stages : List CodingStage) (t : Bytes) (st st' : Body × Bool) : Prop where
  body : ∃ location, st'.1 = Body.orNull ⟨location, t⟩ ∧ location ≠ .null ∧
    (transforming stages = 0 → location = st.1.location)
  transformed : st'.2 = (st.2 || decide (transforming stages ≠ 0))

/-- A step undoes one coding, if there is a buffer for its result. -/
def StepSpec (codecs : ExternalCodecs) (allowed : ℕ → ℕ → Bool) (trailerTarget : OutBuffer)
    (buffers : HttpCodingDecodeBuffers) (view : S → Body × Bool)
    (step : S → Except NTSTATUS S) (stage : CodingStage) : Prop :=
  ∀ {st : S} {location : BodyLocation} {s : Bytes} {transformed : Bool},
    view st = (⟨location, s⟩, transformed) → location ≠ .null → s ≠ [] →
    (stage.transforms = true → ∃ n, buffers.Serve location (n + 1)) →
    (∀ t, Undoes codecs allowed trailerTarget stage s t → buffers.HasRoom t.length) →
    (∀ t, Undoes codecs allowed trailerTarget stage s t →
      ∃ st', step st = .ok st' ∧ Undone [stage] t (view st) (view st')) ∧
    ∀ st', step st = .ok st' → Undoes codecs allowed trailerTarget stage s (view st').1.octets

theorem orNull_octets (b : Body) : b.orNull.octets = b.octets := by
  rw [Body.orNull]
  split_ifs with h
  · exact h.symm
  · rfl

variable {t : Bytes}

theorem orNull_of_ne {location : BodyLocation} (h : t ≠ []) :
    Body.orNull ⟨location, t⟩ = ⟨location, t⟩ := if_neg h

theorem transforming_cons (stage : CodingStage) (stages : List CodingStage) :
    transforming (stage :: stages) =
      transforming stages + if stage.transforms = true then 1 else 0 :=
  List.countP_cons

theorem Undone.trans {stage : CodingStage} {stages : List CodingStage} {u : Bytes}
    {st st₁ st₂ : Body × Bool} (h : Undone [stage] t st st₁) (h' : Undone stages u st₁ st₂)
    (ht : t ≠ []) : Undone (stage :: stages) u st st₂ := by
  obtain ⟨location, hbody, hne, hstay⟩ := h.body
  obtain ⟨location', hbody', hne', hstay'⟩ := h'.body
  have hone : transforming [stage] = if stage.transforms = true then 1 else 0 := by
    rw [transforming_cons]
    exact Nat.zero_add _
  refine ⟨⟨location', hbody', hne', fun h0 => ?_⟩, ?_⟩
  · rw [transforming_cons] at h0
    rw [hstay' (by omega), hbody, orNull_of_ne ht, hstay (by omega)]
  · rw [h'.transformed, h.transformed, Bool.or_assoc, hone, transforming_cons]
    congr 1
    by_cases hs : stage.transforms = true
    · simp [hs]
    · simp [hs]

/-- **Steps in a row undo the codings in a row.** -/
theorem foldlM_steps {α : Type} {step : α → S → Except NTSTATUS S} {stage : α → CodingStage}
    (hspec : ∀ a, StepSpec codecs allowed trailerTarget buffers view (step a) (stage a))
    (as : List α) : ∀ {st : S} {location : BodyLocation} {s : Bytes} {transformed : Bool},
    view st = (⟨location, s⟩, transformed) → location ≠ .null → s ≠ [] →
    buffers.Serve location (transforming (as.map stage)) →
    Roomy codecs allowed trailerTarget buffers (as.map stage) s →
    (∀ u, Composed codecs allowed trailerTarget (as.map stage) s u →
      ∃ st', as.foldlM (fun st a => step a st) st = .ok st' ∧
        Undone (as.map stage) u (view st) (view st')) ∧
    ∀ st', as.foldlM (fun st a => step a st) st = .ok st' →
      Composed codecs allowed trailerTarget (as.map stage) s (view st').1.octets := by
  induction as with
  | nil =>
    intro st location s transformed hview hlocation hs _ _
    refine ⟨?_, ?_⟩
    · rintro u rfl
      refine ⟨st, rfl, ⟨location, ?_, hlocation, fun _ => by rw [hview]⟩, ?_⟩
      · rw [hview, orNull_of_ne hs]
      · simp [transforming]
    · intro st' h
      obtain rfl := Except.ok.inj h
      show s = _
      rw [hview]
  | cons a as ih =>
    intro st location s transformed hview hlocation hs hserve hroomy
    rw [List.map_cons] at hserve hroomy ⊢
    rw [transforming_cons] at hserve
    have hbuffer : (stage a).transforms = true → ∃ n, buffers.Serve location (n + 1) :=
      fun ha => ⟨transforming (as.map stage), by rwa [if_pos ha] at hserve⟩
    obtain ⟨hok, hsound⟩ := hspec a hview hlocation hs hbuffer fun t ht => (hroomy t ht).1
    -- behind the first coding, what is left is served as well
    have hrest : ∀ {t : Bytes} {st₁ : S}, Undone [stage a] t (view st) (view st₁) → t ≠ [] →
        ∃ location₁ transformed₁, view st₁ = (⟨location₁, t⟩, transformed₁) ∧ location₁ ≠ .null ∧
          buffers.Serve location₁ (transforming (as.map stage)) := by
      intro t st₁ hundone ht
      obtain ⟨location₁, hbody, hne, hstay⟩ := hundone.body
      rw [orNull_of_ne ht] at hbody
      refine ⟨location₁, (view st₁).2, by rw [← hbody], hne, ?_⟩
      by_cases ha : (stage a).transforms = true
      · rw [if_pos ha] at hserve
        exact hserve.step location₁
      · rw [if_neg ha, Nat.add_zero] at hserve
        have hzero : transforming [stage a] = 0 := by
          rw [transforming_cons, if_neg ha]
          rfl
        rw [hstay hzero, hview]
        exact hserve
    refine ⟨?_, ?_⟩
    · rintro u ⟨t, ht, hu⟩
      obtain ⟨st₁, hstep, hundone⟩ := hok t ht
      obtain ⟨-, hne, hroom⟩ := hroomy t ht
      rcases as with _ | ⟨b, as⟩
      · obtain rfl : t = u := hu
        exact ⟨st₁, by rw [List.foldlM_cons, bind_of_ok hstep]; rfl, hundone⟩
      · have ht' : t ≠ [] := hne (List.cons_ne_nil _ _)
        obtain ⟨location₁, transformed₁, hview₁, hlocation₁, hserve₁⟩ := hrest hundone ht'
        obtain ⟨st₂, hfold, hundone₂⟩ := (ih hview₁ hlocation₁ ht' hserve₁ hroom).1 u hu
        exact ⟨st₂, by rw [List.foldlM_cons, bind_of_ok hstep, hfold], hundone.trans hundone₂ ht'⟩
    · intro st₂ h
      rw [List.foldlM_cons] at h
      obtain ⟨st₁, hstep, h⟩ := bind_eq_ok h
      have hundoes := hsound st₁ hstep
      obtain ⟨st₁', hstep', hundone⟩ := hok _ hundoes
      rw [hstep] at hstep'
      obtain rfl := Except.ok.inj hstep'
      obtain ⟨-, hne, hroom⟩ := hroomy _ hundoes
      refine ⟨_, hundoes, ?_⟩
      rcases as with _ | ⟨b, as⟩
      · obtain rfl := Except.ok.inj h
        rfl
      · have ht' := hne (List.cons_ne_nil _ _)
        obtain ⟨location₁, transformed₁, hview₁, hlocation₁, hserve₁⟩ := hrest hundone ht'
        exact (ih hview₁ hlocation₁ ht' hserve₁ hroom).2 st₂ h

end Steps

/-! ## Codings other than the chunked one -/

section Codings

variable {codecs : ExternalCodecs} {trailerTarget : OutBuffer} {buffers : HttpCodingDecodeBuffers}

variable {location : BodyLocation} {s t : Bytes} {stages : List CodingStage}
    {codings : List HttpCoding}

theorem undoes_identity {allowed : ℕ → ℕ → Bool} :
    Undoes codecs allowed trailerTarget (.coding .identity) s t ↔ s = t := by
  have hone : ∀ capacity, decodeOne codecs .identity ⟨.wire, s⟩ ⟨true, capacity⟩ = .ok s := by
    intro capacity
    unfold decodeOne
    exact if_neg fun h => nomatch h.1
  constructor
  · rintro ⟨⟨capacity, h⟩, -⟩
    exact Except.ok.inj ((hone capacity).symm.trans h)
  · rintro rfl
    exact ⟨⟨0, hone 0⟩, .inl rfl⟩

theorem transforming_coding {c : HttpCoding} (h : c ≠ .identity) :
    transforming [.coding c] = 1 := by
  rw [transforming_cons, CodingStage.transforms, if_pos (by simpa using h)]
  rfl

theorem chainStep_spec (hcodecs : codecs.NeedLength) (hfits : buffers.FitUlong) (c : HttpCoding) :
    StepSpec codecs isDecodedSizeAllowed trailerTarget buffers id (chainStep codecs buffers c)
      (.coding c) := by
  rintro st location s transformed rfl hlocation hs hserve hroom
  by_cases hc : c = .identity
  · subst hc
    have hstep : chainStep codecs buffers .identity (⟨location, s⟩, transformed) =
        .ok (⟨location, s⟩, transformed) := if_pos rfl
    refine ⟨fun t ht => ⟨_, hstep, ?_⟩, fun st' h => ?_⟩
    · obtain rfl := undoes_identity.1 ht
      exact ⟨⟨location, (orNull_of_ne hs).symm, hlocation, fun _ => rfl⟩, (Bool.or_false _).symm⟩
    · rw [hstep] at h
      obtain rfl := Except.ok.inj h
      exact undoes_identity.2 rfl
  obtain ⟨n, hn⟩ := hserve (by simpa [CodingStage.transforms] using hc)
  obtain ⟨hpresent, hnull, hcapacity, hulong⟩ := selectDestination_serves hn
  -- the destination is a buffer that is there
  have hdest : (selectDestination location buffers).2 =
      ⟨true, (selectDestination location buffers).2.capacity⟩ := by
    rw [← hpresent]
  have hone : transforming [.coding c] ≠ 0 := by rw [transforming_coding hc]; exact one_ne_zero
  refine ⟨fun t ht => ?_, fun st' h => ?_⟩
  · obtain ⟨⟨capacity, h⟩, hallowed⟩ := id ht
    have h' := decodeOne_room hcodecs h (hcapacity _ (hroom t ht)) (hulong hfits)
    refine ⟨(Body.orNull ⟨(selectDestination location buffers).1, t⟩, true), ?_,
      ⟨_, rfl, hnull, fun h0 => absurd h0 hone⟩, ?_⟩
    · rw [chainStep, if_neg hc]
      dsimp only
      rw [decodeOne_location hlocation, hdest, h']
      exact if_neg (not_not.2 (hallowed.resolve_left hc))
    · simp [hone]
  · rw [chainStep, if_neg hc] at h
    dsimp only at h
    rw [decodeOne_location hlocation, hdest] at h
    split at h
    · cases h
    · rename_i decoded hdecoded
      split_ifs at h with hallowed
      obtain rfl := Except.ok.inj h
      have hoctets : (Body.orNull ⟨(selectDestination location buffers).1, decoded⟩).octets =
        decoded := orNull_octets _
      show Undoes _ _ _ _ _ (Body.octets (Body.orNull _))
      rw [hoctets]
      exact ⟨⟨_, hdecoded⟩, .inr hallowed⟩

theorem moveToDecodedBody_room (transformed : Bool)
    (hroom : buffers.HasRoom t.length) (hlocation : location ≠ .null) :
    ∃ location', moveToDecodedBody buffers (Body.orNull ⟨location, t⟩) transformed =
        .ok (Body.orNull ⟨location', t⟩) ∧ location' ≠ .null ∧
      (transformed = false → location' = location) ∧
      (transformed = true → buffers.decodedBody.present = true → location' = .decodedBody) := by
  by_cases ht : t = []
  · subst ht
    have hmove : ∀ location', moveToDecodedBody buffers (Body.orNull ⟨location, []⟩) transformed =
        .ok (Body.orNull ⟨location', []⟩) := fun location' => if_neg fun h => h.2.1 rfl
    by_cases h : transformed = true ∧ buffers.decodedBody.present = true
    · exact ⟨.decodedBody, hmove _, nofun, fun hf => absurd (h.1.symm.trans hf) nofun,
        fun _ _ => rfl⟩
    · exact ⟨location, hmove _, hlocation, fun _ => rfl, fun h1 h2 => absurd ⟨h1, h2⟩ h⟩
  · rw [orNull_of_ne ht, moveToDecodedBody]
    split_ifs with hmoved hlong
    · exact absurd (hroom.1 hmoved.2.2.1) (Nat.not_le.2 hlong)
    · exact ⟨.decodedBody, by rw [orNull_of_ne ht], nofun,
        fun hf => absurd (hmoved.1.symm.trans hf) nofun, fun _ _ => rfl⟩
    · refine ⟨location, by rw [orNull_of_ne ht], hlocation, fun _ => rfl, fun h1 h2 => ?_⟩
      by_contra hne
      exact hmoved ⟨h1, ht, h2, hne⟩

theorem moveToDecodedBody_octets {current b : Body} {transformed : Bool}
    (h : moveToDecodedBody buffers current transformed = .ok b) : b.octets = current.octets := by
  rw [moveToDecodedBody] at h
  split_ifs at h
  all_goals
    obtain rfl := Except.ok.inj h
    rfl

/-- A body that is changed is in `DecodedBody`, if there is one. -/
structure Delivered (buffers : HttpCodingDecodeBuffers) (stages : List CodingStage) (u : Bytes)
    (st st' : Body × Bool) : Prop extends Undone stages u st st' where
  moved : transforming stages ≠ 0 → buffers.decodedBody.present = true → u ≠ [] →
    st'.1.location = .decodedBody

theorem orNull_orNull (b : Body) : b.orNull.orNull = b.orNull := by
  by_cases h : b.octets = []
  · have hb : b.orNull = ⟨.null, []⟩ := if_pos h
    rw [hb]
    rfl
  · have hb : b.orNull = b := if_neg h
    rw [hb, hb]

/-- The copy behind a chain whose codings are undone. -/
theorem Undone.moved {u : Bytes}
    {st' : Body × Bool} (h : Undone stages u (⟨location, s⟩, false) st')
    (hroom : transforming stages ≠ 0 → buffers.HasRoom u.length) :
    ∃ b, moveToDecodedBody buffers st'.1 st'.2 = .ok b ∧
      Delivered buffers stages u (⟨location, s⟩, false) (b.orNull, st'.2) := by
  obtain ⟨location₁, hbody, hne, hstay⟩ := h.body
  have htransformed : st'.2 = decide (transforming stages ≠ 0) :=
    h.transformed.trans (Bool.false_or _)
  by_cases h0 : transforming stages = 0
  · have hfalse : st'.2 = false := by rw [htransformed]; simp [h0]
    refine ⟨st'.1, ?_, ⟨⟨⟨location₁, ?_, hne, hstay⟩, h.transformed⟩, fun hn => absurd h0 hn⟩⟩
    · rw [hfalse]
      exact if_neg fun hc => nomatch hc.1
    · rw [hbody, orNull_orNull]
  · obtain ⟨location₂, hmove, hne₂, -, hmoved⟩ :=
      moveToDecodedBody_room st'.2 (hroom h0) hne
    refine ⟨Body.orNull ⟨location₂, u⟩, by rw [hbody, hmove],
      ⟨⟨⟨location₂, orNull_orNull _, hne₂, fun hz => absurd hz h0⟩, h.transformed⟩,
        fun _ hpresent hu => ?_⟩⟩
    rw [orNull_orNull, orNull_of_ne hu]
    exact hmoved (by rw [htransformed]; simpa using h0) hpresent

theorem Roomy.last {allowed : ℕ → ℕ → Bool} : ∀ {stages : List CodingStage} {s u : Bytes},
    Roomy codecs allowed trailerTarget buffers stages s →
    Composed codecs allowed trailerTarget stages s u → stages ≠ [] → buffers.HasRoom u.length
  | [], _, _, _, _, h => absurd rfl h
  | stage :: stages, s, u, hroomy, ⟨t, ht, hu⟩, _ => by
    obtain ⟨hroom, -, hroomy'⟩ := hroomy t ht
    rcases stages with _ | ⟨stage', stages⟩
    · obtain rfl : t = u := hu
      exact hroom
    · exact hroomy'.last hu (List.cons_ne_nil _ _)

theorem ne_nil_of_transforming (h : transforming stages ≠ 0) :
    stages ≠ [] := by
  rintro rfl
  exact h rfl

theorem decodeChainReverse_eq (hlocation : location ≠ .null) (hs : s ≠ []) :
    decodeChainReverse codecs codings ⟨location, s⟩ buffers =
      (codings.reverse.foldlM (fun acc coding => chainStep codecs buffers coding acc)
        ((⟨location, s⟩, false) : Body × Bool) >>= fun st =>
          moveToDecodedBody buffers st.1 st.2 >>= fun b => .ok (b.orNull, st.2)) := by
  rw [decodeChainReverse, if_neg fun h => hlocation h.1]
  by_cases hc : codings = []
  · subst hc
    rw [if_pos (.inl rfl)]
    have hmove : moveToDecodedBody buffers ⟨location, s⟩ false = .ok ⟨location, s⟩ :=
      if_neg fun h => nomatch h.1
    exact (bind_of_ok hmove fun b => .ok (b.orNull, false)).symm
  · rw [if_neg (not_or.2 ⟨hc, hs⟩)]
    rfl

/-- **`DecodeChainReverse` undoes the codings, the last one first.** -/
theorem decodeChainReverse_composed (hcodecs : codecs.NeedLength) (hfits : buffers.FitUlong)
    (hstages : codings.reverse.map CodingStage.coding = stages)
    (hlocation : location ≠ .null) (hs : s ≠ [])
    (hserve : buffers.Serve location (transforming stages))
    (hroomy : Roomy codecs isDecodedSizeAllowed trailerTarget buffers stages s) :
    (∀ u, Composed codecs isDecodedSizeAllowed trailerTarget stages s u →
      ∃ st', decodeChainReverse codecs codings ⟨location, s⟩ buffers = .ok st' ∧
        Delivered buffers stages u (⟨location, s⟩, false) st') ∧
    ∀ st', decodeChainReverse codecs codings ⟨location, s⟩ buffers = .ok st' →
      Composed codecs isDecodedSizeAllowed trailerTarget stages s st'.1.octets := by
  subst hstages
  have hview : id ((⟨location, s⟩, false) : Body × Bool) = (⟨location, s⟩, false) := rfl
  obtain ⟨hok, hsound⟩ := foldlM_steps (chainStep_spec hcodecs hfits) codings.reverse hview
    hlocation hs hserve hroomy
  rw [decodeChainReverse_eq hlocation hs]
  refine ⟨fun u hu => ?_, fun st' h => ?_⟩
  · obtain ⟨st₁, hfold, hundone⟩ := hok u hu
    obtain ⟨b, hmove, hdelivered⟩ :=
      hundone.moved fun hn => hroomy.last hu (ne_nil_of_transforming hn)
    exact ⟨_, by rw [bind_of_ok hfold]; exact bind_of_ok hmove _, hdelivered⟩
  · obtain ⟨st₁, hfold, h⟩ := bind_eq_ok h
    obtain ⟨b, hmove, h⟩ := bind_eq_ok h
    obtain rfl := Except.ok.inj h
    have hu := hsound st₁ hfold
    -- the copy does not change the octets
    rwa [orNull_octets, moveToDecodedBody_octets hmove]

end Codings

/-! ## Transfer codings -/

def CodingStage.ofTransfer (outermost : Bool) (coding : HttpTransferCodingKind) : CodingStage :=
  match transferCodingToHttpCoding coding with
  | none => .chunked outermost
  | some coding => .coding coding

/-- The body, and whether it is changed. -/
def TransferState.view (st : TransferState) : Body × Bool := (st.current, st.transformed)

section Transfer

variable {codecs : ExternalCodecs} {trailerTarget : OutBuffer} {buffers : HttpCodingDecodeBuffers}

theorem HttpCodingDecodeBuffers.Serve.one {current : BodyLocation} {n : ℕ}
    (h : buffers.Serve current (n + 1)) : buffers.Serve current 1 := by
  rcases h with h | h | ⟨-, h⟩
  · exact .inl h
  · omega
  · exact .inr (.inr ⟨rfl, h⟩)

theorem chunkedStep_spec (outermost : Bool) :
    StepSpec codecs isDecodedSizeAllowed trailerTarget buffers TransferState.view
      (chunkedStep buffers trailerTarget outermost) (.chunked outermost) := by
  rintro st location s transformed hview hlocation hs hserve hroom
  obtain ⟨⟨location', s'⟩, consumed, transformed', count, trailers⟩ := st
  obtain ⟨⟨rfl, rfl⟩, rfl⟩ : (location' = location ∧ s' = s) ∧ transformed' = transformed := by
    simpa [TransferState.view] using hview
  obtain ⟨n, hn⟩ := hserve (by simp [CodingStage.transforms])
  obtain ⟨hpresent, hnull, hcapacity, -⟩ := selectDestination_serves hn
  have hdest : (selectDestination location' buffers).2 =
      ⟨true, (selectDestination location' buffers).2.capacity⟩ := by
    rw [← hpresent]
  have hone : transforming [.chunked outermost] ≠ 0 := one_ne_zero
  refine ⟨fun t ht => ?_, fun st' h => ?_⟩
  · obtain ⟨capacity, r, h, rfl, hconsumed⟩ := id ht
    have h' := decodeChunked_room h (hcapacity _ (hroom _ ht))
    -- what the turn leaves, whatever is recorded beside the body
    have hundone : ∀ st' : TransferState,
        st'.current = Body.orNull ⟨(selectDestination location' buffers).1, r.body⟩ →
        st'.transformed = true →
        Undone [.chunked outermost] r.body (⟨location', s'⟩, transformed') st'.view :=
      fun st' hcurrent htransformed =>
        ⟨⟨_, hcurrent, hnull, fun h0 => absurd h0 hone⟩, by
          simp [TransferState.view, htransformed, hone]⟩
    rw [chunkedStep]
    dsimp only
    rw [if_neg hlocation, hdest, h']
    cases outermost with
    | true => exact ⟨_, rfl, hundone _ rfl rfl⟩
    | false => exact ⟨_, if_neg (not_not.2 (hconsumed rfl)), hundone _ rfl rfl⟩
  · rw [chunkedStep] at h
    dsimp only at h
    rw [if_neg hlocation, hdest] at h
    split at h
    · cases h
    · rename_i r hr
      have hbody : st'.view.1.octets = r.body ∧ (outermost = false → r.bytesConsumed = s'.length) := by
        split_ifs at h with hout hconsumed
        · obtain rfl := Except.ok.inj h
          exact ⟨orNull_octets _, fun hf => by cases hout.symm.trans hf⟩
        · obtain rfl := Except.ok.inj h
          exact ⟨orNull_octets _, fun _ => not_not.1 hconsumed⟩
      exact ⟨_, r, hr, hbody.1.symm, hbody.2⟩

theorem codingStep_spec (hcodecs : codecs.NeedLength) (hfits : buffers.FitUlong) {c : HttpCoding}
    (hc : c ≠ .identity) :
    StepSpec codecs isDecodedSizeAllowed trailerTarget buffers TransferState.view
      (codingStep codecs buffers c) (.coding c) := by
  rintro st location s transformed hview hlocation hs hserve hroom
  obtain ⟨⟨location', s'⟩, consumed, transformed', count, trailers⟩ := st
  obtain ⟨⟨rfl, rfl⟩, rfl⟩ : (location' = location ∧ s' = s) ∧ transformed' = transformed := by
    simpa [TransferState.view] using hview
  obtain ⟨n, hn⟩ := hserve (by simpa [CodingStage.transforms] using hc)
  have hone := transforming_coding hc
  have hstages : [c].reverse.map CodingStage.coding = [.coding c] := rfl
  obtain ⟨hok, hsound⟩ := decodeChainReverse_composed hcodecs hfits hstages hlocation hs
    (by rw [hone]; exact hn.one)
    fun t ht => ⟨hroom t ht, fun h => absurd rfl h, trivial⟩
  refine ⟨fun t ht => ?_, fun st' h => ?_⟩
  · obtain ⟨st₁, hchain, hdelivered⟩ := hok t ⟨t, ht, rfl⟩
    obtain ⟨location₁, hbody, hne, hstay⟩ := hdelivered.body
    refine ⟨⟨st₁.1.orNull, consumed, transformed' || st₁.2, count, trailers⟩, ?_,
      ⟨⟨location₁, ?_, hne, hstay⟩, ?_⟩⟩
    · exact bind_of_ok hchain _
    · show st₁.1.orNull = _
      rw [hbody, orNull_orNull]
    · show (transformed' || st₁.2) = (transformed' || _)
      rw [hdelivered.transformed]
      rfl
  · obtain ⟨st₁, hchain, h⟩ := bind_eq_ok h
    obtain rfl := Except.ok.inj h
    obtain ⟨t, ht, hu⟩ := hsound st₁ hchain
    obtain rfl : t = st₁.1.octets := hu
    show Undoes _ _ _ _ _ (Body.octets (Body.orNull _))
    rwa [orNull_octets]

theorem transferStep_spec (hcodecs : codecs.NeedLength) (hfits : buffers.FitUlong)
    (a : Bool × HttpTransferCodingKind) :
    StepSpec codecs isDecodedSizeAllowed trailerTarget buffers TransferState.view
      (transferStep codecs buffers trailerTarget a.1 a.2) (CodingStage.ofTransfer a.1 a.2) := by
  obtain ⟨outermost, coding⟩ := a
  cases coding with
  | chunked => exact chunkedStep_spec outermost
  | gzip => exact codingStep_spec (c := .gzip) hcodecs hfits nofun
  | deflate => exact codingStep_spec (c := .deflate) hcodecs hfits nofun
  | compress => exact codingStep_spec (c := .compress) hcodecs hfits nofun

def markOutermost : List HttpTransferCodingKind → List (Bool × HttpTransferCodingKind)
  | [] => []
  | outer :: inner => (true, outer) :: inner.map fun coding => (false, coding)

theorem transferLoop_eq (codings : List HttpTransferCodingKind) (st : TransferState) :
    transferLoop codecs buffers trailerTarget codings st =
      (markOutermost codings).foldlM
        (fun st a => transferStep codecs buffers trailerTarget a.1 a.2 st) st := by
  cases codings with
  | nil => rfl
  | cons outer inner =>
    simp only [markOutermost, List.foldlM_cons, List.foldlM_map]
    rfl

/-- The transfer codings of a message, the outermost one first. -/
def transferStages (codings : List HttpTransferCodingKind) : List CodingStage :=
  (markOutermost codings.reverse).map fun a => CodingStage.ofTransfer a.1 a.2

/-- What `HttpTransferCoding::Parse` says about a list of codings. -/
def HttpTransferCodingInfo.ofCodings (codings : List HttpTransferCodingKind) :
    HttpTransferCodingInfo :=
  ⟨codings, codings != [], codings.getLast? == some .chunked⟩

/-- The end of the body is known: a chunked coding is outermost, or the connection is closed. -/
def EndsBody (codings : List HttpTransferCodingKind) (closed : Bool) : Prop :=
  codings = [] ∨ codings.getLast? = some .chunked ∨ closed = true

/-- **`DecodeResponseBody` undoes the transfer codings, the last one first.** -/
theorem decodeResponseBody_composed (hcodecs : codecs.NeedLength) (hfits : buffers.FitUlong)
    {codings : List HttpTransferCodingKind} {closed : Bool} {wireBody : Bytes}
    (hend : EndsBody codings closed) (hs : wireBody ≠ [])
    (hserve : buffers.Serve .wire (transforming (transferStages codings)))
    (hroomy : Roomy codecs isDecodedSizeAllowed trailerTarget buffers (transferStages codings)
      wireBody) :
    (∀ t, Composed codecs isDecodedSizeAllowed trailerTarget (transferStages codings) wireBody t →
      ∃ r, decodeResponseBody codecs (.ofCodings codings) closed buffers trailerTarget wireBody =
          .ok r ∧
        ∃ transformed, Delivered buffers (transferStages codings) t (⟨.wire, wireBody⟩, false)
          (r.body, transformed)) ∧
    ∀ r, decodeResponseBody codecs (.ofCodings codings) closed buffers trailerTarget wireBody =
        .ok r →
      Composed codecs isDecodedSizeAllowed trailerTarget (transferStages codings) wireBody
        r.body.octets := by
  by_cases hcodings : codings = []
  · subst hcodings
    have hbody : decodeResponseBody codecs (.ofCodings []) closed buffers trailerTarget wireBody =
        .ok ⟨Body.orNull ⟨.wire, wireBody⟩, wireBody.length,
          if wireBody = [] then HttpBodyKind.none else HttpBodyKind.closeDelimited, 0, []⟩ := by
      rw [decodeResponseBody]
      exact if_pos (.inr rfl)
    refine ⟨fun t ht => ?_, fun r h => ?_⟩
    · obtain rfl : wireBody = t := ht
      exact ⟨_, hbody, false, ⟨⟨⟨.wire, rfl, fun h => (by cases h), fun _ => rfl⟩, rfl⟩, fun hn => absurd rfl hn⟩⟩
    · rw [hbody] at h
      obtain rfl := Except.ok.inj h
      exact (orNull_octets ⟨.wire, wireBody⟩).symm
  · have hinfo : ¬ (¬ (HttpTransferCodingInfo.ofCodings codings).hasTransferEncoding ∨
        (HttpTransferCodingInfo.ofCodings codings).codings = []) := by
      simp [HttpTransferCodingInfo.ofCodings, hcodings]
    have hclose : ¬ (¬ (HttpTransferCodingInfo.ofCodings codings).finalCodingIsChunked ∧
        ¬ closed = true) := by
      rintro ⟨hfinal, hclosed⟩
      rcases hend with h | h | h
      · exact hcodings h
      · exact hfinal (by simp [HttpTransferCodingInfo.ofCodings, h])
      · exact hclosed h
    obtain ⟨consumed, kind, hbody⟩ : ∃ consumed kind, decodeResponseBody codecs (.ofCodings codings)
        closed buffers trailerTarget wireBody = (transferLoop codecs buffers trailerTarget
          codings.reverse ⟨⟨.wire, wireBody⟩, consumed, false, 0, []⟩ >>=
            transferResult buffers kind) := by
      rw [decodeResponseBody, if_neg hinfo, if_neg hclose]
      exact ⟨_, _, rfl⟩
    have hview : TransferState.view ⟨⟨.wire, wireBody⟩, consumed, false, 0, []⟩ =
        (⟨.wire, wireBody⟩, false) := rfl
    obtain ⟨hok, hsound⟩ := foldlM_steps (transferStep_spec hcodecs hfits)
      (markOutermost codings.reverse) hview (fun h => by cases h) hs hserve hroomy
    rw [hbody, transferLoop_eq]
    refine ⟨fun t ht => ?_, fun r h => ?_⟩
    · obtain ⟨st₁, hfold, hundone⟩ := hok t ht
      obtain ⟨b, hmove, hdelivered⟩ :=
        hundone.moved fun hn => hroomy.last ht (ne_nil_of_transforming hn)
      refine ⟨⟨b.orNull, st₁.outerBytesConsumed, kind, st₁.trailerCount, st₁.trailers⟩, ?_, _,
        hdelivered⟩
      rw [bind_of_ok hfold]
      exact bind_of_ok hmove _
    · obtain ⟨st₁, hfold, h⟩ := bind_eq_ok h
      obtain ⟨b, hmove, h⟩ := bind_eq_ok h
      obtain rfl := Except.ok.inj h
      have ht := hsound st₁ hfold
      show Composed _ _ _ _ _ (Body.octets (Body.orNull _))
      rwa [orNull_octets, moveToDecodedBody_octets hmove]

end Transfer

/-! ## Both pipelines -/

def codingStages (codings : List HttpTransferCodingKind) (contents : List HttpCoding) :
    List CodingStage :=
  transferStages codings ++ contents.reverse.map CodingStage.coding

/-- `DecodeResponseBody`, and then `HttpContentEncoding::Decode`. -/
def deliver (codecs : ExternalCodecs) (info : HttpTransferCodingInfo) (closed : Bool)
    (headers : List HttpHeader) (buffers : HttpCodingDecodeBuffers) (trailerTarget : OutBuffer)
    (wireBody : Bytes) : Except NTSTATUS Body := do
  let r ← decodeResponseBody codecs info closed buffers trailerTarget wireBody
  contentEncodingDecode codecs headers r.body buffers

section Deliver

variable {codecs : ExternalCodecs} {trailerTarget : OutBuffer} {buffers : HttpCodingDecodeBuffers}
  {allowed : ℕ → ℕ → Bool}

variable {b : Body} {current location : BodyLocation} {transformed : Bool} {s u t : Bytes}
    {stages stages' : List CodingStage} {contents : List HttpCoding} {headers : List HttpHeader}
    {m n : ℕ}

theorem composed_append :
    Composed codecs allowed trailerTarget (stages ++ stages') s u ↔
      ∃ t, Composed codecs allowed trailerTarget stages s t ∧
        Composed codecs allowed trailerTarget stages' t u := by
  induction stages generalizing s with
  | nil => exact ⟨fun h => ⟨s, rfl, h⟩, by rintro ⟨t, rfl, h⟩; exact h⟩
  | cons stage stages ih =>
    constructor
    · rintro ⟨t, ht, h⟩
      obtain ⟨t', ht', h⟩ := ih.1 h
      exact ⟨t', ⟨t, ht, ht'⟩, h⟩
    · rintro ⟨t', ⟨t, ht, ht'⟩, h⟩
      exact ⟨t, ht, ih.2 ⟨t', ht', h⟩⟩

theorem Roomy.append
    (h : Roomy codecs allowed trailerTarget buffers (stages ++ stages') s) (hs : s ≠ []) :
    Roomy codecs allowed trailerTarget buffers stages s ∧
      ∀ t, Composed codecs allowed trailerTarget stages s t →
        Roomy codecs allowed trailerTarget buffers stages' t ∧ (stages' ≠ [] → t ≠ []) := by
  induction stages generalizing s with
  | nil => exact ⟨trivial, by rintro t rfl; exact ⟨h, fun _ => hs⟩⟩
  | cons stage stages ih =>
    refine ⟨fun t ht => ?_, ?_⟩
    · obtain ⟨hroom, hne, hrest⟩ := h t ht
      refine ⟨hroom, fun hstages => hne fun hnil => hstages (List.append_eq_nil_iff.1 hnil).1, ?_⟩
      rcases stages with _ | ⟨stage', stages⟩
      · trivial
      · exact (ih hrest (hne (by simp))).1
    · rintro u ⟨t, ht, hu⟩
      obtain ⟨hroom, hne, hrest⟩ := h t ht
      by_cases hnil : stages ++ stages' = []
      · obtain ⟨rfl, rfl⟩ := List.append_eq_nil_iff.1 hnil
        exact ⟨trivial, fun h => absurd rfl h⟩
      · exact (ih hrest (hne hnil)).2 u hu

theorem transforming_append (stages stages' : List CodingStage) :
    transforming (stages ++ stages') = transforming stages + transforming stages' :=
  List.countP_append

theorem HttpCodingDecodeBuffers.Serve.mono
    (h : buffers.Serve current (m + n)) : buffers.Serve current m := by
  rcases h with h | h | ⟨h, hcurrent, h'⟩
  · exact .inl h
  · exact .inr (.inl (by omega))
  · by_cases hm : m = 0
    · exact .inr (.inl hm)
    · exact .inr (.inr ⟨by omega, hcurrent, h'⟩)

/-- Behind some codings, the others are served. -/
theorem HttpCodingDecodeBuffers.Serve.rest
    (h : buffers.Serve current (m + n)) (hstay : m = 0 → location = current) :
    buffers.Serve location n := by
  rcases h with h | h | ⟨h, rfl, h'⟩
  · exact .inl h
  · exact .inr (.inl (by omega))
  · by_cases hm : m = 0
    · exact .inr (.inr ⟨by omega, hstay hm, h'⟩)
    · exact .inr (.inl (by omega))

theorem contentEncodingDecode_eq
    (hcontents : (fieldValues headers (text "Content-Encoding")).foldlM appendCodings [] =
      .ok contents) (hlocation : location ≠ .null) :
    contentEncodingDecode codecs headers (Body.orNull ⟨location, t⟩) buffers =
      if contents = [] ∨ t = [] then .ok (Body.orNull ⟨location, t⟩)
      else decodeChainReverse codecs contents ⟨location, t⟩ buffers >>= fun r => .ok r.1 := by
  have hnull : ¬ ((Body.orNull ⟨location, t⟩).location = .null ∧
      (Body.orNull ⟨location, t⟩).octets ≠ []) := by
    rw [orNull_octets]
    rintro ⟨hnull, ht⟩
    rw [orNull_of_ne ht] at hnull
    exact hlocation hnull
  rw [contentEncodingDecode, if_neg hnull, bind_of_ok hcontents, orNull_octets]
  split_ifs with h
  · rw [orNull_orNull]
    rfl
  · rw [orNull_of_ne (not_or.1 h).2]
    rfl

/-- Two chains in a row. -/
theorem Delivered.trans {b₀ b' : Body} {transformed' : Bool}
    (h : Delivered buffers stages t (b₀, false) (b, transformed)) (ht : t ≠ [])
    (h' : Delivered buffers stages' u (b, false) (b', transformed')) :
    Delivered buffers (stages ++ stages') u (b₀, false) (b', transformed || transformed') := by
  obtain ⟨location, hbody, hne, hstay⟩ := h.body
  obtain ⟨location', hbody', hne', hstay'⟩ := h'.body
  obtain rfl : b = Body.orNull ⟨location, t⟩ := hbody
  obtain rfl : b' = Body.orNull ⟨location', u⟩ := hbody'
  rw [orNull_of_ne ht] at hstay'
  have hsum := transforming_append stages stages'
  refine ⟨⟨⟨location', rfl, hne', fun h0 => ?_⟩, ?_⟩, fun hn hpresent hu => ?_⟩
  · exact (hstay' (by omega)).trans (hstay (by omega))
  · have h₁ : transformed = (false || decide (transforming stages ≠ 0)) := h.transformed
    have h₂ : transformed' = (false || decide (transforming stages' ≠ 0)) := h'.transformed
    rw [h₁, h₂, hsum]
    by_cases h1 : transforming stages = 0
    · simp [h1]
    · simp [h1]
  · by_cases h1 : transforming stages' = 0
    · -- the second chain leaves the body where the first one has put it
      have hmoved := h.moved (by omega) hpresent ht
      rw [orNull_of_ne ht] at hmoved
      show (Body.orNull ⟨location', u⟩).location = _
      rw [orNull_of_ne hu]
      exact (hstay' h1).trans hmoved
    · exact h'.moved h1 hpresent hu

/-- **`HttpContentEncoding::Decode` undoes the content codings behind the transfer codings.** -/
theorem contentEncodingDecode_composed (hcodecs : codecs.NeedLength) (hfits : buffers.FitUlong)
            (hcontents : (fieldValues headers (text "Content-Encoding")).foldlM appendCodings [] =
      .ok contents)
    (hb : Delivered buffers stages t (⟨.wire, s⟩, false) (b, transformed))
    (hserve : buffers.Serve .wire (transforming stages +
      transforming (contents.reverse.map CodingStage.coding)))
    (hroomy : Roomy codecs isDecodedSizeAllowed trailerTarget buffers
      (contents.reverse.map CodingStage.coding) t)
    (ht : contents.reverse.map CodingStage.coding ≠ [] → t ≠ []) :
    (∀ u, Composed codecs isDecodedSizeAllowed trailerTarget
        (contents.reverse.map CodingStage.coding) t u →
      ∃ b' transformed', contentEncodingDecode codecs headers b buffers = .ok b' ∧
        Delivered buffers (stages ++ contents.reverse.map CodingStage.coding) u
          (⟨.wire, s⟩, false) (b', transformed')) ∧
    ∀ b', contentEncodingDecode codecs headers b buffers = .ok b' →
      Composed codecs isDecodedSizeAllowed trailerTarget
        (contents.reverse.map CodingStage.coding) t b'.octets := by
  obtain ⟨location, hbody, hne, hstay⟩ := id hb.body
  obtain rfl : b = Body.orNull ⟨location, t⟩ := hbody
  rw [contentEncodingDecode_eq hcontents hne]
  by_cases hnil : contents = []
  · subst hnil
    rw [if_pos (.inl rfl), List.reverse_nil, List.map_nil, List.append_nil]
    refine ⟨?_, fun b' h => ?_⟩
    · rintro u rfl
      exact ⟨_, transformed, rfl, hb⟩
    · obtain rfl := Except.ok.inj h
      exact (orNull_octets ⟨location, t⟩).symm
  · have ht' : t ≠ [] := ht (by simpa using hnil)
    rw [if_neg (not_or.2 ⟨hnil, ht'⟩)]
    rw [orNull_of_ne ht'] at hb
    obtain ⟨hok, hsound⟩ := decodeChainReverse_composed hcodecs hfits rfl hne ht'
      (hserve.rest hstay) hroomy
    refine ⟨fun u hu => ?_, fun b' h => ?_⟩
    · obtain ⟨⟨b', transformed'⟩, hchain, hdelivered⟩ := hok u hu
      exact ⟨b', _, by rw [bind_of_ok hchain], hb.trans ht' hdelivered⟩
    · obtain ⟨st', hchain, h⟩ := bind_eq_ok h
      obtain rfl := Except.ok.inj h
      exact hsound st' hchain

/-- **What the two pipelines deliver is what the single decoders make**, and a body that is
    changed is in `DecodedBody`, if there is one. -/
theorem deliver_composed (hcodecs : codecs.NeedLength) (hfits : buffers.FitUlong)
    {codings : List HttpTransferCodingKind} {closed : Bool} {wireBody : Bytes}
    (hcontents : (fieldValues headers (text "Content-Encoding")).foldlM appendCodings [] =
      .ok contents)
    (hend : EndsBody codings closed) (hs : wireBody ≠ [])
    (hserve : buffers.Serve .wire (transforming (codingStages codings contents)))
    (hroomy : Roomy codecs isDecodedSizeAllowed trailerTarget buffers
      (codingStages codings contents) wireBody) :
    (∀ u, Composed codecs isDecodedSizeAllowed trailerTarget (codingStages codings contents)
        wireBody u →
      ∃ b transformed, deliver codecs (.ofCodings codings) closed headers buffers trailerTarget
          wireBody = .ok b ∧
        Delivered buffers (codingStages codings contents) u (⟨.wire, wireBody⟩, false)
          (b, transformed)) ∧
    ∀ b, deliver codecs (.ofCodings codings) closed headers buffers trailerTarget wireBody =
        .ok b →
      Composed codecs isDecodedSizeAllowed trailerTarget (codingStages codings contents) wireBody
        b.octets := by
  obtain ⟨hroomyT, hrest⟩ := hroomy.append hs
  rw [codingStages, transforming_append] at hserve
  obtain ⟨hok, hsound⟩ := decodeResponseBody_composed hcodecs hfits hend hs hserve.mono
    hroomyT
  refine ⟨fun u hu => ?_, fun b h => ?_⟩
  · obtain ⟨t, ht, hu⟩ := composed_append.1 hu
    obtain ⟨r, hr, transformed, hdelivered⟩ := hok t ht
    obtain ⟨b, transformed', hb, hdelivered'⟩ := (contentEncodingDecode_composed hcodecs hfits
      hcontents hdelivered hserve (hrest t ht).1 (hrest t ht).2).1 u hu
    exact ⟨b, transformed', by rw [deliver, bind_of_ok hr, hb], hdelivered'⟩
  · obtain ⟨r, hr, h⟩ := bind_eq_ok h
    have ht := hsound r hr
    obtain ⟨r', hr', transformed, hdelivered⟩ := hok _ ht
    rw [hr] at hr'
    obtain rfl := Except.ok.inj hr'
    exact composed_append.2 ⟨_, ht, (contentEncodingDecode_composed hcodecs hfits hcontents
      hdelivered hserve (hrest _ ht).1 (hrest _ ht).2).2 b h⟩

end Deliver

end KernelHttp.Http1
