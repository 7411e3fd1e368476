/-
  What the decoder of compress(1) makes of the format (`DecodeCompress`).

  The decoder counts groups from the first code of all, and does not skip behind a clear code.
-/
import KernelHttp.Http1.CompressFormat
import KernelHttp.Http1.ChunkedRoundTrip

namespace KernelHttp.Http1

open BitPacking Lzw

/-! ## One turn -/

/-- The decoder is where the format is. -/
structure InRun (f : CompressFormat) (d : Lzw.Decoder UInt8) (r : Run) (st : CompressState) :
    Prop where
  tables : Tables f d st
  offset : st.bitOffset = r.position
  bits : st.codeBits = r.width
  sent : d.dict.length = min (r.sent - 1) f.room
  fresh : d.previous = none ↔ r.sent = 0
  low : 9 ≤ r.width
  high : r.width ≤ f.maxBits
  free : f.free r.sent ≤ 2 ^ r.width

section Turn

variable {f : CompressFormat} {d : Lzw.Decoder UInt8} {r : Run} {st : CompressState}
  {t : Token UInt8} {w : Bytes}

theorem inRun_start (f : CompressFormat) (output : Bytes) :
    InRun f {} {} { nextCode := f.first, output := output } := by
  have hfirst := f.first_bounds
  refine ⟨⟨rfl, nofun, rfl, Nat.zero_le _⟩, rfl, rfl, (Nat.zero_min _).symm, by simp, le_rfl,
    f.min_le, ?_⟩
  show f.first + min 0 f.room ≤ 2 ^ 9
  rw [Nat.zero_min]
  omega

theorem InRun.nextCode (h : InRun f d r st) : st.nextCode = f.free r.sent := by
  rw [h.tables.next, h.sent]
  rfl

theorem InRun.grows_iff (h : InRun f d r st) :
    (st.nextCode > 2 ^ st.codeBits - 1 ∧ st.codeBits < f.maxBits) ↔ f.Grows r := by
  have hpos : 0 < 2 ^ r.width := Nat.two_pow_pos _
  rw [h.nextCode, h.bits, CompressFormat.Grows]
  constructor
  · rintro ⟨h1, h2⟩
    exact ⟨by omega, h2⟩
  · rintro ⟨h1, h2⟩
    exact ⟨by omega, h2⟩

theorem CompressFormat.free_succ (f : CompressFormat) (sent : ℕ) :
    f.free (sent + 1) ≤ f.free sent + 1 ∧ f.free (sent + 1) ≤ 2 ^ f.maxBits := by
  have hfirst := f.first_bounds
  simp only [CompressFormat.free]
  omega

/-- The width of the next code. -/
theorem InRun.widen (h : InRun f d r st) : 9 ≤ (f.widen r).width ∧ (f.widen r).width ≤ f.maxBits ∧
    f.free (r.sent + 1) ≤ 2 ^ (f.widen r).width ∧ r.width ≤ (f.widen r).width := by
  have hfree := f.free_succ r.sent
  have hlow := h.low
  have hhigh := h.high
  by_cases hg : f.Grows r
  · have hw := hg.2
    have hle := h.free
    have hpos : 0 < 2 ^ r.width := Nat.two_pow_pos _
    rw [CompressFormat.widen_of_grows hg]
    simp only
    refine ⟨by omega, by omega, ?_, by omega⟩
    rw [Nat.pow_succ]
    omega
  · rw [CompressFormat.widen_of_not hg]
    refine ⟨hlow, hhigh, ?_, le_rfl⟩
    by_cases hw : r.width < f.maxBits
    · have : ¬ 2 ^ r.width ≤ f.free r.sent := fun hle => hg ⟨hle, hw⟩
      omega
    · rw [show r.width = f.maxBits by omega]
      exact hfree.2

/-- The code of a token fits into its width. -/
theorem InRun.codeOf_lt (h : InRun f d r st) (hvalid : t.Valid f.room (f.blockMode))
    (ht : t = .clear ∨ ∃ w, d.phrase t = some w) : f.codeOf t < 2 ^ (f.widen r).width := by
  obtain ⟨hlow, -, hfree, -⟩ := h.widen
  have hpow : 2 ^ 9 ≤ 2 ^ (f.widen r).width := Nat.pow_le_pow_right (by decide) hlow
  have hsent := h.sent
  have hfirst := f.first_bounds
  rcases ht with rfl | ⟨w, hw⟩
  · exact lt_of_lt_of_le (show 256 < 2 ^ 9 by decide) hpow
  · cases t with
    | literal c =>
      have := c.toNat_lt
      rw [CompressFormat.codeOf]
      omega
    | clear => cases hw
    | entry i =>
      have hi : i < f.room := hvalid
      rw [CompressFormat.free] at hfree
      simp only [Lzw.Decoder.phrase] at hw
      rw [CompressFormat.codeOf]
      split_ifs at hw with h1 h2
      · omega
      · -- the entry is used before it is there: a phrase was read before
        obtain ⟨v, hv, -⟩ := Option.map_eq_some_iff.1 hw
        have hne : r.sent ≠ 0 := fun h0 => by
          rw [h.fresh.2 h0] at hv
          cases hv
        omega

variable {pre : List Bool} {destination : OutBuffer}

/-- What the loop does with the code of a token. -/
theorem compressLoop_turn (h : InRun f d r st) (hgroup : f.Grows r → 8 * r.width ∣ r.start)
    (hcode : f.codeOf t < 2 ^ (f.widen r).width) {post : List Bool}
    (hpre : pre.length = r.position) (destination : OutBuffer) (n : ℕ) :
    compressLoop (packBits (pre ++ (f.tokenBits r t ++ post))) destination f.blockMode f.maxBits
        (n + 1) st =
      if f.blockMode ∧ f.codeOf t = 256 then
        compressLoop (packBits (pre ++ (f.tokenBits r t ++ post))) destination f.blockMode f.maxBits
          n { st with
            bitOffset := (f.widen r).position + (f.widen r).width
            codeBits := 9, nextCode := 257, oldCode := none }
      else
        compressCode destination (2 ^ f.maxBits) { st with
            bitOffset := (f.widen r).position + (f.widen r).width
            codeBits := (f.widen r).width } (f.codeOf t) >>=
          compressLoop (packBits (pre ++ (f.tokenBits r t ++ post))) destination f.blockMode
            f.maxBits n := by
  obtain ⟨hlow, hhigh, -, hle⟩ := h.widen
  have hmax := f.le_max
  have hrlow := h.low
  have hposition := CompressFormat.position_widen_le (f := f) r
  -- the code stands behind what fills up the group
  obtain ⟨s, u, hs, hbits⟩ : ∃ s u, s.length = (f.widen r).position ∧
      pre ++ (f.tokenBits r t ++ post) = s ++ (codeBits (f.widen r).width (f.codeOf t) ++ u) := by
    refine ⟨pre ++ List.replicate ((f.widen r).position - r.position) false, List.replicate
      ((f.next r t).position - ((f.widen r).position + (f.widen r).width)) false ++ post, ?_, ?_⟩
    · rw [List.length_append, List.length_replicate, hpre]
      omega
    · simp only [CompressFormat.tokenBits, List.append_assoc]
  rw [hbits]
  generalize hdata : packBits (s ++ (codeBits (f.widen r).width (f.codeOf t) ++ u)) = data
  have htotal : (f.widen r).position + (f.widen r).width ≤ data.length * 8 := by
    have := length_packBits (s ++ (codeBits (f.widen r).width (f.codeOf t) ++ u))
    rw [hdata, List.length_append, List.length_append, length_codeBits, hs] at this
    omega
  have hread : readCompressCode data (f.widen r).position (f.widen r).width =
      some (f.codeOf t) := by
    rw [← hdata, ← hs]
    exact readCompressCode_packBits (by omega) (by omega) hcode
  have hbefore : hasCompleteCompressCode (data.length * 8) st.bitOffset st.codeBits = true := by
    rw [h.offset, h.bits, hasCompleteCompressCode_iff (by omega)]
    omega
  have hafter : hasCompleteCompressCode (data.length * 8) (f.widen r).position
      (f.widen r).width = true := by
    rwa [hasCompleteCompressCode_iff (by omega)]
  have hwiden : (if st.nextCode > 2 ^ st.codeBits - 1 ∧ st.codeBits < f.maxBits then
      { st with
        bitOffset := alignCompressBitOffset st.bitOffset st.codeBits
        codeBits := st.codeBits + 1 }
      else st) =
      { st with bitOffset := (f.widen r).position, codeBits := (f.widen r).width } := by
    by_cases hg : f.Grows r
    · rw [if_pos (h.grows_iff.2 hg), h.offset, h.bits, align_position (by omega) (hgroup hg),
        CompressFormat.widen_of_grows hg]
      rfl
    · rw [if_neg fun hst => hg (h.grows_iff.1 hst), CompressFormat.widen_of_not hg, ← h.offset,
        ← h.bits]
  rw [compressLoop, if_neg (not_not.2 hbefore)]
  simp only [hwiden, hafter, hread, not_true_eq_false, if_false]
  generalize compressCode destination (2 ^ f.maxBits) _ (f.codeOf t) = coded
  cases coded with
  | error status => rfl
  | ok st' => rfl

/-- **One turn of the loop is one token.** -/
theorem compressLoop_token (h : InRun f d r st) (hvalid : t.Valid f.room (f.blockMode))
    (hphrase : d.phrase t = some w) (hgroup : f.Grows r → 8 * r.width ∣ r.start)
    (post : List Bool) (hpre : pre.length = r.position)
    (hnull : destination.present = false → destination.capacity = 0)
    (hroom : st.output.length + w.length ≤ destination.capacity) (n : ℕ) :
    ∃ st', compressLoop (packBits (pre ++ (f.tokenBits r t ++ post))) destination f.blockMode
        f.maxBits (n + 1) st =
      compressLoop (packBits (pre ++ (f.tokenBits r t ++ post))) destination f.blockMode
        f.maxBits n st' ∧ InRun f (d.next f.room w) (f.next r t) st' ∧
      st'.output = st.output ++ w := by
  have hfirst := f.first_bounds
  have hne : t ≠ .clear := by
    rintro rfl
    cases hphrase
  have hclear : ¬ (f.blockMode = true ∧ f.codeOf t = 256) := by
    rintro ⟨hblock, hcode⟩
    cases t with
    | literal c =>
      have := c.toNat_lt
      rw [CompressFormat.codeOf] at hcode
      omega
    | entry i =>
      rw [CompressFormat.codeOf, CompressFormat.first, if_pos hblock] at hcode
      omega
    | clear => exact hne rfl
  have htables : Tables f d { st with
      bitOffset := (f.widen r).position + (f.widen r).width
      codeBits := (f.widen r).width } := ⟨h.tables.next, h.tables.denotes, h.tables.old, h.tables.room⟩
  obtain ⟨st', hst', htables', houtput, hoffset, hbits⟩ :=
    compressCode_token htables hvalid hphrase hnull hroom
  obtain ⟨hlow, hhigh, hfree, -⟩ := h.widen
  refine ⟨st', ?_, ?_, houtput⟩
  · rw [compressLoop_turn h hgroup (h.codeOf_lt hvalid (.inr ⟨w, hphrase⟩)) hpre, if_neg hclear,
      hst']
    rfl
  · have hnext : (f.next r t).width = (f.widen r).width ∧ (f.next r t).sent = r.sent + 1 := by
      cases t with
      | literal c => exact ⟨rfl, rfl⟩
      | entry i => exact ⟨rfl, rfl⟩
      | clear => exact absurd rfl hne
    refine ⟨htables', ?_, ?_, ?_, ?_, ?_, ?_, ?_⟩
    · rw [hoffset, CompressFormat.position_next_of_ne hne]
    · rw [hbits, hnext.1]
    · have hsent := h.sent
      have hfresh := h.fresh
      rw [hnext.2]
      simp only [Lzw.Decoder.next]
      cases hprevious : d.previous with
      | none =>
        rw [hfresh.1 hprevious] at hsent ⊢
        exact hsent
      | some v =>
        have hne : r.sent ≠ 0 := fun h0 => by
          rw [hfresh.2 h0] at hprevious
          cases hprevious
        simp only [length_grow]
        split_ifs <;> omega
    · simp [Lzw.Decoder.next, hnext.2]
    · rw [hnext.1]
      exact hlow
    · rw [hnext.1]
      exact hhigh
    · rw [hnext.1, hnext.2]
      exact hfree

theorem compressLoop_clear (h : InRun f d r st) (hblock : f.blockMode = true)
    (hgroup : f.Grows r → 8 * r.width ∣ r.start) (hlast : 8 ∣ (f.widen r).codes + 1)
    (post : List Bool) (hpre : pre.length = r.position) (destination : OutBuffer) (n : ℕ) :
    ∃ st', compressLoop (packBits (pre ++ (f.tokenBits r .clear ++ post))) destination f.blockMode
        f.maxBits (n + 1) st =
      compressLoop (packBits (pre ++ (f.tokenBits r .clear ++ post))) destination f.blockMode
        f.maxBits n st' ∧ InRun f {} (f.next r .clear) st' ∧ st'.output = st.output := by
  have hfirst := f.first_bounds
  have hend : (f.next r .clear).position = (f.widen r).position + (f.widen r).width := by
    obtain ⟨k, hk⟩ := hlast
    simp only [CompressFormat.next, Run.position, Run.groupEnd, hk,
      show (8 * k + 7) / 8 = k by omega]
    rw [Nat.mul_zero, Nat.add_zero, ← hk]
    ring
  have hcode := h.codeOf_lt (t := .clear) hblock (.inl rfl)
  refine ⟨{ st with
    bitOffset := (f.widen r).position + (f.widen r).width
    codeBits := 9, nextCode := 257, oldCode := none }, ?_, ?_, rfl⟩
  · rw [compressLoop_turn h hgroup hcode hpre, if_pos ⟨hblock, rfl⟩]
  · refine ⟨⟨?_, fun _ _ hj => (by cases hj), rfl, Nat.zero_le _⟩, hend.symm, rfl, (Nat.zero_min _).symm,
      ⟨fun _ => rfl, fun _ => rfl⟩, le_rfl, f.min_le, ?_⟩
    · show 257 = f.first + 0
      rw [CompressFormat.first, if_pos hblock]
    · show f.first + min 0 f.room ≤ 2 ^ 9
      rw [Nat.zero_min]
      omega

/-! ## Runs -/

theorem length_le_tokensBits (ts : List (Token UInt8)) : ∀ (r : Run), 9 ≤ r.width →
    ts.length ≤ (f.tokensBits r ts).length := by
  induction ts with
  | nil => simp
  | cons t ts ih =>
    intro r hr
    have hwiden : 9 ≤ (f.widen r).width := by
      by_cases hg : f.Grows r
      · rw [CompressFormat.widen_of_grows hg]
        simp only
        omega
      · rwa [CompressFormat.widen_of_not hg]
    have hnext : 9 ≤ (f.next r t).width := by
      cases t with
      | literal c => exact hwiden
      | entry i => exact hwiden
      | clear => exact le_rfl
    have := ih (f.next r t) hnext
    rw [CompressFormat.tokensBits, List.length_append, CompressFormat.tokenBits,
      List.length_append, List.length_append, length_codeBits, List.length_cons]
    omega

theorem compressLoop_end (h : InRun f d r st) {bits : List Bool} (hbits : bits.length = r.position)
    (destination : OutBuffer) (n : ℕ) :
    compressLoop (packBits bits) destination f.blockMode f.maxBits n st = .ok st.output := by
  cases n with
  | zero => rfl
  | succ n =>
    have hlow := h.low
    have hlength := length_packBits bits
    rw [hbits] at hlength
    rw [compressLoop, if_pos]
    rw [h.offset, h.bits, hasCompleteCompressCode_iff (by omega)]
    omega

/-- **The decoder stays in step**: behind tokens, the loop is where the format is. -/
theorem compressLoop_tokens
    (hnull : destination.present = false → destination.capacity = 0) (post : List Bool) (n : ℕ)
    (ts : List (Token UInt8)) : ∀ {d : Lzw.Decoder UInt8} {r : Run} {st : CompressState}
    (pre : List Bool) {x : Bytes}, InRun f d r st → InStep f r ts →
    (∀ t ∈ ts, t.Valid f.room (f.blockMode)) → pre.length = r.position →
    Lzw.decode f.room d ts = some x → st.output.length + x.length ≤ destination.capacity →
    ∃ d' st', compressLoop (packBits (pre ++ (f.tokensBits r ts ++ post))) destination f.blockMode
        f.maxBits (n + ts.length) st =
      compressLoop (packBits (pre ++ (f.tokensBits r ts ++ post))) destination f.blockMode
        f.maxBits n st' ∧ InRun f d' (ts.foldl f.next r) st' ∧ st'.output = st.output ++ x := by
  induction ts with
  | nil =>
    intro d r st pre x h _ _ _ hx _
    obtain rfl : [] = x := Option.some.inj hx
    exact ⟨d, st, rfl, h, (List.append_nil _).symm⟩
  | cons t ts ih =>
    intro d r st pre x h hstep hvalid hpre hx hroom
    obtain ⟨hgroup, hlast, hstep⟩ := hstep
    obtain ⟨ht, hts⟩ := List.forall_mem_cons.1 hvalid
    have hpre' : (pre ++ f.tokenBits r t).length = (f.next r t).position := by
      have := CompressFormat.length_tokenBits (f := f) r t
      rw [List.length_append, hpre]
      omega
    have hbits : pre ++ (f.tokensBits r (t :: ts) ++ post) =
        pre ++ (f.tokenBits r t ++ (f.tokensBits (f.next r t) ts ++ post)) := by
      rw [CompressFormat.tokensBits, List.append_assoc]
    have hbits' : pre ++ (f.tokensBits r (t :: ts) ++ post) =
        (pre ++ f.tokenBits r t) ++ (f.tokensBits (f.next r t) ts ++ post) := by
      rw [hbits, List.append_assoc]
    by_cases hclear : t = .clear
    · subst hclear
      obtain ⟨st₁, hloop, hrun, houtput⟩ := compressLoop_clear h ht hgroup (hlast rfl)
        (f.tokensBits (f.next r .clear) ts ++ post) hpre destination (n + ts.length)
      obtain ⟨d', st', hloop', hrun', houtput'⟩ :=
        ih _ hrun hstep hts hpre' hx (by rwa [houtput])
      refine ⟨d', st', ?_, hrun', by rw [houtput', houtput]⟩
      rw [hbits, List.length_cons, ← Nat.add_assoc, hloop, ← hbits, hbits', hloop']
    · obtain ⟨w, u, hphrase, hdecode, rfl⟩ : ∃ w u, d.phrase t = some w ∧
          Lzw.decode f.room (d.next f.room w) ts = some u ∧ x = w ++ u := by
        cases hphrase : d.phrase t with
        | none =>
          cases t with
          | literal c => cases hphrase
          | entry i => simp [Lzw.decode, hphrase] at hx
          | clear => exact absurd rfl hclear
        | some w =>
          rw [decode_phrase _ hclear hphrase] at hx
          obtain ⟨u, hu, rfl⟩ := Option.map_eq_some_iff.1 hx
          exact ⟨w, u, rfl, hu, rfl⟩
      rw [List.length_append] at hroom
      obtain ⟨st₁, hloop, hrun, houtput⟩ := compressLoop_token h ht hphrase hgroup
        (f.tokensBits (f.next r t) ts ++ post) hpre hnull (by omega) (n + ts.length)
      obtain ⟨d', st', hloop', hrun', houtput'⟩ :=
        ih _ hrun hstep hts hpre' hdecode (by rw [houtput, List.length_append]; omega)
      refine ⟨d', st', ?_, hrun', by rw [houtput', houtput, List.append_assoc]⟩
      rw [hbits, List.length_cons, ← Nat.add_assoc, hloop, ← hbits, hbits', hloop']

end Turn

/-! ## Texts -/

theorem CompressFormat.flags_spec (f : CompressFormat) :
    (UInt8.ofNat f.flags).toNat % 32 = f.maxBits ∧ hasFlag (UInt8.ofNat f.flags) 7 = f.blockMode := by
  have hall : ∀ (n : Fin 17) (b : Bool), 9 ≤ n.val →
      (UInt8.ofNat (n.val + if b then 128 else 0)).toNat % 32 = n.val ∧
        hasFlag (UInt8.ofNat (n.val + if b then 128 else 0)) 7 = b := by
    decide +kernel
  have hmax := f.le_max
  exact hall ⟨f.maxBits, by omega⟩ f.blockMode f.min_le

/-- `DecodeCompress` on the format starts the loop. -/
theorem decodeCompress_eq (f : CompressFormat) (clears : Bytes → Bool) (x : Bytes)
    (destination : OutBuffer) :
    decodeCompress (f.compress clears x) destination =
      compressLoop (packBits (f.tokensBits {} (f.tokens clears x))) destination f.blockMode
        f.maxBits ((packBits (f.tokensBits {} (f.tokens clears x))).length * 8)
        { nextCode := f.first } := by
  obtain ⟨hbits, hblock⟩ := f.flags_spec
  have hmin := f.min_le
  have hmax := f.le_max
  have hheader : ¬ ((0x1F : UInt8).toNat ≠ 0x1F ∨ (0x9D : UInt8).toNat ≠ 0x9D ∨ f.maxBits < 9 ∨
      f.maxBits > 16) := by
    rintro (h | h | h | h)
    · exact h rfl
    · exact h rfl
    · omega
    · omega
  simp only [decodeCompress, CompressFormat.compress, hbits, hblock, if_neg hheader]
  rfl

theorem decode_tokens (f : CompressFormat) (clears : Bytes → Bool) (x : Bytes) :
    Lzw.decode f.room {} (f.tokens clears x) = some x :=
  decode_encode f.room _ x

theorem tokens_valid (f : CompressFormat) (clears : Bytes → Bool) (x : Bytes) :
    ∀ t ∈ f.tokens clears x, t.Valid f.room (f.blockMode) :=
  encode_valid (fun rest h => by simp only [Bool.and_eq_true] at h; exact h.1) x

/-- The loop has a turn for each token. -/
theorem turns_le (f : CompressFormat) (ts : List (Token UInt8)) :
    ts.length ≤ (packBits (f.tokensBits {} ts)).length * 8 := by
  have h := length_le_tokensBits (f := f) ts {} le_rfl
  rw [length_packBits]
  omega

theorem length_tokensBits (f : CompressFormat) (ts : List (Token UInt8)) : ∀ r : Run,
    (f.tokensBits r ts).length + r.position = (ts.foldl f.next r).position := by
  induction ts with
  | nil => exact fun r => Nat.zero_add _
  | cons t ts ih =>
    intro r
    have h := CompressFormat.length_tokenBits (f := f) r t
    have := ih (f.next r t)
    rw [CompressFormat.tokensBits, List.length_append, List.foldl_cons]
    omega

/-- **A text is decoded as long as the decoder stays in step.** -/
theorem decodeCompress_compress {f : CompressFormat} {clears : Bytes → Bool} {x : Bytes}
    {destination : OutBuffer} (htakes : destination.Takes x.length)
    (hstep : InStep f {} (f.tokens clears x)) :
    decodeCompress (f.compress clears x) destination = .ok x := by
  obtain ⟨n, hn⟩ := Nat.exists_eq_add_of_le' (turns_le f (f.tokens clears x))
  obtain ⟨d', st', hloop, hrun, houtput⟩ := compressLoop_tokens htakes.null [] n
    (f.tokens clears x) [] (inRun_start f []) hstep (tokens_valid f clears x) rfl
    (decode_tokens f clears x) (by simpa using htakes.fits)
  have hposition := length_tokensBits f (f.tokens clears x) {}
  rw [List.nil_append, List.append_nil] at hloop
  rw [decodeCompress_eq, hn, hloop, compressLoop_end hrun hposition, houtput]
  rfl

/-! ## Without clear codes -/

/-- The number of codes of 9 and of 10 bits. -/
def CompressFormat.narrow (f : CompressFormat) : ℕ := 1025 - f.first

/-- The run behind `n` codes of 9 and 10 bits. -/
def CompressFormat.runAt (f : CompressFormat) (n : ℕ) : Run :=
  if n ≤ 513 - f.first then ⟨0, n, 9, n⟩
  else ⟨72 * ((513 - f.first + 7) / 8), n - (513 - f.first), 10, n⟩

theorem CompressFormat.next_of_ne (f : CompressFormat) (r : Run) {t : Token UInt8}
    (ht : t ≠ .clear) :
    f.next r t = { f.widen r with codes := (f.widen r).codes + 1, sent := r.sent + 1 } := by
  cases t with
  | literal c => rfl
  | entry i => rfl
  | clear => exact absurd rfl ht

section Never

variable {f : CompressFormat}

theorem CompressFormat.room_ge (h : 11 ≤ f.maxBits) : 2048 ≤ f.first + f.room := by
  have hpow : 2 ^ 11 ≤ 2 ^ f.maxBits := Nat.pow_le_pow_right (by decide) h
  have := f.first_bounds
  omega

variable {x : Bytes} {n : ℕ}

/-- Up to the last code of 10 bits, only the first code of 10 bits is wider than the one before. -/
theorem CompressFormat.grows_runAt (h : 11 ≤ f.maxBits) (hn : n ≤ f.narrow) :
    f.Grows (f.runAt n) ↔ n = 513 - f.first ∨ n = f.narrow := by
  have hfirst := f.first_bounds
  have hroom := CompressFormat.room_ge h
  rw [CompressFormat.narrow] at hn ⊢
  rw [CompressFormat.Grows, CompressFormat.runAt]
  split_ifs with hle
  · simp only [CompressFormat.free]
    omega
  · simp only [CompressFormat.free]
    omega

theorem CompressFormat.next_runAt (h : 11 ≤ f.maxBits) (hn : n < f.narrow)
    {t : Token UInt8} (ht : t ≠ .clear) : f.next (f.runAt n) t = f.runAt (n + 1) := by
  have hfirst := f.first_bounds
  have hgrows := CompressFormat.grows_runAt h hn.le
  rw [CompressFormat.next_of_ne f _ ht]
  by_cases hg : f.Grows (f.runAt n)
  · have hnarrow : n = 513 - f.first := by
      rcases hgrows.1 hg with h | h
      · exact h
      · omega
    rw [CompressFormat.widen_of_grows hg, CompressFormat.runAt, CompressFormat.runAt,
      if_pos hnarrow.le, if_neg (by omega), hnarrow]
    simp only [Run.groupEnd, Run.mk.injEq, and_true]
    omega
  · rw [CompressFormat.widen_of_not hg]
    have hne : n ≠ 513 - f.first := fun heq => hg (hgrows.2 (.inl heq))
    simp only [CompressFormat.runAt]
    split_ifs with h1 h2
    · rfl
    · omega
    · omega
    · simp only [Run.mk.injEq, true_and, and_true]
      omega

theorem CompressFormat.dvd_runAt (h : 11 ≤ f.maxBits) (hn : n < f.narrow)
    (hg : f.Grows (f.runAt n)) : 8 * (f.runAt n).width ∣ (f.runAt n).start := by
  have hnarrow : n = 513 - f.first := by
    rcases (CompressFormat.grows_runAt h hn.le).1 hg with h | h
    · exact h
    · omega
  rw [CompressFormat.runAt, if_pos hnarrow.le]
  exact Nat.dvd_zero _

theorem CompressFormat.not_dvd_runAt (f : CompressFormat) :
    ¬ 8 * (f.runAt f.narrow).width ∣ (f.runAt f.narrow).start := by
  have hfirst := f.first_bounds
  rw [CompressFormat.runAt, CompressFormat.narrow, if_neg (by omega)]
  rintro ⟨k, hk⟩
  simp only at hk
  omega

/-- In step up to the last code of 10 bits, not with the first of 11. -/
theorem inStep_runAt (h : 11 ≤ f.maxBits) (ts : List (Token UInt8)) : ∀ {n : ℕ},
    n ≤ f.narrow → (∀ t ∈ ts, t ≠ .clear) →
    (InStep f (f.runAt n) ts ↔ n + ts.length ≤ f.narrow) ∧
      (n + ts.length ≤ f.narrow → ts.foldl f.next (f.runAt n) = f.runAt (n + ts.length)) := by
  induction ts with
  | nil => exact fun hn _ => ⟨⟨fun _ => hn, fun _ => trivial⟩, fun _ => rfl⟩
  | cons t ts ih =>
    intro n hn hts
    obtain ⟨ht, hts⟩ := List.forall_mem_cons.1 hts
    rw [List.length_cons]
    rcases hn.lt_or_eq with hlt | rfl
    · have hnext := CompressFormat.next_runAt h hlt ht
      obtain ⟨ih, ihfold⟩ := ih (n := n + 1) hlt hts
      refine ⟨⟨?_, fun hle => ?_⟩, fun hle => ?_⟩
      · rintro ⟨-, -, hrest⟩
        rw [hnext] at hrest
        have := ih.1 hrest
        omega
      · refine ⟨CompressFormat.dvd_runAt h hlt, fun hc => absurd hc ht, ?_⟩
        rw [hnext]
        exact ih.2 (by omega)
      · rw [List.foldl_cons, hnext, ihfold (by omega)]
        congr 1
        omega
    · refine ⟨⟨?_, fun hle => absurd hle (by omega)⟩, fun hle => absurd hle (by omega)⟩
      rintro ⟨hgroup, -, -⟩
      have hg := (CompressFormat.grows_runAt h le_rfl).2 (.inr rfl)
      exact absurd (hgroup hg) f.not_dvd_runAt

theorem runAt_zero (f : CompressFormat) : f.runAt 0 = {} := by
  rw [CompressFormat.runAt, if_pos (Nat.zero_le _)]

theorem inStep_of_le (h : f.maxBits ≤ 10) (ts : List (Token UInt8)) : ∀ {r : Run},
    (r.width = 9 ∧ r.start = 0) ∨ r.width = 10 → (∀ t ∈ ts, t ≠ .clear) → InStep f r ts := by
  induction ts with
  | nil => exact fun _ _ => trivial
  | cons t ts ih =>
    intro r hr hts
    obtain ⟨ht, hts⟩ := List.forall_mem_cons.1 hts
    refine ⟨fun hg => ?_, fun hc => absurd hc ht, ih ?_ hts⟩
    · have := hg.2
      rcases hr with ⟨hw, hs⟩ | hw
      · rw [hs]
        exact Nat.dvd_zero _
      · omega
    · rw [CompressFormat.next_of_ne f r ht]
      by_cases hg : f.Grows r
      · have := hg.2
        rw [CompressFormat.widen_of_grows hg]
        rcases hr with ⟨hw, -⟩ | hw
        · exact .inr (by simp only; omega)
        · omega
      · rw [CompressFormat.widen_of_not hg]
        exact hr

theorem mem_tokens_ne_clear : ∀ t ∈ f.tokens (fun _ => false) x, t ≠ .clear := by
  have hvalid : ∀ t ∈ f.tokens (fun _ => false) x, t.Valid f.room False :=
    encode_valid (fun rest h => by simp at h) x
  rintro t ht rfl
  exact hvalid _ ht

theorem inStep_never (x : Bytes) : InStep f {} (f.tokens (fun _ => false) x) ↔
    f.maxBits ≤ 10 ∨ (f.tokens (fun _ => false) x).length ≤ f.narrow := by
  by_cases h : f.maxBits ≤ 10
  · exact ⟨fun _ => .inl h, fun _ => inStep_of_le h _ (.inl ⟨rfl, rfl⟩) mem_tokens_ne_clear⟩
  · have := (inStep_runAt (by omega) (f.tokens (fun _ => false) x) (Nat.zero_le f.narrow)
      mem_tokens_ne_clear).1
    rw [runAt_zero, Nat.zero_add] at this
    rw [this]
    exact ⟨.inr, fun h' => h'.resolve_left h⟩

theorem compressLoop_skips (h : 11 ≤ f.maxBits) {d : Lzw.Decoder UInt8} {st : CompressState}
    (hrun : InRun f d (f.runAt f.narrow) st) {bits : List Bool}
    (hbits : bits.length = (f.runAt f.narrow).position + 11) (destination : OutBuffer) (n : ℕ) :
    compressLoop (packBits bits) destination f.blockMode f.maxBits n st = .ok st.output := by
  cases n with
  | zero => rfl
  | succ n =>
    have hfirst := f.first_bounds
    have hg := (CompressFormat.grows_runAt h le_rfl).2 (.inr rfl)
    have hst := hrun.grows_iff.2 hg
    have hwidth : (f.runAt f.narrow).width = 10 := by
      rw [CompressFormat.runAt, CompressFormat.narrow, if_neg (by omega)]
    have hposition : (f.runAt f.narrow).position = 72 * ((513 - f.first + 7) / 8) + 5120 := by
      rw [CompressFormat.runAt, CompressFormat.narrow, if_neg (by omega), Run.position]
      simp only
      omega
    have hlength := length_packBits bits
    rw [hbits, hposition] at hlength
    have hfirst' : f.first = 256 ∨ f.first = 257 := by omega
    have halign : (packBits bits).length * 8 <
        alignCompressBitOffset (f.runAt f.narrow).position 10 + 11 := by
      rw [alignCompressBitOffset, if_neg (by decide), hposition, hlength]
      rcases hfirst' with hf | hf
      · rw [hf]
        decide
      · rw [hf]
        decide
    have hcomplete : ¬ hasCompleteCompressCode ((packBits bits).length * 8)
        (alignCompressBitOffset (f.runAt f.narrow).position 10) 11 = true := by
      rw [hasCompleteCompressCode_iff (by decide)]
      omega
    rw [compressLoop, if_pos hst]
    simp only [hrun.offset, hrun.bits, hwidth, if_pos hcomplete, ite_self]

/-- A text with one code of 11 bits, the last one, is not decoded. -/
theorem decodeCompress_skips (h : 11 ≤ f.maxBits)
    (hlength : (f.tokens (fun _ => false) x).length = f.narrow + 1) {destination : OutBuffer}
    (htakes : destination.Takes x.length) :
    decodeCompress (f.compress (fun _ => false) x) destination ≠ .ok x := by
  obtain ⟨n, hn⟩ := Nat.exists_eq_add_of_le' (turns_le f (f.tokens (fun _ => false) x))
  rw [decodeCompress_eq, hn]
  have hvalid := tokens_valid f (fun _ => false) x
  have hdecode := decode_tokens f (fun _ => false) x
  have hne := mem_tokens_ne_clear (f := f) (x := x)
  generalize f.tokens (fun _ => false) x = tokens at hlength hvalid hdecode hne hn
  rcases List.eq_nil_or_concat' tokens with rfl | ⟨ts, t, rfl⟩
  · cases hlength
  rw [List.length_append, List.length_singleton, Nat.add_right_cancel_iff] at hlength
  have hts : ∀ s ∈ ts, s ≠ .clear := fun s hs => hne s (List.mem_append_left _ hs)
  have ht : t ≠ .clear := hne t (List.mem_append_right _ (List.mem_singleton_self t))
  obtain ⟨u, w, hu, rfl, hw⟩ := decode_concat ht ts solid_start hdecode
  obtain ⟨hstep, hfold⟩ := inStep_runAt h ts (Nat.zero_le f.narrow) hts
  rw [runAt_zero, Nat.zero_add] at hstep hfold
  have hend := hfold hlength.le
  rw [hlength] at hend
  have hbits : ∀ r : Run, f.tokensBits r (ts ++ [t]) =
      f.tokensBits r ts ++ f.tokenBits (ts.foldl f.next r) t := by
    clear * -
    induction ts with
    | nil => exact fun r => List.append_nil _
    | cons s ts ih =>
      intro r
      rw [List.cons_append, CompressFormat.tokensBits, ih, CompressFormat.tokensBits,
        List.append_assoc]
      rfl
  have hroom : ([] : Bytes).length + u.length ≤ destination.capacity := by
    have := htakes.fits
    rw [List.length_append] at this
    rw [List.length_nil]
    omega
  obtain ⟨d', st', hloop, hrun, houtput⟩ := compressLoop_tokens htakes.null
    (f.tokenBits (ts.foldl f.next {}) t) (n + 1) ts [] (inRun_start f [])
    (hstep.2 hlength.le) (fun s hs => hvalid s (List.mem_append_left _ hs)) rfl hu hroom
  rw [hend] at hrun
  rw [List.nil_append, ← hbits] at hloop
  have hposition : (f.tokensBits {} (ts ++ [t])).length = (f.runAt f.narrow).position + 11 := by
    have hpos := length_tokensBits f (ts ++ [t]) {}
    have hfirst := f.first_bounds
    have hg := (CompressFormat.grows_runAt h le_rfl).2 (.inr rfl)
    rw [List.foldl_append, hend, List.foldl_cons, List.foldl_nil,
      CompressFormat.position_next_of_ne ht, CompressFormat.widen_of_grows hg] at hpos
    have hstart : Run.position {} = 0 := rfl
    rw [hstart, Nat.add_zero] at hpos
    rw [hpos, CompressFormat.runAt, CompressFormat.narrow, if_neg (by omega)]
    simp only [Run.position, Run.groupEnd]
    omega
  rw [List.length_append, List.length_singleton, show n + (ts.length + 1) = n + 1 + ts.length by
    omega, hloop, compressLoop_skips h hrun hposition, houtput]
  intro heq
  have := Except.ok.inj heq
  simp only [List.nil_append, List.self_eq_append_right] at this
  exact hw this

/-- A text of zeros with `n + 1` codes. -/
theorem length_tokens_zeros {m : ℕ} (hn : n < f.room) (hm : 2 * m = n * (n + 1)) :
    (f.tokens (fun _ => false) (List.replicate (m + 1) 0)).length = n + 1 := by
  have h := length_encodeFrom_ladder f.room (0 : UInt8) n (k := 0) (m := m)
    (by omega) (by rw [hm]; ring)
  have hclears : (fun _ : Bytes => f.blockMode && false) = fun _ => false := by
    funext
    exact Bool.and_false _
  rw [CompressFormat.tokens, hclears]
  exact h

/-- **The decoder and the format**: a text is decoded as long as the decoder stays in step.
    Without clear codes it does for every text exactly if codes have at most 10 bits, and for one
    text also if it has no code of 11 bits. -/
theorem decodeCompress_iff (f : CompressFormat) :
    (∀ (clears : Bytes → Bool) (x : Bytes) (destination : OutBuffer), destination.Takes x.length →
      InStep f {} (f.tokens clears x) → decodeCompress (f.compress clears x) destination = .ok x) ∧
    ((∀ (x : Bytes) (destination : OutBuffer), destination.Takes x.length →
        decodeCompress (f.compress (fun _ => false) x) destination = .ok x) ↔ f.maxBits ≤ 10) ∧
    ∀ x : Bytes, InStep f {} (f.tokens (fun _ => false) x) ↔
      f.maxBits ≤ 10 ∨ (f.tokens (fun _ => false) x).length ≤ f.narrow := by
  refine ⟨fun clears x destination htakes hstep => decodeCompress_compress htakes hstep,
    ⟨fun hall => ?_, fun h x destination htakes => ?_⟩, inStep_never⟩
  · by_contra h
    have hroom := CompressFormat.room_ge (f := f) (by omega)
    have hfirst := f.first_bounds
    obtain ⟨m, hm⟩ : ∃ m, 2 * m = f.narrow * (f.narrow + 1) :=
      ⟨f.narrow * (f.narrow + 1) / 2, Nat.mul_div_cancel' (Nat.even_mul_succ_self _).two_dvd⟩
    have htakes : OutBuffer.Takes ⟨true, m + 1⟩ (List.replicate (m + 1) (0 : UInt8)).length :=
      ⟨nofun, by rw [List.length_replicate]⟩
    exact decodeCompress_skips (by omega)
      (length_tokens_zeros (by rw [CompressFormat.narrow]; omega) hm) htakes (hall _ _ htakes)
  · exact decodeCompress_compress htakes ((inStep_never x).2 (.inl h))

end Never

def defaultFormat : CompressFormat := ⟨16, true, by decide, by decide⟩

/-- 295297 zeros, which have 769 codes, are not decoded. -/
theorem decodeCompress_zeros :
    decodeCompress (defaultFormat.compress (fun _ => false) (List.replicate 295297 0))
      ⟨true, 295297⟩ ≠ .ok (List.replicate 295297 0) := by
  have hnarrow : defaultFormat.narrow = 768 := rfl
  have hlength := length_tokens_zeros (f := defaultFormat) (n := 768) (m := 295296)
    (by decide) (by decide)
  exact decodeCompress_skips (by decide) (by rw [hlength, hnarrow])
    ⟨nofun, by rw [List.length_replicate]⟩

end KernelHttp.Http1
