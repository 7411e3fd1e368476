/-
  Table size updates between two header blocks (RFC 7541 Section 4.2).

  Only the last size is remembered for the next block, though every one evicts entries at once.
-/
import KernelHttp.Hpack.Secrecy

namespace KernelHttp

open Fifo

namespace HpackEncoder

/-- The calls of `UpdateMaxTableSize` between two blocks. -/
def announce (e : HpackEncoder) (sizes : List ℕ) : HpackEncoder :=
  sizes.foldl updateMaxTableSize e

/-- Encoder and decoder hold the same entries under the same bound, and no update
    is pending. -/
structure InStep (e : HpackEncoder) (d : HpackDecoder) : Prop where
  encoderWf : e.table.Wf
  decoderWf : d.table.Wf
  bound : e.table.maxSize = e.maxTableSize
  settled : e.tableSizeUpdatePending = false
  same : e.table.Same d.table

/-- What the calls leave: the encoder keeps what fitted every size, and if some
    call changed the size, the last size is pending. -/
structure Announced (e e' : HpackEncoder) (sizes : List ℕ) : Prop where
  wf : e'.table.Wf
  bound : e'.table.maxSize = e'.maxTableSize
  headers : e'.table.headers = sizes.foldl (fun hs n => fit headerSize n hs) e.table.headers
  pending : e'.tableSizeUpdatePending = true →
    e'.pendingTableSize = e'.maxTableSize ∧ e'.maxTableSize ∈ sizes
  quiet : e'.tableSizeUpdatePending = false → e'.maxTableSize = e.maxTableSize

variable {e : HpackEncoder}

theorem announce_spec (hwf : e.table.Wf) (hb : e.table.maxSize = e.maxTableSize)
    (hs : e.tableSizeUpdatePending = false) (sizes : List ℕ) :
    Announced e (e.announce sizes) sizes := by
  unfold announce
  induction sizes using List.reverseRecOn with
  | nil => exact ⟨hwf, hb, rfl, fun h => by simp [hs] at h, fun _ => rfl⟩
  | append_singleton sizes n ih =>
    rw [List.foldl_append, List.foldl_cons, List.foldl_nil]
    generalize sizes.foldl updateMaxTableSize e = e' at ih
    unfold updateMaxTableSize
    split_ifs with heq
    · -- the size is already in force
      have hfit : fit headerSize n e'.table.headers = e'.table.headers := by
        refine fit_eq_self ?_
        rw [← ih.wf.size, ← heq, ← ih.bound]
        exact ih.wf.bound
      refine ⟨ih.wf, ih.bound, ?_, fun hp => ?_, ih.quiet⟩
      · rw [List.foldl_append, List.foldl_cons, List.foldl_nil, ← ih.headers, hfit]
      · obtain ⟨hlast, hmem⟩ := ih.pending hp
        exact ⟨hlast, List.mem_append_left _ hmem⟩
    · obtain ⟨h1, h2, h3, -⟩ := HpackDynamicTable.updateMaxSize_spec ih.wf.toFits n
      refine ⟨h1, h3, ?_, fun _ => ⟨rfl, by simp⟩, fun h => by simp at h⟩
      rw [List.foldl_append, List.foldl_cons, List.foldl_nil, ← ih.headers]
      exact h2

/-- The updates at the start of the next block. -/
def updateOctets (e : HpackEncoder) : Bytes :=
  if e.tableSizeUpdatePending then integerOctets (e.pendingTableSize % 2 ^ 32) 0x20 5 else []

theorem encodeLoop_isPrefix {capacity : ℕ} : ∀ (hs : List HttpHeader) {t t' : HpackDynamicTable}
    {dest block : Bytes}, dest.length ≤ capacity →
    encodeLoop capacity t hs dest = (.ok block, t') → dest <+: block := by
  intro hs
  induction hs with
  | nil =>
    intro t t' dest block _ he
    simp only [encodeLoop, Prod.mk.injEq, Except.ok.injEq] at he
    rw [he.1]
  | cons a hs ih =>
    intro t t' dest block hd he
    cases hf : encodeField t a dest capacity with
    | mk result t₁ =>
      cases result with
      | error status => simp [encodeLoop, hf] at he
      | ok dest₁ =>
        obtain ⟨h1, h2, -⟩ := encodeField_ok hd hf
        have hrest : encodeLoop capacity t₁ hs dest₁ = (.ok block, t') := by
          simpa [encodeLoop, hf] using he
        have hdest : dest <+: dest₁ := h1 ▸ List.prefix_append _ _
        exact hdest.trans (ih h2 hrest)

theorem encode_updates {e' : HpackEncoder} {hs : List HttpHeader} {capacity : ℕ} {block : Bytes}
    (h : e.encode hs capacity = (.ok block, e')) :
    (e.encode [] capacity).1 = .ok e.updateOctets ∧ e.updateOctets <+: block := by
  unfold encode at h ⊢
  unfold updateOctets
  rw [writeSizeUpdate_eq] at h ⊢
  cases hp : e.tableSizeUpdatePending with
  | true =>
    simp only [hp, if_true] at h ⊢
    split_ifs at h ⊢ with hc
    · simp only [Prod.mk.injEq] at h
      refine ⟨rfl, ?_⟩
      exact encodeLoop_isPrefix hs hc (Prod.ext h.1 rfl)
    · simp at h
  | false =>
    simp only [Bool.false_eq_true, if_false]
    exact ⟨rfl, List.nil_prefix⟩

theorem decode_updates {d : HpackDecoder} (l : DecodeLimits)
    (hp : e.tableSizeUpdatePending = true → e.pendingTableSize = e.maxTableSize ∧
      e.maxTableSize < 2 ^ 32 ∧ e.maxTableSize ≤ d.maxTableSize) :
    d.decode l e.updateOctets = (.ok [], { d with table :=
      if e.tableSizeUpdatePending then d.table.updateMaxSize e.maxTableSize else d.table }) := by
  unfold updateOctets HpackDecoder.decode
  cases hpend : e.tableSizeUpdatePending with
  | false => rfl
  | true =>
    obtain ⟨hlast, hlt, hle⟩ := hp hpend
    simp only [if_true, hlast, Nat.mod_eq_of_lt hlt]
    set octets := integerOctets e.maxTableSize 0x20 5 with hoctets
    obtain ⟨byte, tl, hcons, hturn⟩ := decodeTurn_sizeUpdate l
      { table := d.table, rest := octets } [] hlt hle rfl (by simp [hoctets])
    have hpos : 0 < octets.length := List.length_pos_iff.2 (integerOctets_ne_nil _ _ _)
    obtain ⟨fuel, hfuel⟩ : ∃ n, octets.length = n + 1 := ⟨octets.length - 1, by omega⟩
    have hdone : ∀ (n : ℕ) (s : DecodeState), s.rest = [] →
        decodeLoop l d.maxTableSize n s = .ok s := by
      intro n s hs
      cases n with
      | zero => rfl
      | succ n => rw [decodeLoop, hs]
    rw [hfuel, decodeLoop]
    simp only at hcons
    simp only [hcons, bind, Except.bind] at hturn ⊢
    rw [hturn]
    simp only [hdone _ { table := d.table.updateMaxSize e.maxTableSize, rest := [] } rfl]

/-- **Table sizes between two blocks**: reading the updates at the start of the
    next block leaves the decoder with the entries of the encoder iff the entries
    that fit the last size fit every size announced since the last block. -/
theorem sizeUpdates_same_iff {e : HpackEncoder} {d : HpackDecoder} (h : InStep e d)
    {sizes : List ℕ} (hsizes : ∀ n ∈ sizes, n < 2 ^ 32 ∧ n ≤ d.maxTableSize)
    {hs : List HttpHeader} {capacity : ℕ} {block : Bytes} {e' : HpackEncoder}
    (hencode : (e.announce sizes).encode hs capacity = (.ok block, e')) (l : DecodeLimits) :
    ∃ updates fields d', block = updates ++ fields ∧
      ((e.announce sizes).encode [] capacity).1 = .ok updates ∧
      d.decode l updates = (.ok [], d') ∧
      ((e.announce sizes).table.Same d'.table ↔
        ∀ n ∈ sizes, total headerSize
          (fit headerSize (e.announce sizes).maxTableSize e.table.headers) ≤ n) := by
  have ha := announce_spec h.encoderWf h.bound h.settled sizes
  obtain ⟨hempty, fields, hblock⟩ := encode_updates hencode
  generalize e.announce sizes = e₁ at *
  have hlimit : e₁.tableSizeUpdatePending = true → e₁.pendingTableSize = e₁.maxTableSize ∧
      e₁.maxTableSize < 2 ^ 32 ∧ e₁.maxTableSize ≤ d.maxTableSize := fun hp =>
    ⟨(ha.pending hp).1, hsizes _ (ha.pending hp).2⟩
  refine ⟨e₁.updateOctets, fields, _, hblock.symm, hempty, decode_updates l hlimit, ?_⟩
  -- what the decoder keeps
  have hdecoder : ∀ t, t = (if e₁.tableSizeUpdatePending = true then
      d.table.updateMaxSize e₁.maxTableSize else d.table) →
      t.headers = fit headerSize e₁.maxTableSize e.table.headers ∧
        t.maxSize = e₁.table.maxSize := by
    rintro t rfl
    cases hp : e₁.tableSizeUpdatePending with
    | true =>
      obtain ⟨-, h2, h3, -⟩ :=
        HpackDynamicTable.updateMaxSize_spec h.decoderWf.toFits e₁.maxTableSize
      simp only [if_true, h2, h3, h.same.headers, ha.bound, and_self]
    | false =>
      have hfit : fit headerSize e.maxTableSize e.table.headers = e.table.headers := by
        refine fit_eq_self ?_
        rw [← h.encoderWf.size, ← h.bound]
        exact h.encoderWf.bound
      simp only [Bool.false_eq_true, if_false, h.same.headers, h.same.maxSize, ha.bound,
        ha.quiet hp, h.bound, hfit, and_self]
  obtain ⟨hheaders, hmax⟩ := hdecoder _ rfl
  have hlast : total headerSize (sizes.foldl (fun hs n => fit headerSize n hs) e.table.headers) ≤
      e₁.maxTableSize := by
    rw [← ha.headers, ← ha.wf.size, ← ha.bound]
    exact ha.wf.bound
  rw [← foldl_fit_eq_iff hlast, ← ha.headers]
  constructor
  · intro hsame
    rw [← hsame.headers]
    exact hheaders
  · intro heq
    exact ⟨hheaders.trans heq.symm, hmax⟩

/-- A request that enters the tables of both sides, and the buffers of its reader. -/
def oneField : List HttpHeader := [⟨text "x-id", text "7"⟩]

def oneFieldLimits : DecodeLimits := { headerCapacity := 8, nameValueCapacity := 128 }

/-- The encoder behind the block of that request. -/
def usedEncoder : HpackEncoder := ((initializeEncoder 4096).encode oneField 64).2

def usedDecoder : HpackDecoder :=
  ((HpackDecoder.initializeDecoder 4096).decode oneFieldLimits
    (((initializeEncoder 4096).encode oneField 64).1.toOption.getD [])).2

theorem used_inStep : InStep usedEncoder usedDecoder := by
  have hstart : Synced (initializeEncoder 4096) (HpackDecoder.initializeDecoder 4096) :=
    synced_initialize 4096 (by decide)
  have hok : ((initializeEncoder 4096).encode oneField 64).1 ≠ .error statusBufferTooSmall := by
    decide +kernel
  have hvalid : ∀ a ∈ oneField, ValidHeader a := by decide
  have hroom : Enough oneFieldLimits 0 0 0 oneField := by decide
  obtain ⟨block, e', d', he, hd, hsync, -⟩ := decode_encode hstart hvalid hroom (.inl (by simp [initializeEncoder, HpackDynamicTable.initializeTable_allocated])) hok
  have hencoder : usedEncoder = e' := by rw [usedEncoder, he]
  have hdecoder : usedDecoder = d' := by
    rw [usedDecoder, he]
    exact congrArg Prod.snd hd
  have hwf := hsync.tables.encoderWf
  have hdwf := hsync.decoderWf
  rw [← hencoder] at hwf
  rw [← hdecoder] at hdwf
  exact ⟨hwf, hdwf, by decide +kernel, by decide +kernel, ⟨by decide +kernel, by decide +kernel⟩⟩

example : usedDecoder.table.headers = oneField := by decide +kernel

/-- Two sizes, the smaller one last. -/
theorem sizeUpdates_same_iff_shrink :
    ∃ updates fields d', ((usedEncoder.announce [100, 40]).encode oneField 64).1 =
        .ok (updates ++ fields) ∧
      usedDecoder.decode oneFieldLimits updates = (.ok [], d') ∧
      (usedEncoder.announce [100, 40]).table.Same d'.table := by
  have hsome : ((usedEncoder.announce [100, 40]).encode oneField 64).1.toOption.isSome = true := by
    decide +kernel
  cases hencode : (usedEncoder.announce [100, 40]).encode oneField 64 with
  | mk result e' =>
  rw [hencode] at hsome
  cases result with
  | error status => simp [Except.toOption] at hsome
  | ok block =>
  have hsizes : ∀ n ∈ [100, 40], n < 2 ^ 32 ∧ n ≤ usedDecoder.maxTableSize := by decide +kernel
  obtain ⟨updates, fields, d', h1, -, h3, h4⟩ :=
    sizeUpdates_same_iff used_inStep hsizes hencode oneFieldLimits
  exact ⟨updates, fields, d', by rw [h1], h3, h4.2 (by decide +kernel)⟩

/-- The table shrinks to nothing and grows again: only 4096 is announced, so the
    decoder keeps the entry that the encoder has evicted. -/
theorem sizeUpdates_lost :
    InStep usedEncoder usedDecoder ∧ ∃ updates fields,
      ((usedEncoder.announce [0, 4096]).encode oneField 64).1 = .ok (updates ++ fields) ∧
      ((usedEncoder.announce [0, 4096]).encode [] 64).1 = .ok updates ∧
      (usedDecoder.decode oneFieldLimits updates).1 = .ok [] ∧
      (usedDecoder.decode oneFieldLimits updates).2.table.headers = oneField ∧
      (usedEncoder.announce [0, 4096]).table.headers = [] := by
  refine ⟨used_inStep, integerOctets 4096 0x20 5,
    fieldOctets (.initializeTable 4096) ⟨text "x-id", text "7"⟩, ?_⟩
  decide +kernel

end HpackEncoder

end KernelHttp
