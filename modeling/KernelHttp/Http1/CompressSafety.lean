/-
  LZW decoding is safe on every input (`DecodeCompress`).

  A prefix is written once, when it is smaller than its entry; a clear sets the tables back to
  empty, and what stands behind `nextCode` is not read.
-/
import KernelHttp.Http1.Coding
import KernelHttp.Lib.Incremental
import KernelHttp.Lib.Loop

namespace KernelHttp.Http1

open Incremental Loop

/-! ## Turns -/

/-- The state behind a step to longer codes. -/
def compressWiden (maxBits : ℕ) (st : CompressState) : CompressState :=
  if st.nextCode > 2 ^ st.codeBits - 1 ∧ st.codeBits < maxBits then
    { st with
      bitOffset := alignCompressBitOffset st.bitOffset st.codeBits
      codeBits := st.codeBits + 1 }
  else st

/-- The state behind the reading of a code. -/
def compressAdvance (maxBits : ℕ) (st : CompressState) : CompressState :=
  { compressWiden maxBits st with
    bitOffset := (compressWiden maxBits st).bitOffset + (compressWiden maxBits st).codeBits }

/-- There is a code to read. -/
def compressReady (d : Bytes) (st : CompressState) : Bool :=
  hasCompleteCompressCode (d.length * 8) st.bitOffset st.codeBits

/-- One turn of the loop of `DecodeCompressWithTables`. -/
def compressTurn (d : Bytes) (destination : OutBuffer) (blockMode : Bool) (maxBits : ℕ)
    (st : CompressState) : Turn CompressState (Except NTSTATUS Bytes) :=
  if ¬ compressReady d st then .done (.ok st.output)
  else if ¬ compressReady d (compressWiden maxBits st) then
    .done (.ok (compressWiden maxBits st).output)
  else
    match readCompressCode d (compressWiden maxBits st).bitOffset
      (compressWiden maxBits st).codeBits with
    | none => .done (.error statusInvalidNetworkResponse)
    | some code =>
      if blockMode ∧ code = 256 then
        .again { compressAdvance maxBits st with codeBits := 9, nextCode := 257, oldCode := none }
      else
        match compressCode destination (2 ^ maxBits) (compressAdvance maxBits st) code with
        | .error status => .done (.error status)
        | .ok st => .again st

variable {d : Bytes} {destination : OutBuffer} {blockMode : Bool} {maxBits : ℕ}
  {st st' : CompressState}

theorem compressLoop_run (n : ℕ) (st : CompressState) :
    compressLoop d destination blockMode maxBits n st =
      run (compressTurn d destination blockMode maxBits) (fun st => .ok st.output) n st := by
  induction n generalizing st with
  | zero => rfl
  | succ n ih =>
    change (if ¬ compressReady d st then (.ok st.output : Except NTSTATUS Bytes)
      else if ¬ compressReady d (compressWiden maxBits st) then
        .ok (compressWiden maxBits st).output
      else
        match readCompressCode d (compressWiden maxBits st).bitOffset
          (compressWiden maxBits st).codeBits with
        | none => .error statusInvalidNetworkResponse
        | some code =>
          if blockMode ∧ code = 256 then
            compressLoop d destination blockMode maxBits n
              { compressAdvance maxBits st with codeBits := 9, nextCode := 257, oldCode := none }
          else
            match compressCode destination (2 ^ maxBits) (compressAdvance maxBits st) code with
            | .error status => .error status
            | .ok st => compressLoop d destination blockMode maxBits n st) = _
    rw [run, compressTurn]
    by_cases hready : compressReady d st
    · by_cases hready' : compressReady d (compressWiden maxBits st)
      · simp only [hready, hready', not_true_eq_false, if_false]
        cases readCompressCode d (compressWiden maxBits st).bitOffset
          (compressWiden maxBits st).codeBits with
        | none => rfl
        | some code =>
          dsimp only
          by_cases hclear : blockMode ∧ code = 256
          · rw [if_pos hclear, if_pos hclear, ih]
          · rw [if_neg hclear, if_neg hclear]
            cases compressCode destination (2 ^ maxBits) (compressAdvance maxBits st) code with
            | error status => rfl
            | ok st => exact ih st
      · rw [if_neg (not_not.2 hready), if_pos hready', if_neg (not_not.2 hready), if_pos hready']
    · rw [if_pos hready, if_pos hready]

/-- What a turn that goes on has done. -/
theorem compressTurn_again (h : compressTurn d destination blockMode maxBits st = .again st') :
    compressReady d (compressWiden maxBits st) = true ∧ ∃ code,
      readCompressCode d (compressWiden maxBits st).bitOffset
        (compressWiden maxBits st).codeBits = some code ∧
      ((blockMode = true ∧ st' = { compressAdvance maxBits st with
          codeBits := 9, nextCode := 257, oldCode := none }) ∨
        ((blockMode = true → code ≠ 256) ∧
          compressCode destination (2 ^ maxBits) (compressAdvance maxBits st) code = .ok st')) := by
  rw [compressTurn] at h
  split_ifs at h with hready hready'
  refine ⟨hready', ?_⟩
  split at h
  · cases h
  · case h_2 code hread =>
    refine ⟨code, hread, ?_⟩
    split_ifs at h with hclear
    · injection h with h
      exact .inl ⟨hclear.1, h.symm⟩
    · split at h
      · cases h
      · case h_2 hcode =>
        injection h with h
        subst h
        exact .inr ⟨fun hblock hcode => hclear ⟨hblock, hcode⟩, hcode⟩

/-! ## Reading -/

theorem compressReady_le (h : compressReady d st = true) :
    0 < st.codeBits ∧ st.bitOffset + st.codeBits ≤ d.length * 8 := by
  rw [compressReady, hasCompleteCompressCode] at h
  split_ifs at h with hfew
  have hlt := of_decide_eq_true h
  omega

theorem le_compressWiden (st : CompressState) :
    st.bitOffset ≤ (compressWiden maxBits st).bitOffset := by
  rw [compressWiden]
  split_ifs
  · dsimp only
    rw [alignCompressBitOffset]
    split_ifs
    · exact le_rfl
    · have hmod := Nat.mod_lt (st.bitOffset + 8 * st.codeBits - 1)
        (show 0 < 8 * st.codeBits by omega)
      omega
  · exact le_rfl

theorem readCompressCode_ready (h : compressReady d st = true) (hbits : st.codeBits ≤ 16) :
    ∃ code, readCompressCode d st.bitOffset st.codeBits = some code ∧ code < 2 ^ st.codeBits := by
  obtain ⟨hpos, hle⟩ := compressReady_le h
  have hbit : ∀ (l : List ℕ), l.foldr
      (fun bit n => 2 * n + (compressBit d (st.bitOffset + bit)).toNat) 0 < 2 ^ l.length := by
    intro l
    induction l with
    | nil => exact Nat.one_pos
    | cons bit l ih =>
      have htwo := Bool.toNat_lt (compressBit d (st.bitOffset + bit))
      rw [List.foldr_cons, List.length_cons, Nat.pow_succ]
      omega
  have hlt := hbit (List.range st.codeBits)
  rw [List.length_range] at hlt
  exact ⟨_, if_neg (by omega), hlt⟩

theorem lt_compressAdvance (h : compressReady d (compressWiden maxBits st) = true) :
    st.bitOffset < (compressAdvance maxBits st).bitOffset := by
  have hpos := (compressReady_le h).1
  have hle := @le_compressWiden maxBits st
  rw [compressAdvance]
  dsimp only
  omega

theorem compressReady_of_end (h : d.length * 8 ≤ st.bitOffset) : compressReady d st = false := by
  by_contra hready
  have hle := compressReady_le (Bool.eq_true_of_not_eq_false hready)
  omega

theorem emitReverseStack_fits {stack output output' : Bytes}
    (h : emitReverseStack destination stack output = .ok output')
    (hle : output.length ≤ destination.capacity) : output'.length ≤ destination.capacity := by
  rw [emitReverseStack] at h
  split_ifs at h with hfits
  rw [← Except.ok.inj h, List.length_append]
  rcases hfits with rfl | ⟨-, hfits⟩
  · exact hle
  · exact hfits

variable {maxCodes : ℕ}

/-- What the part of a turn behind the reading of a code has done. -/
theorem compressCode_ok {code : ℕ} (h : compressCode destination maxCodes st code = .ok st') :
    (code < st.nextCode ∨ st.oldCode ≠ none ∧ code = st.nextCode) ∧ ∃ stack output,
      st' = compressTable maxCodes st code stack output ∧
        (st.output.length ≤ destination.capacity → output.length ≤ destination.capacity) := by
  rw [compressCode_eq] at h
  obtain ⟨⟨stack, extra⟩, hstack, h⟩ := bind_eq_ok h
  obtain ⟨first, hfirst, h⟩ := bind_eq_ok h
  obtain ⟨output, houtput, h⟩ := bind_eq_ok h
  refine ⟨?_, stack, output, (Except.ok.inj h).symm,
    fun hle => emitReverseStack_fits houtput (emitReverseStack_fits hfirst hle)⟩
  by_cases hcode : code < st.nextCode
  · exact .inl hcode
  · refine .inr ?_
    rw [compressStack, if_neg hcode] at hstack
    split at hstack
    · cases hstack
    · case h_2 hold =>
      split_ifs at hstack with hnext
      exact ⟨by rw [hold]; exact Option.some_ne_none _, not_not.1 hnext⟩

theorem compressTable_none {code : ℕ} (h : st.oldCode = none ∨ maxCodes ≤ st.nextCode)
    (stack output : Bytes) :
    compressTable maxCodes st code stack output = { st with output, oldCode := some code } := by
  unfold compressTable
  dsimp only
  split
  · rfl
  · case h_2 hold =>
    have hfull := h.resolve_left (by rw [hold]; exact Option.some_ne_none _)
    rw [if_neg (not_lt.2 hfull)]

theorem compressTable_some {code old : ℕ} (hold : st.oldCode = some old)
    (hroom : st.nextCode < maxCodes) (stack output : Bytes) :
    compressTable maxCodes st code stack output =
      { st with
        output
        oldCode := some code
        prefixes := Function.update st.prefixes st.nextCode (old % 2 ^ 16)
        suffixes := Function.update st.suffixes st.nextCode (stack.headD 0)
        nextCode := st.nextCode + 1 } := by
  unfold compressTable
  simp only [hold, if_pos hroom]

theorem compressTable_bitOffset {code : ℕ} (stack output : Bytes) :
    (compressTable maxCodes st code stack output).bitOffset = st.bitOffset ∧
      (compressTable maxCodes st code stack output).codeBits = st.codeBits := by
  unfold compressTable
  dsimp only
  split
  · exact ⟨rfl, rfl⟩
  · split_ifs
    · exact ⟨rfl, rfl⟩
    · exact ⟨rfl, rfl⟩

/-! ## The tables -/

/-- The first code of a table. -/
def compressFirst (blockMode : Bool) : ℕ := if blockMode then 257 else 256

/-- The tables hold what was written since the last clear: entries with smaller prefixes. -/
structure TablesSound (destination : OutBuffer) (blockMode : Bool) (maxBits : ℕ)
    (st : CompressState) (written : List ℕ) : Prop where
  first : compressFirst blockMode ≤ st.nextCode
  last : st.nextCode ≤ 2 ^ maxBits
  old : ∀ c ∈ st.oldCode, c < st.nextCode ∧ (blockMode = true → c ≠ 256)
  prefixes : ∀ c, compressFirst blockMode ≤ c → c < st.nextCode →
    st.prefixes c < c ∧ (blockMode = true → st.prefixes c ≠ 256)
  written : ∀ c, c ∈ written ↔ compressFirst blockMode ≤ c ∧ c < st.nextCode
  bits : 9 ≤ st.codeBits ∧ st.codeBits ≤ maxBits
  output : st.output.length ≤ destination.capacity

/-- The entries written since the last clear, behind a turn. -/
def writtenBehind (st st' : CompressState) (written : List ℕ) : List ℕ :=
  if st'.oldCode = none then []
  else if st.nextCode < st'.nextCode then st.nextCode :: written
  else written

/-- The states of the loop, with the entries written since the last clear. -/
inductive Decoding (d : Bytes) (destination : OutBuffer) (blockMode : Bool) (maxBits : ℕ) :
    CompressState → List ℕ → Prop
  | start : Decoding d destination blockMode maxBits { nextCode := compressFirst blockMode } []
  | turn {st st' : CompressState} {written : List ℕ}
      (h : Decoding d destination blockMode maxBits st written)
      (hturn : compressTurn d destination blockMode maxBits st = .again st') :
      Decoding d destination blockMode maxBits st' (writtenBehind st st' written)

variable {written : List ℕ}

theorem compressFirst_le (blockMode : Bool) (h : 9 ≤ maxBits) :
    compressFirst blockMode ≤ 2 ^ maxBits := by
  have hpow : 2 ^ 9 ≤ 2 ^ maxBits := Nat.pow_le_pow_right (by decide) h
  rw [compressFirst]
  split_ifs
  · exact le_trans (by decide) hpow
  · exact le_trans (by decide) hpow

theorem tablesSound_start (h : 9 ≤ maxBits) (st : CompressState) (hst : st.codeBits = 9)
    (hnext : st.nextCode = compressFirst blockMode) (hold : st.oldCode = none)
    (houtput : st.output.length ≤ destination.capacity) :
    TablesSound destination blockMode maxBits st [] where
  first := hnext.ge
  last := hnext ▸ compressFirst_le blockMode h
  old := by
    rw [hold]
    exact nofun
  prefixes c hc hlt := absurd (hnext ▸ hlt) (not_lt.2 hc)
  written c := by
    rw [hnext]
    constructor
    · exact nofun
    · exact fun h => absurd h.2 (not_lt.2 h.1)
  bits := ⟨hst.ge, hst ▸ h⟩
  output := houtput

/-- The step to longer codes and the reading of one leave the tables alone. -/
theorem TablesSound.advance (h : TablesSound destination blockMode maxBits st written) :
    TablesSound destination blockMode maxBits (compressAdvance maxBits st) written := by
  have hbits := h.bits
  rw [compressAdvance, compressWiden]
  split_ifs with hwiden
  · exact ⟨h.first, h.last, h.old, h.prefixes, h.written, ⟨by dsimp only; omega, hwiden.2⟩, h.output⟩
  · exact ⟨h.first, h.last, h.old, h.prefixes, h.written, h.bits, h.output⟩

/-- A code is entered behind the one before it. -/
theorem TablesSound.code (h : TablesSound destination blockMode maxBits st written)
    (hmax : maxBits ≤ 16) {code : ℕ} (hcode : code < 2 ^ maxBits)
    (hclear : blockMode = true → code ≠ 256)
    (hok : compressCode destination (2 ^ maxBits) st code = .ok st') :
    TablesSound destination blockMode maxBits st' (writtenBehind st st' written) := by
  obtain ⟨hentry, stack, output, rfl, houtput⟩ := compressCode_ok hok
  by_cases hfull : st.oldCode = none ∨ 2 ^ maxBits ≤ st.nextCode
  · have hlt : code < st.nextCode := by
      rcases hentry with hlt | ⟨hsome, -⟩
      · exact hlt
      · exact hcode.trans_le (hfull.resolve_left hsome)
    rw [writtenBehind, compressTable_none hfull, if_neg (by exact nofun), if_neg (lt_irrefl _)]
    refine ⟨h.first, h.last, ?_, h.prefixes, h.written, h.bits, houtput h.output⟩
    rintro c hc
    obtain rfl := Option.mem_some.1 hc
    exact ⟨hlt, hclear⟩
  · rw [not_or, not_le] at hfull
    obtain ⟨old, hold⟩ := Option.ne_none_iff_exists'.1 hfull.1
    obtain ⟨hlt, hblock⟩ := h.old old hold
    have hpow : 2 ^ maxBits ≤ 2 ^ 16 := Nat.pow_le_pow_right (by decide) hmax
    have hmod : old % 2 ^ 16 = old := Nat.mod_eq_of_lt (by omega)
    have hfirst := h.first
    rw [writtenBehind, compressTable_some hold hfull.2, if_neg (by exact nofun),
      if_pos (Nat.lt_succ_self _), hmod]
    refine ⟨hfirst.trans (Nat.le_succ _), hfull.2, ?_, ?_, ?_, h.bits, houtput h.output⟩
    · rintro c hc
      obtain rfl := Option.mem_some.1 hc
      exact ⟨by dsimp only; omega, hclear⟩
    · intro c hc hnext
      dsimp only at hnext ⊢
      rcases eq_or_ne c st.nextCode with rfl | hne
      · rw [Function.update_self]
        exact ⟨hlt, hblock⟩
      · rw [Function.update_of_ne hne]
        exact h.prefixes c hc (by omega)
    · intro c
      rw [List.mem_cons, h.written c]
      dsimp only
      omega

/-- **Every turn keeps the tables sound.** -/
theorem TablesSound.turn (h : TablesSound destination blockMode maxBits st written)
    (hmin : 9 ≤ maxBits) (hmax : maxBits ≤ 16)
    (hturn : compressTurn d destination blockMode maxBits st = .again st') :
    TablesSound destination blockMode maxBits st' (writtenBehind st st' written) := by
  have hadvance := h.advance
  obtain ⟨hready, code, hread, ⟨hblock, rfl⟩ | ⟨hclear, hok⟩⟩ := compressTurn_again hturn
  · rw [writtenBehind, if_pos rfl]
    exact tablesSound_start hmin _ rfl (by rw [compressFirst, if_pos hblock]) rfl hadvance.output
  · obtain ⟨code', hread', hlt⟩ := readCompressCode_ready hready
      (hadvance.bits.2.trans hmax)
    obtain rfl := Option.some.inj (hread.symm.trans hread')
    have hcode : code < 2 ^ maxBits :=
      hlt.trans_le (Nat.pow_le_pow_right (by decide) hadvance.bits.2)
    have hnext : (compressAdvance maxBits st).nextCode = st.nextCode := by
      rw [compressAdvance, compressWiden]
      split_ifs <;> rfl
    have hcoded := hadvance.code hmax hcode hclear hok
    rwa [writtenBehind, hnext, ← writtenBehind] at hcoded

theorem Decoding.sound (h : Decoding d destination blockMode maxBits st written)
    (hmin : 9 ≤ maxBits) (hmax : maxBits ≤ 16) :
    TablesSound destination blockMode maxBits st written := by
  induction h with
  | start => exact tablesSound_start hmin _ rfl rfl rfl (Nat.zero_le _)
  | turn _ hturn ih => exact ih.turn hmin hmax hturn

/-! ## Walks -/

/-- The entries that `ExpandCompressCode` reads for a code, in their order. -/
inductive Walks (st : CompressState) : ℕ → List ℕ → Prop
  | literal {code : ℕ} (h : code < 256) : Walks st code []
  | entry {code : ℕ} {entries : List ℕ} (h : 256 ≤ code)
      (hentries : Walks st (st.prefixes code) entries) : Walks st code (code :: entries)

theorem Walks.expand {code : ℕ} {entries : List ℕ} (h : Walks st code entries)
    (hlt : ∀ c ∈ entries, c < st.nextCode) : ∀ {n : ℕ} {stack : Bytes}, entries.length < n →
    ∃ out, expandCompressCode st n code stack = some out ∧
      out.length = stack.length + entries.length + 1 := by
  induction h with
  | literal h =>
    rintro (- | n) stack hn
    · exact absurd hn (Nat.not_lt_zero _)
    · exact ⟨_, if_pos h, rfl⟩
  | @entry code entries h _ ih =>
    rintro (- | n) stack hn
    · exact absurd hn (Nat.not_lt_zero _)
    rw [List.forall_mem_cons] at hlt
    rw [List.length_cons] at hn ⊢
    obtain ⟨out, hout, hlength⟩ := @ih hlt.2 n (st.suffixes code :: stack) (by omega)
    rw [List.length_cons] at hlength
    refine ⟨out, ?_, by omega⟩
    rw [expandCompressCode, if_neg (by omega), if_neg (not_le.2 hlt.1), hout]

theorem TablesSound.walk (h : TablesSound destination blockMode maxBits st written) (code : ℕ)
    (hcode : code < st.nextCode) (hclear : blockMode = true → code ≠ 256) :
    ∃ entries, Walks st code entries ∧ (∀ c ∈ entries, c ∈ written ∧ c ≤ code) ∧
      entries.Pairwise (· > ·) ∧ entries.length ≤ code - 255 := by
  induction code using Nat.strong_induction_on with
  | h code ih =>
    rcases Nat.lt_or_ge code 256 with hliteral | hentry
    · exact ⟨[], .literal hliteral, nofun, .nil, Nat.zero_le _⟩
    have hfirst : compressFirst blockMode ≤ code := by
      rw [compressFirst]
      split_ifs with hblock
      · have := hclear hblock
        omega
      · exact hentry
    obtain ⟨hlt, hne⟩ := h.prefixes code hfirst hcode
    obtain ⟨entries, hwalk, hentries, hsorted, hlength⟩ := ih _ hlt (hlt.trans hcode) hne
    refine ⟨code :: entries, .entry hentry hwalk, ?_, ?_, ?_⟩
    · rw [List.forall_mem_cons]
      exact ⟨⟨(h.written code).2 ⟨hfirst, hcode⟩, le_rfl⟩,
        fun c hc => ⟨(hentries c hc).1, (hentries c hc).2.trans hlt.le⟩⟩
    · exact List.pairwise_cons.2 ⟨fun c hc => (hentries c hc).2.trans_lt hlt, hsorted⟩
    · rw [List.length_cons]
      omega

/-! ## Writing -/

def appendOutputByte (destination : OutBuffer) (byte : UInt8) (output : Bytes) : Option Bytes :=
  if output.length ≥ destination.capacity ∨ ¬ destination.present then none
  else some (output ++ [byte])

/-- What `EmitReverseStack` has written when it returns, and whether that is all. -/
def emittedOctets (destination : OutBuffer) : Bytes → Bytes → Bytes × Bool
  | [], output => (output, true)
  | byte :: stack, output =>
    match appendOutputByte destination byte output with
    | none => (output, false)
    | some output => emittedOctets destination stack output

theorem emittedOctets_spec (stack output : Bytes) (h : output.length ≤ destination.capacity) :
    (emittedOctets destination stack output).1.length ≤ destination.capacity ∧
      emitReverseStack destination stack output =
        if (emittedOctets destination stack output).2 then
          .ok (emittedOctets destination stack output).1
        else .error statusBufferTooSmall := by
  induction stack generalizing output with
  | nil => exact ⟨h, by rw [emitReverseStack, if_pos (.inl rfl), List.append_nil]; rfl⟩
  | cons byte stack ih =>
    by_cases hfull : output.length ≥ destination.capacity ∨ ¬ destination.present
    · rw [emittedOctets, appendOutputByte, if_pos hfull]
      refine ⟨h, ?_⟩
      rw [emitReverseStack, if_neg]
      · rfl
      · rintro (hnil | ⟨hpresent, hfits⟩)
        · cases hnil
        · rw [List.length_cons] at hfits
          rcases hfull with hfull | hnull
          · omega
          · exact hnull hpresent
    · rw [emittedOctets, appendOutputByte, if_neg hfull]
      rw [not_or, not_le, not_not] at hfull
      have hlength : (output ++ [byte]).length = output.length + 1 := List.length_append
      obtain ⟨hle, heq⟩ := ih (output ++ [byte]) (by omega)
      refine ⟨hle, ?_⟩
      dsimp only
      rw [← heq, emitReverseStack, emitReverseStack, hlength, List.append_assoc]
      refine if_congr ?_ rfl rfl
      constructor
      · rintro (hnil | ⟨-, hfits⟩)
        · cases hnil
        · rw [List.length_cons] at hfits
          exact .inr ⟨hfull.2, by omega⟩
      · rintro (rfl | ⟨-, hfits⟩)
        · exact .inr ⟨hfull.2, hfull.1⟩
        · exact .inr ⟨hfull.2, by rw [List.length_cons]; omega⟩

/-! ## Safety -/

/-- A state of the loop is safe: entries are written below the size of the tables and have smaller
prefixes, a code that is read lies within the input, and for every code that
`ExpandCompressCode` is called with, its walk reads what was written since the last clear, each
entry once, and succeeds on the stack. -/
structure SafeAt (d : Bytes) (destination : OutBuffer) (blockMode : Bool) (maxBits : ℕ)
    (st : CompressState) (written : List ℕ) : Prop where
  tables : TablesSound destination blockMode maxBits st written
  below : ∀ c ∈ written, c < 2 ^ maxBits
  read : compressReady d (compressWiden maxBits st) = true →
    (compressWiden maxBits st).bitOffset + (compressWiden maxBits st).codeBits ≤ d.length * 8 ∧
      ∃ code, readCompressCode d (compressWiden maxBits st).bitOffset
        (compressWiden maxBits st).codeBits = some code
  walk : ∀ code, (code < st.nextCode ∧ (blockMode = true → code ≠ 256)) ∨ st.oldCode = some code →
    ∃ entries stack, Walks (compressAdvance maxBits st) code entries ∧
      (∀ c ∈ entries, c ∈ written) ∧ entries.Pairwise (· > ·) ∧
      expandCompressCode (compressAdvance maxBits st) (2 ^ maxBits) code [] = some stack ∧
      stack.length = entries.length + 1 ∧ stack.length ≤ 2 ^ maxBits

theorem Decoding.safe (h : Decoding d destination blockMode maxBits st written)
    (hmin : 9 ≤ maxBits) (hmax : maxBits ≤ 16) :
    SafeAt d destination blockMode maxBits st written where
  tables := h.sound hmin hmax
  below c hc := (((h.sound hmin hmax).written c).1 hc).2.trans_le (h.sound hmin hmax).last
  read hready := by
    obtain ⟨code, hcode, -⟩ :=
      readCompressCode_ready hready ((h.sound hmin hmax).advance.bits.2.trans hmax)
    exact ⟨(compressReady_le hready).2, code, hcode⟩
  walk code hcode := by
    have hsound := h.sound hmin hmax
    have hadvance := hsound.advance
    have hnext : (compressAdvance maxBits st).nextCode = st.nextCode := by
      rw [compressAdvance, compressWiden]
      split_ifs <;> rfl
    have hold : (compressAdvance maxBits st).oldCode = st.oldCode := by
      rw [compressAdvance, compressWiden]
      split_ifs <;> rfl
    obtain ⟨hlt, hclear⟩ : code < (compressAdvance maxBits st).nextCode ∧
        (blockMode = true → code ≠ 256) := by
      rcases hcode with hcode | hcode
      · rwa [hnext]
      · exact hadvance.old code (hold.trans hcode)
    obtain ⟨entries, hwalk, hentries, hsorted, hlength⟩ := hadvance.walk code hlt hclear
    have hlast := hadvance.last
    obtain ⟨stack, hstack, hlen⟩ := @Walks.expand _ _ _ hwalk
      (fun c hc => (hentries c hc).2.trans_lt hlt) (2 ^ maxBits) [] (by omega)
    rw [List.length_nil, Nat.zero_add] at hlen
    exact ⟨entries, stack, hwalk, fun c hc => (hentries c hc).1, hsorted, hstack, hlen, by omega⟩

theorem lt_of_again (h : compressTurn d destination blockMode maxBits st = .again st') :
    st.bitOffset < st'.bitOffset := by
  obtain ⟨hready, code, -, hclear | hcode⟩ := compressTurn_again h
  · rw [hclear.2]
    exact lt_compressAdvance hready
  · obtain ⟨-, stack, output, rfl, -⟩ := compressCode_ok hcode.2
    rw [(compressTable_bitOffset stack output).1]
    exact lt_compressAdvance hready

/-- With a turn for each bit that is left, the loop ends by itself. -/
theorem Decoding.ends (h : Decoding d destination blockMode maxBits st written) {n : ℕ}
    (hn : d.length * 8 ≤ st.bitOffset + n) :
    ∃ st' written' r, Decoding d destination blockMode maxBits st' written' ∧
      compressTurn d destination blockMode maxBits st' = .done r ∧
      compressLoop d destination blockMode maxBits n st = r := by
  rw [compressLoop_run]
  induction n generalizing st written with
  | zero =>
    refine ⟨st, written, .ok st.output, h, ?_, rfl⟩
    rw [compressTurn, compressReady_of_end hn, if_pos (by decide)]
  | succ n ih =>
    cases hturn : compressTurn d destination blockMode maxBits st with
    | done r => exact ⟨st, written, r, h, hturn, run_done hturn⟩
    | again st' =>
      have hlater := lt_of_again hturn
      rw [run_again hturn]
      exact ih (h.turn hturn) (by omega)

/-- A header that the decoder accepts, and what stands behind it. -/
def CompressHeader (compressed : Bytes) (flags : UInt8) (d : Bytes) : Prop :=
  compressed = 0x1F :: 0x9D :: flags :: d ∧ 9 ≤ flags.toNat % 32 ∧ flags.toNat % 32 ≤ 16

theorem decodeCompress_header (compressed : Bytes) (destination : OutBuffer) :
    (∃ flags d, CompressHeader compressed flags d) ∨
      decodeCompress compressed destination = .error statusInvalidNetworkResponse := by
  rcases compressed with - | ⟨magic0, - | ⟨magic1, - | ⟨flags, d⟩⟩⟩
  · exact .inr rfl
  · exact .inr rfl
  · exact .inr rfl
  by_cases hbad : magic0.toNat ≠ 0x1F ∨ magic1.toNat ≠ 0x9D ∨ flags.toNat % 32 < 9 ∨
      flags.toNat % 32 > 16
  · exact .inr (if_pos hbad)
  · simp only [not_or, not_not, not_lt] at hbad
    obtain ⟨h0, h1, hmin, hmax⟩ := hbad
    refine .inl ⟨flags, d, ?_, hmin, hmax⟩
    rw [UInt8.toNat_inj.1 (h0.trans (by decide : 0x1F = (0x1F : UInt8).toNat)),
      UInt8.toNat_inj.1 (h1.trans (by decide : 0x9D = (0x9D : UInt8).toNat))]

/-- **`DecodeCompress` is safe and ends**, on every input and for every destination: it refuses
the header, or every state of its loop is safe and one of them ends the loop with the result.
No call of `EmitReverseStack` writes beyond the destination. -/
theorem decodeCompress_safe (compressed : Bytes) (destination : OutBuffer) :
    ((∀ flags d, ¬ CompressHeader compressed flags d) ∧
        decodeCompress compressed destination = .error statusInvalidNetworkResponse ∨
      ∃ flags d, CompressHeader compressed flags d ∧
        (∀ st written, Decoding d destination (hasFlag flags 7) (flags.toNat % 32) st written →
          SafeAt d destination (hasFlag flags 7) (flags.toNat % 32) st written) ∧
        ∃ st written r, Decoding d destination (hasFlag flags 7) (flags.toNat % 32) st written ∧
          compressTurn d destination (hasFlag flags 7) (flags.toNat % 32) st = .done r ∧
          decodeCompress compressed destination = r) ∧
    ∀ stack output : Bytes, output.length ≤ destination.capacity →
      (emittedOctets destination stack output).1.length ≤ destination.capacity ∧
        emitReverseStack destination stack output =
          if (emittedOctets destination stack output).2 then
            .ok (emittedOctets destination stack output).1
          else .error statusBufferTooSmall := by
  refine ⟨?_, fun stack output => emittedOctets_spec stack output⟩
  by_cases hheader : ∃ flags d, CompressHeader compressed flags d
  · obtain ⟨flags, d, rfl, hmin, hmax⟩ := hheader
    refine .inr ⟨flags, d, ⟨rfl, hmin, hmax⟩, fun st written h => h.safe hmin hmax, ?_⟩
    obtain ⟨st, written, r, hdecoding, hdone, hloop⟩ :=
      (@Decoding.start d destination (hasFlag flags 7) (flags.toNat % 32)).ends
        (show d.length * 8 ≤ 0 + d.length * 8 by omega)
    refine ⟨st, written, r, hdecoding, hdone, ?_⟩
    rw [← hloop, decodeCompress]
    refine (if_neg ?_).trans rfl
    rintro (h | h | h | h)
    · exact h rfl
    · exact h rfl
    · exact absurd hmin (not_le.2 h)
    · exact absurd hmax (not_le.2 h)
  · refine .inl ⟨fun flags d h => hheader ⟨flags, d, h⟩, ?_⟩
    exact (decodeCompress_header compressed destination).resolve_left hheader

end KernelHttp.Http1
