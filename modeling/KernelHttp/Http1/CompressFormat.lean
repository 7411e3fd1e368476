/-
  The format of compress(1) and its decoder (`DecodeCompressWithTables`).

  Codes come in groups of eight of the current width, counted from the first code of that width.
-/
import KernelHttp.Http1.Coding
import KernelHttp.Lib.BitPacking
import KernelHttp.Lib.Lzw

namespace KernelHttp.Http1

open BitPacking Lzw

/-! ## The format -/

/-- The parameters of the format. -/
structure CompressFormat where
  maxBits : ℕ
  blockMode : Bool
  min_le : 9 ≤ maxBits
  le_max : maxBits ≤ 16

namespace CompressFormat

variable (f : CompressFormat)

/-- The first code of an entry. -/
def first : ℕ := if f.blockMode then 257 else 256

/-- The number of entries. -/
def room : ℕ := 2 ^ f.maxBits - f.first

def codeOf : Token UInt8 → ℕ
  | .literal c => c.toNat
  | .entry i => f.first + i
  | .clear => 256

/-- The code of the next entry, before a code is written; `sent` codes were written since the
    dictionary was emptied, and the last of them has added its entry only now. -/
def free (sent : ℕ) : ℕ := f.first + min (sent - 1) f.room

end CompressFormat

/-- A run of codes of one width. -/
structure Run where
  start : ℕ := 0
  codes : ℕ := 0
  width : ℕ := 9
  sent : ℕ := 0
deriving DecidableEq

def Run.position (r : Run) : ℕ := r.start + r.width * r.codes

/-- The bit behind the last group of a run, filled up. -/
def Run.groupEnd (r : Run) : ℕ := r.start + r.width * (8 * ((r.codes + 7) / 8))

namespace CompressFormat

variable (f : CompressFormat)

/-- The next code is wider than those of the run. -/
def Grows (r : Run) : Prop := 2 ^ r.width ≤ f.free r.sent ∧ r.width < f.maxBits

instance (r : Run) : Decidable (f.Grows r) := inferInstanceAs (Decidable (_ ∧ _))

/-- The run of the next code. -/
def widen (r : Run) : Run :=
  if f.Grows r then ⟨r.groupEnd, 0, r.width + 1, r.sent⟩ else r

def next (r : Run) : Token UInt8 → Run
  | .clear => { start := Run.groupEnd { f.widen r with codes := (f.widen r).codes + 1 } }
  | _ => { f.widen r with codes := (f.widen r).codes + 1, sent := r.sent + 1 }

/-- The bits of a token: what fills up the group before it, its code, and what fills up the group
    behind a clear code. -/
def tokenBits (r : Run) (t : Token UInt8) : List Bool :=
  List.replicate ((f.widen r).position - r.position) false ++
    (codeBits (f.widen r).width (f.codeOf t) ++
      List.replicate ((f.next r t).position - ((f.widen r).position + (f.widen r).width)) false)

def tokensBits : Run → List (Token UInt8) → List Bool
  | _, [] => []
  | r, t :: ts => f.tokenBits r t ++ tokensBits (f.next r t) ts

def flags : ℕ := f.maxBits + if f.blockMode then 128 else 0

/-- The tokens of a text, with a clear code wherever `clears` wants one. -/
def tokens (clears : Bytes → Bool) (x : Bytes) : List (Token UInt8) :=
  encode f.room (fun rest => f.blockMode && clears rest) x

/-- **The format.** -/
def compress (clears : Bytes → Bool) (x : Bytes) : Bytes :=
  0x1F :: 0x9D :: UInt8.ofNat f.flags :: packBits (f.tokensBits {} (f.tokens clears x))

theorem first_bounds : 256 ≤ f.first ∧ f.first ≤ 257 ∧ f.first + f.room = 2 ^ f.maxBits := by
  have hpow : 2 ^ 9 ≤ 2 ^ f.maxBits := Nat.pow_le_pow_right (by decide) f.min_le
  unfold room first
  split_ifs <;> omega

end CompressFormat

/-- The decoder stays in step: the group that is filled up before a wider code starts where the
    groups of its width start in the whole of the codes, and a clear code is the last of its group. -/
def InStep (f : CompressFormat) : Run → List (Token UInt8) → Prop
  | _, [] => True
  | r, t :: ts =>
    (f.Grows r → 8 * r.width ∣ r.start) ∧ (t = .clear → 8 ∣ (f.widen r).codes + 1) ∧
      InStep f (f.next r t) ts

/-! ## Positions -/

section Positions

variable {f : CompressFormat} {r : Run}

theorem Run.position_le_groupEnd (r : Run) : r.position ≤ r.groupEnd :=
  Nat.add_le_add_left (Nat.mul_le_mul_left _ (by omega)) _

theorem CompressFormat.widen_of_grows (h : f.Grows r) :
    f.widen r = ⟨r.groupEnd, 0, r.width + 1, r.sent⟩ := if_pos h

theorem CompressFormat.widen_of_not (h : ¬ f.Grows r) : f.widen r = r := if_neg h

theorem CompressFormat.position_widen_le (r : Run) : r.position ≤ (f.widen r).position := by
  by_cases h : f.Grows r
  · rw [CompressFormat.widen_of_grows h]
    exact r.position_le_groupEnd
  · rw [CompressFormat.widen_of_not h]

theorem CompressFormat.position_next_le (r : Run) (t : Token UInt8) :
    (f.widen r).position + (f.widen r).width ≤ (f.next r t).position := by
  have hcode : (f.widen r).position + (f.widen r).width =
      Run.position { f.widen r with codes := (f.widen r).codes + 1 } := by
    simp only [Run.position]
    ring
  rw [hcode]
  cases t with
  | literal c => exact le_rfl
  | entry i => exact le_rfl
  | clear => exact Run.position_le_groupEnd _

theorem CompressFormat.position_next_of_ne {t : Token UInt8} (h : t ≠ .clear) :
    (f.next r t).position = (f.widen r).position + (f.widen r).width := by
  cases t with
  | literal c =>
    simp only [CompressFormat.next, Run.position]
    ring
  | entry i =>
    simp only [CompressFormat.next, Run.position]
    ring
  | clear => exact absurd rfl h

theorem CompressFormat.length_tokenBits (r : Run) (t : Token UInt8) :
    (f.tokenBits r t).length + r.position = (f.next r t).position := by
  have h1 := CompressFormat.position_widen_le (f := f) r
  have h2 := CompressFormat.position_next_le (f := f) r t
  rw [CompressFormat.tokenBits, List.length_append, List.length_append, List.length_replicate,
    List.length_replicate, length_codeBits]
  omega

theorem align_position (hw : r.width ≠ 0) (h : 8 * r.width ∣ r.start) :
    alignCompressBitOffset r.position r.width = r.groupEnd := by
  obtain ⟨k, hk⟩ := h
  have hpos : 0 < 8 * r.width := by omega
  -- the octets of codes that are not full groups
  obtain ⟨q, m, hq, hm⟩ : ∃ q m, r.codes = 8 * q + m ∧ m < 8 :=
    ⟨r.codes / 8, r.codes % 8, by omega, Nat.mod_lt _ (by decide)⟩
  have hcodes : r.width * r.codes = 8 * r.width * q + r.width * m := by
    rw [hq]
    ring
  rw [alignCompressBitOffset, if_neg hw, Run.position, Run.groupEnd, hcodes, hk]
  by_cases h0 : m = 0
  · subst h0
    have hgroup : (r.codes + 7) / 8 = q := by omega
    have hsum : 8 * r.width * k + (8 * r.width * q + r.width * 0) + 8 * r.width - 1 =
        8 * r.width * (k + q) + (8 * r.width - 1) := by
      rw [Nat.mul_add]
      omega
    have hmod : (8 * r.width * k + (8 * r.width * q + r.width * 0) + 8 * r.width - 1) %
        (8 * r.width) = 8 * r.width - 1 := by
      rw [hsum, Nat.mul_add_mod, Nat.mod_eq_of_lt (by omega)]
    rw [hmod, hsum, Nat.add_sub_cancel, hgroup]
    ring
  · have hgroup : (r.codes + 7) / 8 = q + 1 := by omega
    have hle : r.width * m ≤ r.width * 7 := Nat.mul_le_mul_left _ (by omega)
    have hge : r.width * 1 ≤ r.width * m := Nat.mul_le_mul_left _ (by omega)
    have hsum : 8 * r.width * k + (8 * r.width * q + r.width * m) + 8 * r.width - 1 =
        8 * r.width * (k + q + 1) + (r.width * m - 1) := by
      rw [Nat.mul_add, Nat.mul_add]
      omega
    have hmod : (8 * r.width * k + (8 * r.width * q + r.width * m) + 8 * r.width - 1) %
        (8 * r.width) = r.width * m - 1 := by
      rw [hsum, Nat.mul_add_mod, Nat.mod_eq_of_lt (by omega)]
    rw [hmod, hsum, Nat.add_sub_cancel, hgroup]
    ring

end Positions

/-! ## Reading codes -/

variable {width : ℕ}

theorem hasCompleteCompressCode_iff {total off : ℕ} (hw : width ≠ 0) :
    hasCompleteCompressCode total off width = true ↔ off + width ≤ total := by
  rw [hasCompleteCompressCode]
  split_ifs with h
  · simp only [hw, false_or] at h
    simp only [false_iff]
    omega
  · rw [decide_eq_true_eq]
    push Not at h
    omega

theorem readCompressCode_packBits {s t : List Bool} {code : ℕ} (hw : width ≠ 0)
    (hw' : width ≤ 16) (hcode : code < 2 ^ width) :
    readCompressCode (packBits (s ++ (codeBits width code ++ t))) s.length width = some code := by
  have hlength := length_packBits (s ++ (codeBits width code ++ t))
  rw [List.length_append, List.length_append, length_codeBits] at hlength
  rw [readCompressCode, if_neg (by omega), Option.some.injEq]
  have hbit : ∀ i, compressBit (packBits (s ++ (codeBits width code ++ t))) (s.length + i) =
      (s ++ (codeBits width code ++ t)).getD (s.length + i) false :=
    fun i => testBit_packBits _ _
  simp only [hbit]
  have := ofBits_window (s := s) (t := t) width hcode
  rwa [ofBits, List.foldr_map] at this

/-! ## The tables -/

/-- A code of a phrase of the dictionary. -/
def CodeIn (f : CompressFormat) (dict : List Bytes) (code : ℕ) (w : Bytes) : Prop :=
  (code < 256 ∧ w = [UInt8.ofNat code]) ∨ ∃ j, code = f.first + j ∧ dict[j]? = some w

/-- The tables hold the dictionary. -/
def Denotes (f : CompressFormat) (st : CompressState) (dict : List Bytes) : Prop :=
  ∀ j w, dict[j]? = some w → ∃ v, w = v ++ [st.suffixes (f.first + j)] ∧
    CodeIn f (dict.take j) (st.prefixes (f.first + j)) v

/-- The local variables of the decoder are those of `Lzw`. -/
structure Tables (f : CompressFormat) (d : Lzw.Decoder UInt8) (st : CompressState) : Prop where
  next : st.nextCode = f.first + d.dict.length
  denotes : Denotes f st d.dict
  old : match d.previous with
    | none => st.oldCode = none
    | some v => ∃ c, st.oldCode = some c ∧ CodeIn f d.dict c v
  room : d.dict.length ≤ f.room

section Tables

variable {f : CompressFormat} {d : Lzw.Decoder UInt8} {st : CompressState} {dict : List Bytes}
  {code : ℕ} {w : Bytes}

theorem CodeIn.mono (h : CodeIn f dict code w) {dict' : List Bytes} (hp : dict <+: dict') :
    CodeIn f dict' code w := by
  rcases h with h | ⟨j, hc, hj⟩
  · exact .inl h
  · obtain ⟨t, rfl⟩ := hp
    obtain ⟨hlt, -⟩ := List.getElem?_eq_some_iff.1 hj
    exact .inr ⟨j, hc, by rwa [List.getElem?_append_left hlt]⟩

theorem CodeIn.lt (h : CodeIn f dict code w) : code < f.first + dict.length := by
  have := f.first_bounds
  rcases h with ⟨h, -⟩ | ⟨j, rfl, hj⟩
  · omega
  · obtain ⟨hlt, -⟩ := List.getElem?_eq_some_iff.1 hj
    omega

/-- The phrase of an entry has at most one letter more than there are entries in front of it, and
    the single letter. -/
theorem Denotes.length_le (h : Denotes f st dict) : ∀ (j : ℕ) {w : Bytes}, dict[j]? = some w →
    w.length ≤ j + 2 := by
  intro j
  induction j using Nat.strong_induction_on with
  | _ j ih =>
    intro w hj
    obtain ⟨v, rfl, hv⟩ := h j w hj
    rw [List.length_append, List.length_singleton]
    rcases hv with ⟨-, rfl⟩ | ⟨i, -, hi⟩
    · rw [List.length_singleton]
      omega
    · rw [List.getElem?_take] at hi
      split_ifs at hi with hlt
      have := ih i hlt hi
      omega

theorem CodeIn.length_le (h : CodeIn f dict code w) (hd : Denotes f st dict) :
    w.length ≤ dict.length + 1 := by
  rcases h with ⟨-, rfl⟩ | ⟨j, -, hj⟩
  · rw [List.length_singleton]
    omega
  · obtain ⟨hlt, -⟩ := List.getElem?_eq_some_iff.1 hj
    have := hd.length_le j hj
    omega

theorem expandCompressCode_codeIn (hd : Denotes f st dict)
    (hnext : st.nextCode = f.first + dict.length) : ∀ (capacity : ℕ) {code : ℕ} {w : Bytes},
    CodeIn f dict code w → w.length ≤ capacity → ∀ stack,
      expandCompressCode st capacity code stack = some (w ++ stack) := by
  intro capacity
  induction capacity with
  | zero =>
    intro code w h hlen
    obtain rfl : w = [] := List.eq_nil_of_length_eq_zero (by omega)
    rcases h with ⟨-, h⟩ | ⟨j, -, hj⟩
    · exact absurd h (List.cons_ne_nil _ _).symm
    · obtain ⟨v, hv, -⟩ := hd j [] hj
      simp at hv
  | succ capacity ih =>
    intro code w h hlen stack
    have hfirst := f.first_bounds
    rw [expandCompressCode]
    rcases h with ⟨hlt, rfl⟩ | ⟨j, rfl, hj⟩
    · rw [if_pos hlt]
      rfl
    · obtain ⟨v, rfl, hv⟩ := hd j w hj
      obtain ⟨hlt, -⟩ := List.getElem?_eq_some_iff.1 hj
      rw [List.length_append, List.length_singleton] at hlen
      rw [if_neg (by omega), if_neg (by omega),
        ih (hv.mono (List.take_prefix j dict)) (by omega), List.append_assoc, List.singleton_append]

/-- A new entry leaves the codes of the others alone. -/
theorem Denotes.update (h : Denotes f st dict) {c : ℕ} {v : Bytes} {a : UInt8}
    (hc : CodeIn f dict c v) :
    Denotes f { st with
      prefixes := Function.update st.prefixes (f.first + dict.length) c
      suffixes := Function.update st.suffixes (f.first + dict.length) a
      nextCode := st.nextCode + 1 } (dict ++ [v ++ [a]]) := by
  intro j w hj
  by_cases hlt : j < dict.length
  · rw [List.getElem?_append_left hlt] at hj
    obtain ⟨v', hv', hcode⟩ := h j w hj
    refine ⟨v', ?_, ?_⟩
    · simpa only [Function.update_of_ne (show f.first + j ≠ f.first + dict.length by omega)] using hv'
    · rw [List.take_append_of_le_length (by omega)]
      simpa only [Function.update_of_ne (show f.first + j ≠ f.first + dict.length by omega)]
        using hcode
  · obtain ⟨hle, -⟩ := List.getElem?_eq_some_iff.1 hj
    rw [List.length_append, List.length_singleton] at hle
    obtain rfl : j = dict.length := by omega
    rw [List.getElem?_concat_length] at hj
    obtain rfl := Option.some.inj hj
    refine ⟨v, ?_, ?_⟩
    · simp only [Function.update_self]
    · rw [List.take_left' rfl]
      simpa only [Function.update_self] using hc

variable {destination : OutBuffer} {t : Token UInt8}

/-- The code of a token denotes its phrase, or is the code of the next entry. -/
theorem codeIn_of_phrase (h : d.phrase t = some w) :
    CodeIn f d.dict (f.codeOf t) w ∨
      f.codeOf t = f.first + d.dict.length ∧ ∃ v, d.previous = some v ∧ w = v ++ v.take 1 := by
  cases t with
  | literal c =>
    obtain rfl : [c] = w := Option.some.inj h
    refine .inl (.inl ⟨c.toNat_lt, ?_⟩)
    rw [CompressFormat.codeOf, UInt8.ofNat_toNat]
  | entry i =>
    simp only [Lzw.Decoder.phrase] at h
    split_ifs at h with h1 h2
    · exact .inl (.inr ⟨i, rfl, h⟩)
    · obtain ⟨v, hv, rfl⟩ := Option.map_eq_some_iff.1 h
      exact .inr ⟨by rw [CompressFormat.codeOf, h2], v, hv, rfl⟩
  | clear => cases h

theorem compressStack_token (h : Tables f d st) (hphrase : d.phrase t = some w) :
    ∃ stack extra, compressStack (2 ^ f.maxBits) st (f.codeOf t) = .ok (stack, extra) ∧
      stack ++ extra = w ∧ w.take 1 = [stack.headD 0] := by
  have hfirst := f.first_bounds
  have hroom := h.room
  have hne : ∀ {code v}, CodeIn f d.dict code v → v ≠ [] := by
    rintro code v (⟨-, rfl⟩ | ⟨j, -, hj⟩)
    · exact List.cons_ne_nil _ _
    · obtain ⟨u, rfl, -⟩ := h.denotes j v hj
      exact List.append_ne_nil_of_right_ne_nil _ (List.cons_ne_nil _ _)
  have hexpand : ∀ {code v}, CodeIn f d.dict code v →
      expandCompressCode st (2 ^ f.maxBits) code [] = some v := by
    intro code v hv
    have hlen := hv.length_le h.denotes
    rw [expandCompressCode_codeIn h.denotes h.next _ hv (by omega), List.append_nil]
  rcases codeIn_of_phrase (f := f) hphrase with hcode | ⟨hcode, v, hprevious, rfl⟩
  · obtain ⟨a, u, rfl⟩ := List.exists_cons_of_ne_nil (hne hcode)
    refine ⟨a :: u, [], ?_, List.append_nil _, rfl⟩
    rw [compressStack, if_pos (by rw [h.next]; exact hcode.lt), hexpand hcode]
  · have hold := h.old
    rw [hprevious] at hold
    obtain ⟨c, hc, hv⟩ := hold
    obtain ⟨a, u, rfl⟩ := List.exists_cons_of_ne_nil (hne hv)
    refine ⟨a :: u, [a], ?_, rfl, rfl⟩
    rw [compressStack, if_neg (by rw [h.next, hcode]; exact lt_irrefl _), hc]
    simp only [hexpand hv, h.next, hcode, ne_eq, not_true_eq_false, if_false]
    rfl

/-- The tables take up the entry of a phrase. -/
theorem Tables.entry (h : Tables f d st) {t : Token UInt8} (hvalid : t.Valid f.room (f.blockMode))
    (hphrase : d.phrase t = some w) {stack : Bytes} (ha : w.take 1 = [stack.headD 0])
    (output : Bytes) :
    Tables f (d.next f.room w) (compressTable (2 ^ f.maxBits) st (f.codeOf t) stack output) := by
  have hfirst := f.first_bounds
  have hcode := codeIn_of_phrase (f := f) hphrase
  have hroom := h.room
  cases hprevious : d.previous with
  | none =>
    have hold := h.old
    rw [hprevious] at hold
    have hcode : CodeIn f d.dict (f.codeOf t) w := by
      rcases hcode with hcode | ⟨-, v, hv, -⟩
      · exact hcode
      · rw [hprevious] at hv
        cases hv
    simp only [compressTable, hold, Lzw.Decoder.next, hprevious]
    exact ⟨h.next, h.denotes, ⟨_, rfl, hcode⟩, hroom⟩
  | some v =>
    have hold := h.old
    rw [hprevious] at hold
    obtain ⟨c, hc, hv⟩ := hold
    have hclt : c < 2 ^ 16 := by
      have hpow : 2 ^ f.maxBits ≤ 2 ^ 16 := Nat.pow_le_pow_right (by decide) f.le_max
      have := hv.lt
      omega
    simp only [compressTable, hc, Lzw.Decoder.next, hprevious, h.next, grow,
      Nat.mod_eq_of_lt hclt, ha]
    by_cases hfull : d.dict.length < f.room
    · have hcodes : f.first + d.dict.length < 2 ^ f.maxBits := by omega
      simp only [if_pos hfull, if_pos hcodes]
      refine ⟨?_, ?_, ⟨_, rfl, ?_⟩, ?_⟩
      · simp only [List.length_append, List.length_singleton, Nat.add_assoc]
      · exact (h.denotes).update hv
      · rcases hcode with hcode | ⟨hcode, v', hv', hw⟩
        · exact hcode.mono (List.prefix_append _ _)
        · -- the entry that was used before it was there
          rw [hprevious] at hv'
          obtain rfl := Option.some.inj hv'
          refine .inr ⟨d.dict.length, hcode, ?_⟩
          have hvne : v ≠ [] := by
            rintro rfl
            rw [hw] at ha
            cases ha
          obtain ⟨b, u, rfl⟩ := List.exists_cons_of_ne_nil hvne
          rw [hw] at ha
          obtain rfl : b = stack.headD 0 := (List.cons.inj ha).1
          rw [List.getElem?_concat_length, hw]
          rfl
      · rw [List.length_append, List.length_singleton]
        omega
    · have hcodes : ¬ f.first + d.dict.length < 2 ^ f.maxBits := by omega
      simp only [if_neg hfull, if_neg hcodes]
      refine ⟨rfl, h.denotes, ⟨_, rfl, ?_⟩, hroom⟩
      rcases hcode with hcode | ⟨hcode, -⟩
      · exact hcode
      · -- no token stands for an entry there is no room for
        cases t with
        | literal b =>
          have := b.toNat_lt
          rw [CompressFormat.codeOf] at hcode
          omega
        | entry i =>
          have hi : i < f.room := hvalid
          rw [CompressFormat.codeOf] at hcode
          omega
        | clear => cases hphrase

theorem emitReverseStack_ok {s : Bytes} (output : Bytes)
    (hnull : destination.present = false → destination.capacity = 0)
    (hroom : output.length + s.length ≤ destination.capacity) :
    emitReverseStack destination s output = .ok (output ++ s) := by
  rw [emitReverseStack, if_pos]
  cases s with
  | nil => exact .inl rfl
  | cons a s =>
    refine .inr ⟨?_, hroom⟩
    by_contra hp
    have := hnull (by simpa using hp)
    rw [List.length_cons] at hroom
    omega

/-- **One code of the decoder is one token.** -/
theorem compressCode_token (h : Tables f d st)
    (hvalid : t.Valid f.room (f.blockMode)) (hphrase : d.phrase t = some w)
    (hnull : destination.present = false → destination.capacity = 0)
    (hroom : st.output.length + w.length ≤ destination.capacity) :
    ∃ st', compressCode destination (2 ^ f.maxBits) st (f.codeOf t) = .ok st' ∧
      Tables f (d.next f.room w) st' ∧ st'.output = st.output ++ w ∧
      st'.bitOffset = st.bitOffset ∧ st'.codeBits = st.codeBits := by
  obtain ⟨stack, extra, hstack, rfl, hhead⟩ := compressStack_token h hphrase
  rw [List.length_append] at hroom
  refine ⟨_, ?_, h.entry hvalid hphrase hhead (st.output ++ (stack ++ extra)), ?_, ?_, ?_⟩
  · have hfirst := emitReverseStack_ok (s := stack) st.output hnull (by omega)
    have hsecond := emitReverseStack_ok (s := extra) (st.output ++ stack) hnull
      (by rw [List.length_append]; omega)
    rw [compressCode_eq, hstack]
    show (emitReverseStack destination stack st.output >>= _) = _
    rw [hfirst]
    show (emitReverseStack destination extra (st.output ++ stack) >>= _) = _
    rw [hsecond, List.append_assoc]
    rfl
  · exact compressTable_output
  all_goals
    simp only [compressTable]
    split
    · rfl
    · split_ifs <;> rfl

end Tables

end KernelHttp.Http1
