/-
  HPACK string literals in Huffman code (`Hpack.cpp`,
  "Huffman encoding", RFC 7541 Section 5.2).
-/
import KernelHttp.Hpack.Tables
import KernelHttp.Lib.PrefixCode

namespace KernelHttp

open PrefixCode

/-! ## Encoding -/

/-- The locals of `HpackHuffmanEncode`: the octets written and the bits of the
    next one. -/
structure HuffmanWriter where
  dest : Bytes := []
  currentByte : ℕ := 0
  bitCount : ℕ := 0

/-- One turn of the inner loop of `HpackHuffmanEncode`. -/
def HuffmanWriter.putBit (capacity : ℕ) (w : HuffmanWriter) (bit : ℕ) :
    Except NTSTATUS HuffmanWriter :=
  let currentByte := (w.currentByte * 2 + bit) % 256
  if w.bitCount + 1 = 8 then
    if w.dest.length ≥ capacity then .error statusBufferTooSmall
    else .ok { dest := w.dest ++ [UInt8.ofNat currentByte], currentByte := 0, bitCount := 0 }
  else .ok { w with currentByte := currentByte, bitCount := w.bitCount + 1 }

/-- The bits of all codes, in the order they are sent. -/
def huffmanBits (src : Bytes) : List ℕ :=
  src.flatMap fun b => bitsOf (huffmanCode b.toNat) (huffmanBitLength b.toNat)

/-- `HpackHuffmanEncode(src, srcLen, dest, capacity, bytesWritten)`. -/
def hpackHuffmanEncode (src : Bytes) (capacity : ℕ) : Except NTSTATUS Bytes := do
  if src = [] then return []
  let w ← (huffmanBits src).foldlM (HuffmanWriter.putBit capacity) {}
  if w.bitCount > 0 then
    if w.dest.length ≥ capacity then .error statusBufferTooSmall
    else return w.dest ++
      [UInt8.ofNat (w.currentByte * 2 ^ (8 - w.bitCount) + (2 ^ (8 - w.bitCount) - 1))]
  else return w.dest

def hpackHuffmanEncodedLength (src : Bytes) : ℕ :=
  ((src.map fun b => huffmanBitLength b.toNat).sum + 7) / 8

/-! ## Decoding -/

/-- `FindHuffmanSymbol`: search the symbols whose code has `bitLength` bits. -/
def findHuffmanSymbol (code bitLength : ℕ) : Option ℕ :=
  if bitLength ≥ 32 then none
  else
    let offset := hpackHuffmanLengthOffsets[bitLength]?.getD 0
    let count := hpackHuffmanLengthCounts[bitLength]?.getD 0
    ((hpackHuffmanSymbolsByLength.drop offset).take count).find? fun s => huffmanCode s == code

/-- The locals of `HpackHuffmanDecode`. -/
structure HuffmanReader where
  dest : Bytes := []
  currentCode : ℕ := 0
  currentBitLen : ℕ := 0
deriving DecidableEq

/-- One turn of the inner loop of `HpackHuffmanDecode`. -/
def HuffmanReader.readBit (capacity : ℕ) (r : HuffmanReader) (bit : ℕ) :
    Except NTSTATUS HuffmanReader :=
  let currentCode := (r.currentCode * 2 + bit) % 2 ^ 32
  let currentBitLen := r.currentBitLen + 1
  if currentBitLen > 30 then .error statusInvalidNetworkResponse
  else match findHuffmanSymbol currentCode currentBitLen with
    | some symbol =>
      if symbol = 256 then .error statusInvalidNetworkResponse
      else if r.dest.length ≥ capacity then .error statusBufferTooSmall
      else .ok { dest := r.dest ++ [UInt8.ofNat symbol], currentCode := 0, currentBitLen := 0 }
    | none => .ok { r with currentCode := currentCode, currentBitLen := currentBitLen }

/-- `HpackHuffmanDecode(src, srcLen, dest, capacity, bytesWritten)`. -/
def hpackHuffmanDecode (src : Bytes) (capacity : ℕ) : Except NTSTATUS Bytes := do
  if src = [] then return []
  let r ← (src.flatMap fun b => bitsOf b.toNat 8).foldlM (HuffmanReader.readBit capacity) {}
  if r.currentBitLen > 7 then .error statusInvalidNetworkResponse
  else if r.currentBitLen > 0 ∧
      r.currentCode % 2 ^ r.currentBitLen ≠ 2 ^ r.currentBitLen - 1 then
    .error statusInvalidNetworkResponse
  else return r.dest

/-! ## The writer without a capacity -/

/-- `putBit` with room for every octet. -/
def HuffmanWriter.put (w : HuffmanWriter) (bit : ℕ) : HuffmanWriter :=
  let currentByte := (w.currentByte * 2 + bit) % 256
  if w.bitCount + 1 = 8 then
    { dest := w.dest ++ [UInt8.ofNat currentByte], currentByte := 0, bitCount := 0 }
  else { w with currentByte := currentByte, bitCount := w.bitCount + 1 }

/-- The octets of `HpackHuffmanEncode`. -/
def huffmanOctets (src : Bytes) : Bytes :=
  let w := (huffmanBits src).foldl HuffmanWriter.put {}
  if w.bitCount > 0 then w.dest ++
    [UInt8.ofNat (w.currentByte * 2 ^ (8 - w.bitCount) + (2 ^ (8 - w.bitCount) - 1))]
  else w.dest

namespace HuffmanWriter

theorem put_length_le (w : HuffmanWriter) (bit : ℕ) : w.dest.length ≤ (w.put bit).dest.length := by
  unfold put; simp only; split_ifs <;> simp

theorem foldl_put_length_le (bits : List ℕ) (w : HuffmanWriter) :
    w.dest.length ≤ (bits.foldl put w).dest.length := by
  induction bits generalizing w with
  | nil => rfl
  | cons b bits ih => exact (put_length_le w b).trans (ih _)

variable {w : HuffmanWriter} {capacity : ℕ}

theorem putBit_eq (hw : w.dest.length ≤ capacity) (bit : ℕ) :
    w.putBit capacity bit =
      if (w.put bit).dest.length ≤ capacity then .ok (w.put bit)
      else .error statusBufferTooSmall := by
  unfold putBit put
  simp only
  split_ifs <;> simp_all
  omega

theorem foldlM_putBit_eq (bits : List ℕ) (hw : w.dest.length ≤ capacity) :
    bits.foldlM (putBit capacity) w =
      if (bits.foldl put w).dest.length ≤ capacity then .ok (bits.foldl put w)
      else .error statusBufferTooSmall := by
  induction bits generalizing w with
  | nil => simp [hw, pure, Except.pure]
  | cons b bits ih =>
    rw [List.foldlM_cons, List.foldl_cons, putBit_eq hw]
    by_cases h : (w.put b).dest.length ≤ capacity
    · rw [if_pos h]; exact ih h
    · have := foldl_put_length_le bits (w.put b)
      rw [if_neg h, if_neg (by omega)]; rfl

/-- The bits written so far. -/
def bits (w : HuffmanWriter) : List ℕ :=
  (w.dest.flatMap fun b => bitsOf b.toNat 8) ++ bitsOf w.currentByte w.bitCount

/-- The bits of the next octet fit into it. -/
def Ok (w : HuffmanWriter) : Prop := w.bitCount < 8 ∧ w.currentByte < 2 ^ w.bitCount

theorem put_spec (hw : w.Ok) {bit : ℕ} (hb : bit < 2) :
    (w.put bit).Ok ∧ (w.put bit).bits = w.bits ++ [bit] := by
  obtain ⟨h8, hc⟩ := hw
  have hlt : w.currentByte * 2 + bit < 2 ^ (w.bitCount + 1) := by rw [pow_succ]; omega
  have h256 : (2 : ℕ) ^ (w.bitCount + 1) ≤ 256 := by
    calc (2 : ℕ) ^ (w.bitCount + 1) ≤ 2 ^ 8 := Nat.pow_le_pow_right (by norm_num) h8
      _ = 256 := by norm_num
  unfold put Ok bits
  simp only [Nat.mod_eq_of_lt (hlt.trans_le h256)]
  split_ifs with h
  · refine ⟨by simp, ?_⟩
    have ht : (UInt8.ofNat (w.currentByte * 2 + bit)).toNat = w.currentByte * 2 + bit := by
      rw [UInt8.toNat_ofNat']; exact Nat.mod_eq_of_lt (hlt.trans_le h256)
    rw [List.flatMap_append, List.flatMap_singleton, ht, ← h, bitsOf_snoc _ _ _ hb,
      bitsOf_zero, List.append_nil, List.append_assoc]
  · exact ⟨⟨by show w.bitCount + 1 < 8; omega, hlt⟩, by simp [bitsOf_snoc _ _ _ hb]⟩

theorem foldl_put_spec {bs : List ℕ} (hbs : ∀ b ∈ bs, b < 2) (hw : w.Ok) :
    (bs.foldl put w).Ok ∧ (bs.foldl put w).bits = w.bits ++ bs := by
  induction bs generalizing w with
  | nil => simp [hw]
  | cons b bs ih =>
    obtain ⟨h1, h2⟩ := put_spec hw (hbs b (by simp))
    obtain ⟨h3, h4⟩ := ih (fun b' hb' => hbs b' (by simp [hb'])) h1
    exact ⟨h3, by rw [List.foldl_cons, h4, h2]; simp⟩

end HuffmanWriter

/-- **The octets written**: `HpackHuffmanEncode` writes the same octets for
    every capacity they fit. -/
theorem hpackHuffmanEncode_eq (src : Bytes) (capacity : ℕ) :
    hpackHuffmanEncode src capacity =
      if (huffmanOctets src).length ≤ capacity then .ok (huffmanOctets src)
      else .error statusBufferTooSmall := by
  unfold hpackHuffmanEncode huffmanOctets
  by_cases hs : src = []
  · subst hs; simp [huffmanBits, pure, Except.pure]
  · simp only [hs, if_false]
    rw [HuffmanWriter.foldlM_putBit_eq _ (by simp)]
    generalize (huffmanBits src).foldl HuffmanWriter.put {} = w
    by_cases hw : w.dest.length ≤ capacity
    · simp only [hw, if_true, bind, Except.bind, pure, Except.pure]
      split_ifs <;> simp_all
      omega
    · simp only [hw, if_false, bind, Except.bind]
      split_ifs <;> simp_all
      omega

theorem huffmanBits_lt (src : Bytes) : ∀ b ∈ huffmanBits src, b < 2 := by
  intro b hb
  obtain ⟨c, -, hc⟩ := List.mem_flatMap.1 hb
  exact mem_bitsOf hc

/-- The bits of the octets written are the codes, and less than eight ones. -/
theorem huffmanOctets_bits (src : Bytes) :
    ∃ k < 8, ((huffmanOctets src).flatMap fun b => bitsOf b.toNat 8) =
      huffmanBits src ++ List.replicate k 1 := by
  have hz : HuffmanWriter.Ok {} := ⟨by norm_num, by norm_num⟩
  obtain ⟨⟨h8, hc⟩, hbits⟩ := HuffmanWriter.foldl_put_spec (huffmanBits_lt src) hz
  unfold huffmanOctets
  generalize (huffmanBits src).foldl HuffmanWriter.put {} = w at *
  simp only [HuffmanWriter.bits, List.flatMap_nil, bitsOf_zero, List.nil_append] at hbits
  simp only
  split_ifs with h
  · refine ⟨8 - w.bitCount, by omega, ?_⟩
    have hpos := Nat.two_pow_pos (8 - w.bitCount)
    have hlt : w.currentByte * 2 ^ (8 - w.bitCount) + (2 ^ (8 - w.bitCount) - 1) < 2 ^ 8 := by
      calc _ < (w.currentByte + 1) * 2 ^ (8 - w.bitCount) := by rw [add_mul]; omega
        _ ≤ 2 ^ w.bitCount * 2 ^ (8 - w.bitCount) := Nat.mul_le_mul_right _ hc
        _ = 2 ^ 8 := by rw [← pow_add]; congr 1; omega
    have ht : (UInt8.ofNat
        (w.currentByte * 2 ^ (8 - w.bitCount) + (2 ^ (8 - w.bitCount) - 1))).toNat =
        w.currentByte * 2 ^ (8 - w.bitCount) + (2 ^ (8 - w.bitCount) - 1) := by
      rw [UInt8.toNat_ofNat']; exact Nat.mod_eq_of_lt hlt
    have hs := bitsOf_split w.currentByte
      (show 2 ^ (8 - w.bitCount) - 1 < 2 ^ (8 - w.bitCount) by omega) w.bitCount
    rw [show w.bitCount + (8 - w.bitCount) = 8 by omega, bitsOf_ones] at hs
    simp only [List.flatMap_append, List.flatMap_cons, List.flatMap_nil, List.append_nil]
    rw [ht, hs, ← List.append_assoc, hbits]
  · refine ⟨0, by omega, ?_⟩
    obtain h0 : w.bitCount = 0 := by omega
    rw [h0] at hbits
    simpa using hbits

theorem huffmanBits_length (src : Bytes) :
    (huffmanBits src).length = (src.map fun b => huffmanBitLength b.toNat).sum := by
  simp [huffmanBits, List.length_flatMap]

/-- `HpackHuffmanEncodedLength` is the number of octets written. -/
theorem huffmanOctets_length (src : Bytes) :
    (huffmanOctets src).length = hpackHuffmanEncodedLength src := by
  obtain ⟨k, hk, h⟩ := huffmanOctets_bits src
  have := congrArg List.length h
  simp only [List.length_flatMap, bitsOf_length, List.map_const', List.sum_replicate_nat,
    List.length_append, List.length_replicate, huffmanBits_length] at this
  unfold hpackHuffmanEncodedLength
  omega

/-! ## The code is a chained prefix code -/

/-- The codewords, shortest first. -/
def huffmanCodewords : List (ℕ × ℕ) :=
  hpackHuffmanSymbolsByLength.map fun s => (huffmanCode s, huffmanBitLength s)

/-- What is checked of the tables; the symbols of a bucket are those with its code length. -/
theorem huffmanTables : Chained 30 0 huffmanCodewords ∧
    (∀ bitLength < 32,
      (hpackHuffmanSymbolsByLength.drop (hpackHuffmanLengthOffsets[bitLength]?.getD 0)).take
        (hpackHuffmanLengthCounts[bitLength]?.getD 0) =
      hpackHuffmanSymbolsByLength.filter fun s => huffmanBitLength s == bitLength) ∧
    (∀ s < 257, s ∈ hpackHuffmanSymbolsByLength) ∧
    (∀ s ∈ hpackHuffmanSymbolsByLength, s ≤ 256) ∧
    hpackHuffmanEncodeTable.length = 257 ∧
    ∀ row ∈ hpackHuffmanEncodeTable, 5 ≤ row.2 ∧ row.2 ≤ 30 ∧ row.1 < 2 ^ row.2 := by
  refine ⟨?_, ?_, ?_, ?_, ?_, ?_⟩
  all_goals decide +kernel

example : huffmanBitLength 48 = 5 := by decide +kernel

theorem huffmanTable_chained : Chained 30 0 huffmanCodewords := huffmanTables.1

theorem huffmanBuckets : ∀ bitLength < 32,
    (hpackHuffmanSymbolsByLength.drop (hpackHuffmanLengthOffsets[bitLength]?.getD 0)).take
      (hpackHuffmanLengthCounts[bitLength]?.getD 0) =
    hpackHuffmanSymbolsByLength.filter fun s => huffmanBitLength s == bitLength :=
  huffmanTables.2.1

theorem mem_symbolsByLength : ∀ s < 257, s ∈ hpackHuffmanSymbolsByLength := huffmanTables.2.2.1

theorem symbolsByLength_le : ∀ s ∈ hpackHuffmanSymbolsByLength, s ≤ 256 := huffmanTables.2.2.2.1

theorem huffmanTable_rows : ∀ row ∈ hpackHuffmanEncodeTable,
    5 ≤ row.2 ∧ row.2 ≤ 30 ∧ row.1 < 2 ^ row.2 := huffmanTables.2.2.2.2.2

variable {d : Bytes} {s s' k capacity : ℕ}

theorem huffmanRow (hs : s < 257) :
    5 ≤ huffmanBitLength s ∧ huffmanBitLength s ≤ 30 ∧ huffmanCode s < 2 ^ huffmanBitLength s := by
  have hlen := huffmanTables.2.2.2.2.1
  have hrows := huffmanTable_rows
  unfold huffmanBitLength huffmanCode
  generalize hpackHuffmanEncodeTable = table at *
  rw [List.getElem?_eq_getElem (by omega), Option.getD_some]
  exact hrows _ (List.getElem_mem _)

theorem huffmanBitLength_bounds (s : ℕ) (hs : s < 257) :
    5 ≤ huffmanBitLength s ∧ huffmanBitLength s ≤ 30 :=
  ⟨(huffmanRow hs).1, (huffmanRow hs).2.1⟩

/-- `FindHuffmanSymbol` finds only symbols with that code. -/
theorem findHuffmanSymbol_some {code bitLength : ℕ}
    (h : findHuffmanSymbol code bitLength = some s) :
    s ∈ hpackHuffmanSymbolsByLength ∧ huffmanCode s = code ∧ huffmanBitLength s = bitLength := by
  unfold findHuffmanSymbol at h
  split_ifs at h with h32
  simp only [huffmanBuckets bitLength (by omega)] at h
  have hm := List.mem_of_find?_eq_some h
  have hp := List.find?_some h
  simp only [List.mem_filter, beq_iff_eq] at hm hp
  exact ⟨hm.1, hp, hm.2⟩

theorem huffman_prefixFree (hs : s ∈ hpackHuffmanSymbolsByLength)
    (hs' : s' ∈ hpackHuffmanSymbolsByLength) (hl : huffmanBitLength s ≤ huffmanBitLength s')
    (hp : huffmanCode s' / 2 ^ (huffmanBitLength s' - huffmanBitLength s) = huffmanCode s) :
    huffmanCode s = huffmanCode s' ∧ huffmanBitLength s = huffmanBitLength s' := by
  have hm : ∀ a ∈ hpackHuffmanSymbolsByLength,
      (huffmanCode a, huffmanBitLength a) ∈ huffmanCodewords := fun a ha => List.mem_map_of_mem ha
  have := huffmanTable_chained.eq_of_isPrefix (hm s hs) (hm s' hs') hl hp
  simpa using this

theorem huffmanCodewords_nodup : huffmanCodewords.Nodup := huffmanTable_chained.nodup

theorem huffmanSymbol_inj (hs : s ∈ hpackHuffmanSymbolsByLength)
    (hs' : s' ∈ hpackHuffmanSymbolsByLength) (hc : huffmanCode s = huffmanCode s')
    (hl : huffmanBitLength s = huffmanBitLength s') : s = s' :=
  List.inj_on_of_nodup_map huffmanCodewords_nodup hs hs' (by simp [hc, hl])

/-- A proper prefix of a code is no code. -/
theorem findHuffmanSymbol_isPrefix {n : ℕ} (hs : s < 257) (hn : 0 < n)
    (hn' : n < huffmanBitLength s) :
    findHuffmanSymbol (huffmanCode s / 2 ^ n) (huffmanBitLength s - n) = none := by
  by_contra h
  obtain ⟨s', h'⟩ := Option.ne_none_iff_exists'.1 h
  obtain ⟨hm, hc, hl⟩ := findHuffmanSymbol_some h'
  have hsub : huffmanBitLength s - huffmanBitLength s' = n := by omega
  have := huffman_prefixFree hm (mem_symbolsByLength s hs) (by omega) (by rw [hsub, hc])
  omega

theorem findHuffmanSymbol_code (hs : s < 257) :
    findHuffmanSymbol (huffmanCode s) (huffmanBitLength s) = some s := by
  have hb := huffmanBitLength_bounds s hs
  have hm := mem_symbolsByLength s hs
  have hsome : (findHuffmanSymbol (huffmanCode s) (huffmanBitLength s)).isSome := by
    unfold findHuffmanSymbol
    rw [if_neg (by omega)]
    simp only [huffmanBuckets _ (show huffmanBitLength s < 32 by omega), List.find?_isSome]
    exact ⟨s, by simp [hm], by simp⟩
  obtain ⟨s', h'⟩ := Option.isSome_iff_exists.1 hsome
  obtain ⟨hm', hc, hl⟩ := findHuffmanSymbol_some h'
  rw [h', huffmanSymbol_inj hm' hm hc hl]

theorem findHuffmanSymbol_ones (hk : 0 < k) (hk' : k < 8) :
    findHuffmanSymbol (2 ^ k - 1) k = none := by
  have h : ∀ k < 8, 0 < k → huffmanCode 256 / 2 ^ (30 - k) = 2 ^ k - 1 := by decide
  have := findHuffmanSymbol_isPrefix (s := 256) (n := 30 - k) (by norm_num) (by omega)
    (by have : huffmanBitLength 256 = 30 := by decide
        omega)
  rw [h k hk' hk, show huffmanBitLength 256 - (30 - k) = k by
    have : huffmanBitLength 256 = 30 := by decide
    omega] at this
  exact this

/-! ## Decoding undoes encoding -/

theorem readBit_code {capacity : ℕ} (b : UInt8) (dest : Bytes) (hd : dest.length < capacity) :
    ∀ n, 0 < n → n ≤ huffmanBitLength b.toNat →
    (bitsOf (huffmanCode b.toNat) n).foldlM (HuffmanReader.readBit capacity)
      ⟨dest, huffmanCode b.toNat / 2 ^ n, huffmanBitLength b.toNat - n⟩ =
      .ok ⟨dest ++ [b], 0, 0⟩ := by
  intro n
  induction n with
  | zero =>
    intro h _
    omega
  | succ n ih =>
    intro _ hn
    have hb256 : b.toNat < 256 := b.toNat_lt
    have hlen := huffmanBitLength_bounds b.toNat (by omega)
    have hcode : huffmanCode b.toNat / 2 ^ n < 2 ^ 32 := by
      have hpow : 2 ^ huffmanBitLength b.toNat ≤ 2 ^ 30 :=
        Nat.pow_le_pow_right (by norm_num) hlen.2
      have hlt := (huffmanRow (show b.toNat < 257 by omega)).2.2
      exact (Nat.div_le_self _ _).trans_lt (by omega)
    rw [bitsOf, List.foldlM_cons, HuffmanReader.readBit]
    simp only [div_two_pow_succ, Nat.mod_eq_of_lt hcode,
      show huffmanBitLength b.toNat - (n + 1) + 1 = huffmanBitLength b.toNat - n by omega]
    rw [if_neg (by omega)]
    rcases Nat.eq_zero_or_pos n with rfl | hpos
    · simp only [pow_zero, Nat.div_one, Nat.sub_zero, findHuffmanSymbol_code (s := b.toNat) (by omega)]
      rw [if_neg (by omega), if_neg (by omega)]
      simp [bitsOf, bind, Except.bind, pure, Except.pure]
    · rw [findHuffmanSymbol_isPrefix (by omega) hpos (by omega)]
      exact ih hpos (by omega)

theorem readBit_huffmanBits (capacity : ℕ) (src : Bytes) : ∀ dest : Bytes,
    dest.length + src.length ≤ capacity →
    (huffmanBits src).foldlM (HuffmanReader.readBit capacity) ⟨dest, 0, 0⟩ =
      .ok ⟨dest ++ src, 0, 0⟩ := by
  induction src with
  | nil => intro dest _; simp [huffmanBits, pure, Except.pure]
  | cons b src ih =>
    intro dest hd
    simp only [List.length_cons] at hd
    have hb256 : b.toNat < 256 := b.toNat_lt
    have hlen := huffmanBitLength_bounds b.toNat (by omega)
    have hzero : huffmanCode b.toNat / 2 ^ huffmanBitLength b.toNat = 0 :=
      Nat.div_eq_of_lt (huffmanRow (by omega)).2.2
    have hcode := readBit_code b dest (show dest.length < capacity by omega)
      (huffmanBitLength b.toNat) (by omega) le_rfl
    rw [hzero, Nat.sub_self] at hcode
    rw [huffmanBits, List.flatMap_cons, List.foldlM_append, hcode]
    have := ih (dest ++ [b]) (by simp; omega)
    simpa [huffmanBits, bind, Except.bind] using this

theorem readBit_ones (capacity : ℕ) (dest : Bytes) : ∀ n k, n + k < 8 →
    (List.replicate n 1).foldlM (HuffmanReader.readBit capacity) ⟨dest, 2 ^ k - 1, k⟩ =
      .ok ⟨dest, 2 ^ (n + k) - 1, n + k⟩ := by
  intro n
  induction n with
  | zero =>
    intro k _
    simp [pure, Except.pure]
  | succ n ih =>
    intro k h
    have hpow : (2 ^ k - 1) * 2 + 1 = 2 ^ (k + 1) - 1 := by
      have := Nat.two_pow_pos k; rw [pow_succ]; omega
    have hlt : 2 ^ (k + 1) - 1 < 2 ^ 32 := by
      have : 2 ^ (k + 1) ≤ 2 ^ 8 := Nat.pow_le_pow_right (by norm_num) (by omega)
      omega
    rw [List.replicate_succ, List.foldlM_cons, HuffmanReader.readBit]
    simp only [hpow, Nat.mod_eq_of_lt hlt]
    rw [if_neg (by omega), findHuffmanSymbol_ones (by omega) (by omega)]
    have := ih (k + 1) (by omega)
    rwa [show n + (k + 1) = n + 1 + k by ring] at this

/-- **Huffman strings round-trip.** -/
theorem decode_huffmanOctets (src : Bytes) (hc : src.length ≤ capacity) :
    hpackHuffmanDecode (huffmanOctets src) capacity = .ok src := by
  obtain ⟨k, hk, hbits⟩ := huffmanOctets_bits src
  unfold hpackHuffmanDecode
  by_cases hs : huffmanOctets src = []
  · rw [if_pos hs]
    rw [hs, List.flatMap_nil] at hbits
    have hnil : huffmanBits src = [] := (List.append_eq_nil_iff.1 hbits.symm).1
    cases src with
    | nil => rfl
    | cons b src =>
      have hb256 : b.toNat < 256 := b.toNat_lt
      have hlen := huffmanBitLength_bounds b.toNat (by omega)
      have := congrArg List.length hnil
      simp [huffmanBits_length] at this
      omega
  · rw [if_neg hs]
    rw [hbits, List.foldlM_append]
    have h1 := readBit_huffmanBits capacity src [] (by simpa using hc)
    have h2 := readBit_ones capacity src k 0 (by omega)
    simp only [List.nil_append] at h1
    simp only [pow_zero, Nat.sub_self, Nat.add_zero] at h2
    have hpos := Nat.two_pow_pos k
    simp only [h1, bind, Except.bind, h2]
    rw [if_neg (by omega), if_neg]
    · rfl
    · rw [Nat.mod_eq_of_lt (by omega)]; simp

/-! ## Encoding undoes decoding -/

namespace HuffmanReader

/-- The bits read so far: the codes of the octets emitted, then those of the
    symbol that is being read. -/
def bits (r : HuffmanReader) : List ℕ := huffmanBits r.dest ++ bitsOf r.currentCode r.currentBitLen

/-- The code read so far has `currentBitLen` bits, and the octets emitted fit. -/
structure Ok (capacity : ℕ) (r : HuffmanReader) : Prop where
  code_lt : r.currentCode < 2 ^ r.currentBitLen
  length_le : r.dest.length ≤ capacity

variable {capacity : ℕ}

theorem readBit_spec {bit : ℕ} {r r' : HuffmanReader} (hr : r.Ok capacity) (hb : bit < 2)
    (h : r.readBit capacity bit = .ok r') : r'.Ok capacity ∧ r'.bits = r.bits ++ [bit] := by
  have hlt : r.currentCode * 2 + bit < 2 ^ (r.currentBitLen + 1) := by
    have := hr.code_lt
    rw [pow_succ]; omega
  unfold readBit at h
  simp only at h
  by_cases h30 : r.currentBitLen + 1 > 30
  · rw [if_pos h30] at h; simp at h
  rw [if_neg h30] at h
  have h32 : 2 ^ (r.currentBitLen + 1) ≤ 2 ^ 30 := Nat.pow_le_pow_right (by norm_num) (by omega)
  rw [Nat.mod_eq_of_lt (by omega)] at h
  cases hf : findHuffmanSymbol (r.currentCode * 2 + bit) (r.currentBitLen + 1) with
  | none =>
    simp only [hf, Except.ok.injEq] at h
    subst h
    refine ⟨⟨hlt, hr.length_le⟩, ?_⟩
    simp only [bits, bitsOf_snoc _ _ _ hb, List.append_assoc]
  | some symbol =>
    obtain ⟨hmem, hcode, hlen⟩ := findHuffmanSymbol_some hf
    simp only [hf] at h
    split_ifs at h with heos hcap
    simp only [Except.ok.injEq] at h
    subst h
    have hsym : (UInt8.ofNat symbol).toNat = symbol := by
      have := symbolsByLength_le symbol hmem
      rw [UInt8.toNat_ofNat']
      exact Nat.mod_eq_of_lt (by omega)
    refine ⟨⟨by simp, by simp; omega⟩, ?_⟩
    simp only [bits, huffmanBits, List.flatMap_append, List.flatMap_singleton, hsym, hcode, hlen,
      bitsOf_zero, List.append_nil, bitsOf_snoc _ _ _ hb, List.append_assoc]

theorem foldlM_readBit_spec {bs : List ℕ} (hbs : ∀ b ∈ bs, b < 2) :
    ∀ {r r' : HuffmanReader}, r.Ok capacity → bs.foldlM (readBit capacity) r = .ok r' →
    r'.Ok capacity ∧ r'.bits = r.bits ++ bs := by
  induction bs with
  | nil =>
    rintro r r' hr h
    simp only [List.foldlM_nil, pure, Except.pure, Except.ok.injEq] at h
    exact ⟨h ▸ hr, by simp [h]⟩
  | cons b bs ih =>
    rintro r r' hr h
    rw [List.foldlM_cons] at h
    cases h1 : r.readBit capacity b with
    | error status => simp [h1, bind, Except.bind] at h
    | ok r₁ =>
      obtain ⟨hr₁, hbits₁⟩ := readBit_spec hr (hbs b (by simp)) h1
      have hrest : bs.foldlM (readBit capacity) r₁ = .ok r' := by
        simpa [h1, bind, Except.bind] using h
      obtain ⟨hr', hbits'⟩ := ih (fun b' hb' => hbs b' (by simp [hb'])) hr₁ hrest
      exact ⟨hr', by rw [hbits', hbits₁]; simp⟩

end HuffmanReader

theorem octets_eq_of_bits {s s' : Bytes}
    (h : (s.flatMap fun b => bitsOf b.toNat 8) = s'.flatMap fun b => bitsOf b.toNat 8) : s = s' := by
  induction s generalizing s' with
  | nil =>
    cases s' with
    | nil => rfl
    | cons b s' => simp [bitsOf] at h
  | cons a s ih =>
    cases s' with
    | nil => simp [bitsOf] at h
    | cons b s' =>
      simp only [List.flatMap_cons] at h
      obtain ⟨hab, hs⟩ := List.append_inj h (by simp)
      have hnat : a.toNat = b.toNat := bitsOf_inj a.toNat_lt b.toNat_lt hab
      rw [UInt8.toNat_inj.1 hnat, ih hs]

theorem length_le_huffmanBits (d : Bytes) : 5 * d.length ≤ (huffmanBits d).length := by
  induction d with
  | nil => simp
  | cons b d ih =>
    have h5 := (huffmanBitLength_bounds b.toNat (by have := b.toNat_lt; omega)).1
    simp only [huffmanBits, List.flatMap_cons, List.length_append, bitsOf_length,
      List.length_cons] at ih ⊢
    omega

/-- What is accepted are the codes of the octets and less than eight ones. -/
theorem bits_of_decode {s : Bytes} (h : hpackHuffmanDecode s capacity = .ok d) :
    d.length ≤ capacity ∧ ∃ k < 8,
      (s.flatMap fun b => bitsOf b.toNat 8) = huffmanBits d ++ List.replicate k 1 := by
  unfold hpackHuffmanDecode at h
  by_cases hs : s = []
  · simp only [hs, if_true, pure, Except.pure, Except.ok.injEq] at h
    subst h hs
    exact ⟨Nat.zero_le _, 0, by omega, rfl⟩
  · rw [if_neg hs] at h
    cases hr : (s.flatMap fun b => bitsOf b.toNat 8).foldlM (HuffmanReader.readBit capacity) {} with
    | error status => simp [hr, bind, Except.bind] at h
    | ok r =>
      have hbs : ∀ b ∈ (s.flatMap fun b => bitsOf b.toNat 8), b < 2 := by
        intro b hb
        obtain ⟨c, -, hc⟩ := List.mem_flatMap.1 hb
        exact mem_bitsOf hc
      obtain ⟨hok, hbits⟩ := HuffmanReader.foldlM_readBit_spec hbs ⟨by simp, by simp⟩ hr
      simp only [hr, bind, Except.bind] at h
      split_ifs at h with h7 hpad
      simp only [pure, Except.pure, Except.ok.injEq] at h
      subst h
      refine ⟨hok.length_le, r.currentBitLen, by omega, ?_⟩
      have hones : r.currentCode = 2 ^ r.currentBitLen - 1 := by
        rcases Nat.eq_zero_or_pos r.currentBitLen with h0 | hpos
        · have := hok.code_lt
          rw [h0] at this ⊢
          simpa using this
        · rw [not_and, not_not, Nat.mod_eq_of_lt hok.code_lt] at hpad
          exact hpad hpos
      have hstart : HuffmanReader.bits {} = [] := rfl
      rw [hstart, List.nil_append] at hbits
      rw [← hbits, HuffmanReader.bits, hones, bitsOf_ones]

/-- The codes of the octets and less than eight ones are the encoded octets. -/
theorem eq_huffmanOctets {s : Bytes} (hk : k < 8)
    (h : (s.flatMap fun b => bitsOf b.toNat 8) = huffmanBits d ++ List.replicate k 1) :
    s = huffmanOctets d := by
  obtain ⟨k', hk', h'⟩ := huffmanOctets_bits d
  -- both paddings fill up the last octet, so they are equally long
  have hlen := congrArg List.length h
  have hlen' := congrArg List.length h'
  simp only [List.length_flatMap, bitsOf_length, List.map_const', List.sum_replicate_nat,
    List.length_append, List.length_replicate] at hlen hlen'
  have hkk : k = k' := by omega
  exact octets_eq_of_bits (by rw [h, h', hkk])

/-- **The accepted strings** are the encoded ones. -/
theorem hpackHuffmanDecode_eq_ok_iff {s : Bytes} :
    hpackHuffmanDecode s capacity = .ok d ↔ s = huffmanOctets d ∧ d.length ≤ capacity := by
  constructor
  · intro h
    obtain ⟨hd, k, hk, hbits⟩ := bits_of_decode h
    exact ⟨eq_huffmanOctets hk hbits, hd⟩
  · rintro ⟨rfl, hd⟩
    exact decode_huffmanOctets d hd

/-- The octets decoded are at most twice those read. -/
theorem length_le_huffmanOctets (d : Bytes) : d.length ≤ 2 * (huffmanOctets d).length := by
  have hbits := length_le_huffmanBits d
  rw [huffmanBits_length] at hbits
  rw [huffmanOctets_length, hpackHuffmanEncodedLength]
  omega

/-- **Huffman coding is a bijection onto the accepted strings**: decoding undoes
    encoding, encoding undoes decoding, and the lengths are as announced. -/
theorem hpackHuffman_bijective :
    (∀ (d : Bytes) (capacity : ℕ), hpackHuffmanEncodedLength d ≤ capacity →
      ∃ s, hpackHuffmanEncode d capacity = .ok s ∧ s.length = hpackHuffmanEncodedLength d ∧
        ∀ capacity', d.length ≤ capacity' → hpackHuffmanDecode s capacity' = .ok d) ∧
    (∀ (s d : Bytes) (capacity : ℕ), hpackHuffmanDecode s capacity = .ok d →
      (∀ capacity', s.length ≤ capacity' → hpackHuffmanEncode d capacity' = .ok s) ∧
        d.length ≤ 2 * s.length) := by
  refine ⟨fun d capacity hc => ?_, fun s d capacity h => ?_⟩
  · have hlen := huffmanOctets_length d
    refine ⟨huffmanOctets d, ?_, hlen, fun capacity' hd => decode_huffmanOctets d hd⟩
    rw [hpackHuffmanEncode_eq, if_pos (by omega)]
  · obtain ⟨rfl, hd⟩ := hpackHuffmanDecode_eq_ok_iff.1 h
    exact ⟨fun capacity' hs => by rw [hpackHuffmanEncode_eq, if_pos hs], length_le_huffmanOctets d⟩

end KernelHttp
