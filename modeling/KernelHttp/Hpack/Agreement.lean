/-
  Agreement of an HPACK encoder and a decoder over whole connections.

  The table of the encoder stays a prefix, newest entry first, of that of the decoder (`InSync`).
-/
import KernelHttp.Hpack.Encoder

namespace KernelHttp

open Fifo

/-- The fields the caller of `Encode` passes: a non-empty lower-case name, and
    lengths that are `ULONG` values. -/
structure ValidHeader (h : HttpHeader) : Prop where
  name_ne : h.name ≠ []
  lower : lowerCase h.name = true
  name_lt : h.name.length < 2 ^ 32
  value_lt : h.value.length < 2 ^ 32

instance (h : HttpHeader) : Decidable (ValidHeader h) :=
  decidable_of_iff (h.name ≠ [] ∧ lowerCase h.name = true ∧ h.name.length < 2 ^ 32 ∧
      h.value.length < 2 ^ 32)
    ⟨fun ⟨h1, h2, h3, h4⟩ => ⟨h1, h2, h3, h4⟩, fun ⟨h1, h2, h3, h4⟩ => ⟨h1, h2, h3, h4⟩⟩

/-! ## Strings -/

variable {add : Bool} {rest value dest : Bytes} {l : DecodeLimits} {s : DecodeState}
    {d : HpackDecoder} {dt et t : HpackDynamicTable} {e : HpackEncoder} {h : HttpHeader}
    {hs : List HttpHeader} {capacity i maxTableSize n : ℕ}

theorem decodeString_octets {data : Bytes} {nvOffset : ℕ} (hl : data.length < 2 ^ 32)
    (hc : nvOffset + data.length * 2 ≤ capacity) (rest : Bytes) :
    decodeString (stringOctets data ++ rest) nvOffset capacity =
      .ok (data, rest, nvOffset + data.length) := by
  unfold stringOctets
  by_cases hh : hpackHuffmanEncodedLength data < data.length
  · rw [if_pos hh, Nat.mod_eq_of_lt (by omega), List.append_assoc]
    have hdec := decode_encodeInteger (show hpackHuffmanEncodedLength data < 2 ^ 32 by omega)
      (show 0x80 < 256 by norm_num) (show 7 ≠ 0 by norm_num) (by norm_num)
      (huffmanOctets data ++ rest)
    have hdrop : (integerOctets (hpackHuffmanEncodedLength data) 0x80 7 ++
        (huffmanOctets data ++ rest)).drop _ = _ := List.drop_left
    obtain ⟨b, tl, he, hdiv, -⟩ := integerOctets_head (hpackHuffmanEncodedLength data)
      (show 0x80 < 256 by norm_num) (show 7 ≤ 8 by norm_num)
    have hb : b.toNat ≥ 128 := by norm_num at hdiv; omega
    have hlen := huffmanOctets_length data
    rw [he, List.cons_append] at hdec hdrop ⊢
    have hfits : rangeFits nvOffset ((huffmanOctets data).length * 2) capacity = true := by
      simp only [rangeFits, Bool.and_eq_true, decide_eq_true_eq]; omega
    unfold decodeString
    simp only [hdec, bind, Except.bind, hdrop, hb, if_true, hfits, ← hlen, List.take_left,
      List.drop_left, decode_huffmanOctets data (show data.length ≤ capacity - nvOffset by omega)]
    simp [pure, Except.pure]
  · rw [if_neg hh, Nat.mod_eq_of_lt hl, List.append_assoc]
    have hdec := decode_encodeInteger hl (show 0x00 < 256 by norm_num) (show 7 ≠ 0 by norm_num)
      (by norm_num) (data ++ rest)
    have hdrop : (integerOctets data.length 0x00 7 ++ (data ++ rest)).drop _ = _ := List.drop_left
    obtain ⟨b, tl, he, hdiv, -⟩ := integerOctets_head data.length (show 0x00 < 256 by norm_num)
      (show 7 ≤ 8 by norm_num)
    have hb : ¬ b.toNat ≥ 128 := by norm_num at hdiv; omega
    rw [he, List.cons_append] at hdec hdrop ⊢
    have hfits : rangeFits nvOffset data.length capacity = true := by
      simp only [rangeFits, Bool.and_eq_true, decide_eq_true_eq]; omega
    unfold decodeString
    simp only [hdec, bind, Except.bind, hdrop, hb, if_false, hfits, List.take_left,
      List.drop_left]
    simp [pure, Except.pure]

/-! ## One field -/

/-- **Tables in sync**: the entries of the encoder are the newest ones of the
    decoder, under the same bound, and every index is a `ULONG`. -/
structure InSync (et dt : HpackDynamicTable) : Prop where
  encoderWf : et.Wf
  decoderWf : dt.Wf
  allocated : et.Allocated ↔ dt.Allocated
  maxSize : dt.maxSize = et.maxSize
  headers : et.headers <+: dt.headers
  lower : ∀ h ∈ et.headers, lowerCase h.name = true
  small : hpackStaticTableSize + et.maxSize / hpackEntryOverhead < 2 ^ 32

theorem lookupIndex_eq (h : et.headers <+: dt.headers)
    {e : HttpHeader} (he : (allEntries et)[i]? = some e) : lookupIndex dt (i + 1) = .ok e := by
  unfold allEntries at he
  unfold lookupIndex
  rcases Nat.lt_or_ge i hpackStaticTable.length with hi | hi
  · rw [List.getElem?_append_left hi] at he
    rw [hpackStaticTable_length] at hi
    rw [if_pos (by omega), Nat.add_sub_cancel, he]
    rfl
  · rw [List.getElem?_append_right hi, hpackStaticTable_length] at he
    rw [hpackStaticTable_length] at hi
    rw [if_neg (by omega), show i + 1 - hpackStaticTableSize - 1 = i - hpackStaticTableSize by omega,
      HpackDynamicTable.lookup_eq]
    obtain ⟨older, hold⟩ := h
    obtain ⟨hlt, -⟩ := List.getElem?_eq_some_iff.1 he
    rw [← hold, List.getElem?_append_left hlt, he]

theorem index_lt (h : InSync et dt) {e : HttpHeader}
    (he : (allEntries et)[i]? = some e) : i + 1 < 2 ^ 32 := by
  obtain ⟨hi, -⟩ := List.getElem?_eq_some_iff.1 he
  rw [allEntries, List.length_append, hpackStaticTable_length,
    HpackDynamicTable.length_headers] at hi
  have hcount := HpackDynamicTable.entryCount_le h.encoderWf
  have hdiv : et.entryCount ≤ et.maxSize / hpackEntryOverhead :=
    (Nat.le_div_iff_mul_le (by decide)).2 (by rw [mul_comm]; exact hcount)
  have := h.small
  omega

theorem allEntries_lower (h : InSync et dt) :
    ∀ e ∈ allEntries et, lowerCase e.name = true := by
  intro e he
  rcases List.mem_append.1 he with he | he
  · exact hpackStaticTable_lowerCase e he
  · exact h.lower e he

theorem name_eq_of_match {a b : Bytes} (ha : lowerCase a = true) (hb : lowerCase b = true)
    (h : textEqualsIgnoreCase a b = true) : a = b := by
  rw [textEqualsIgnoreCase_iff, map_toLowerAscii ha, map_toLowerAscii hb] at h
  exact h

/-- The representation at the front of `s.rest` reads as the field `h`. -/
def Reads (l : DecodeLimits) (s : DecodeState) (h : HttpHeader) (addToTable : Bool)
    (rest : Bytes) : Prop :=
  ∃ byte tl nameFromTable valueFromTable nvOffset, s.rest = byte :: tl ∧
    decodeRepresentation l s byte.toNat = some (.ok
      { name := h.name, value := h.value, nameFromTable := nameFromTable
        valueFromTable := valueFromTable, addToTable := addToTable, rest := rest
        nvOffset := nvOffset }) ∧
    nvOffset + (if nameFromTable then h.name.length else 0) +
      (if valueFromTable then h.value.length else 0) =
      s.nvOffset + h.name.length + h.value.length

theorem reads_indexed {e : HttpHeader}
    (hi : i + 1 < 2 ^ 32) (hl : lookupIndex s.table (i + 1) = .ok e)
    (hr : s.rest = integerOctets (i + 1) 0x80 7 ++ rest) : Reads l s e false rest := by
  obtain ⟨b, tl, he, hdiv, -⟩ := integerOctets_head (i + 1) (show 0x80 < 256 by norm_num)
    (show 7 ≤ 8 by norm_num)
  have hdec := decode_encodeInteger hi (show 0x80 < 256 by norm_num) (show 7 ≠ 0 by norm_num)
    (by norm_num) rest
  have hb : b.toNat ≥ 128 := by norm_num at hdiv; omega
  refine ⟨b, tl ++ rest, true, true, s.nvOffset, by rw [hr, he]; rfl, ?_, by simp⟩
  unfold decodeRepresentation
  rw [if_pos hb, decodeIndexed, hr, hdec]
  simp only [bind, Except.bind, hl, pure, Except.pure, List.drop_left]
  rw [if_neg (by omega)]

/-- The first octet of a literal selects its prefix length. -/
theorem decodeRepresentation_literal {byte : ℕ} (neverIndex : Bool)
    (h : byte / 2 ^ (if neverIndex then 4 else 6) =
      (if neverIndex then 0x10 else 0x40) / 2 ^ (if neverIndex then 4 else 6)) :
    decodeRepresentation l s byte = some (decodeLiteral s.table s.rest s.nvOffset
      l.nameValueCapacity (if neverIndex then 4 else 6) !neverIndex) := by
  unfold decodeRepresentation
  cases neverIndex with
  | true =>
    norm_num at h
    rw [if_neg (by omega), if_neg (by omega), if_pos (by omega)]; rfl
  | false =>
    norm_num at h
    rw [if_neg (by omega), if_pos (by omega)]; rfl

theorem reads_nameIndexed {e : HttpHeader} (neverIndex : Bool) (hi : i + 1 < 2 ^ 32)
    (hl : lookupIndex s.table (i + 1) = .ok e) (hv : value.length < 2 ^ 32)
    (hc : s.nvOffset + value.length * 2 ≤ l.nameValueCapacity)
    (hr : s.rest = integerOctets (i + 1) (if neverIndex then 0x10 else 0x40)
      (if neverIndex then 4 else 6) ++ (stringOctets value ++ rest)) :
    Reads l s ⟨e.name, value⟩ (!neverIndex) rest := by
  have hp : (if neverIndex then 0x10 else 0x40) < 256 := by cases neverIndex <;> decide
  have hb0 : (if neverIndex then 4 else 6) ≠ 0 := by cases neverIndex <;> decide
  have hb8 : (if neverIndex then 4 else 6) ≤ 8 := by cases neverIndex <;> decide
  obtain ⟨b, tl, he, hdiv, -⟩ := integerOctets_head (i + 1) hp hb8
  have hdec := decode_encodeInteger hi hp hb0 hb8 (stringOctets value ++ rest)
  refine ⟨b, tl ++ (stringOctets value ++ rest), true, false, s.nvOffset + value.length,
    by rw [hr, he]; rfl, ?_, by simp; omega⟩
  rw [decodeRepresentation_literal neverIndex hdiv, decodeLiteral, hr, hdec]
  simp only [bind, Except.bind, hl, List.drop_left, decodeString_octets hv hc, pure, Except.pure]
  rw [if_pos (by omega)]

theorem reads_literal {name : Bytes}
    (neverIndex : Bool) (hn : name.length < 2 ^ 32) (hv : value.length < 2 ^ 32)
    (hc : s.nvOffset + (name.length + value.length) * 2 ≤ l.nameValueCapacity)
    (hr : s.rest = UInt8.ofNat (if neverIndex then 0x10 else 0x40) ::
      (stringOctets name ++ (stringOctets value ++ rest))) :
    Reads l s ⟨name, value⟩ (!neverIndex) rest := by
  have hb : (UInt8.ofNat (if neverIndex then 0x10 else 0x40)).toNat =
      if neverIndex then 0x10 else 0x40 := by cases neverIndex <;> decide
  have hdec : hpackDecodeInteger s.rest (if neverIndex then 4 else 6) = .ok (0, 1) := by
    rw [hr]; cases neverIndex <;> rfl
  refine ⟨_, _, false, false, s.nvOffset + name.length + value.length, hr, ?_, by simp⟩
  rw [decodeRepresentation_literal neverIndex (by rw [hb]), decodeLiteral, hdec]
  simp only [bind, Except.bind, hr, List.drop_succ_cons, List.drop_zero,
    decodeString_octets hn (show s.nvOffset + name.length * 2 ≤ l.nameValueCapacity by omega),
    decodeString_octets hv
      (show s.nvOffset + name.length + value.length * 2 ≤ l.nameValueCapacity by omega),
    pure, Except.pure]
  rfl

/-- **The octets of a field read as the field**, and it is inserted iff the
    encoder inserts it. -/
theorem reads_fieldOctets (hsync : InSync et s.table) (hv : ValidHeader h)
    (hc : s.nvOffset + (h.name.length + h.value.length) * 2 ≤ l.nameValueCapacity)
    (hr : s.rest = fieldOctets et h ++ rest) : Reads l s h (isInserted et h) rest := by
  have hspec := findMatch_spec et h.name h.value
  have hname : ∀ {i : ℕ} {e : HttpHeader}, (allEntries et)[i]? = some e →
      textEqualsIgnoreCase h.name e.name = true → e.name = h.name := fun he hn =>
    (name_eq_of_match hv.lower (allEntries_lower hsync _ (List.mem_of_getElem? he)) hn).symm
  have hval : s.nvOffset + h.value.length * 2 ≤ l.nameValueCapacity := by omega
  unfold fieldOctets at hr
  unfold isInserted
  unfold isIndexed at hr ⊢
  generalize findMatch et h.name h.value = r at hr hspec ⊢
  cases hspec with
  | none _ =>
    exact reads_literal (isSensitiveHeaderName h.name) hv.name_lt hv.value_lt hc
      (by simpa using hr)
  | nameOnly he hn _ =>
    have hlt := index_lt hsync he
    simp only [Nat.mod_eq_of_lt hlt] at hr
    have := reads_nameIndexed (isSensitiveHeaderName h.name) hlt
      (lookupIndex_eq hsync.headers he) hv.value_lt hval
      (by simpa using hr)
    rw [hname he hn] at this
    simpa using this
  | @full i e he hn hveq =>
    have hlt := index_lt hsync he
    simp only [Nat.mod_eq_of_lt hlt] at hr
    cases hsens : isSensitiveHeaderName h.name with
    | true =>
      have := reads_nameIndexed true hlt (lookupIndex_eq hsync.headers he) hv.value_lt hval
        (by simpa [hsens] using hr)
      rw [hname he hn] at this
      simpa using this
    | false =>
      have heq : e = h := by
        rw [← (show (⟨e.name, e.value⟩ : HttpHeader) = e from rfl), hname he hn, ← hveq]
      have := reads_indexed (l := l) hlt (lookupIndex_eq hsync.headers he)
        (by simpa [hsens] using hr)
      rw [heq] at this
      simpa using this

/-- The state behind the field `h`. -/
def DecodeState.emit (s : DecodeState) (table : HpackDynamicTable) (rest : Bytes)
    (h : HttpHeader) : DecodeState :=
  { table := table, rest := rest, headers := s.headers ++ [h]
    nvOffset := s.nvOffset + h.name.length + h.value.length
    headerListSize := s.headerListSize + headerSize h, allowTableSizeUpdate := false }

/-- A field that was read is inserted if it is to be, and then emitted. -/
theorem decodeTurn_inserts (hr : Reads l s h add rest)
    (hc : s.nvOffset + h.name.length + h.value.length ≤ l.nameValueCapacity)
    (hm : l.maxHeaderListSize ≤ maxSizeT)
    (hsize : s.headerListSize + headerSize h ≤ l.maxHeaderListSize)
    (hn : s.headers.length < l.headerCapacity) {inserted : NTSTATUS × HpackDynamicTable}
    (hins : (if add then s.table.insert h.name h.value else (statusSuccess, s.table)) = inserted) :
    ∃ byte tl, s.rest = byte :: tl ∧ decodeTurn l maxTableSize s byte =
      if ntSuccess inserted.1 then .ok (s.emit inserted.2 rest h) else .error inserted := by
  obtain ⟨byte, tl, nt, vt, nv, hrest, hrep, hnv⟩ := hr
  refine ⟨byte, tl, hrest, ?_⟩
  have h1 : materializeHeaderPart nt h.name.length nv l.nameValueCapacity =
      .ok (nv + if nt then h.name.length else 0) := by
    cases nt
    · rfl
    · simp only [if_true] at hnv
      simp [materializeHeaderPart, rangeFits]; omega
  have h2 : materializeHeaderPart vt h.value.length (nv + if nt then h.name.length else 0)
      l.nameValueCapacity = .ok (s.nvOffset + h.name.length + h.value.length) := by
    rw [← hnv]
    cases vt
    · rfl
    · simp only [if_true] at hnv ⊢
      simp [materializeHeaderPart, rangeFits]; omega
  have h3 : addHeaderListSize h.name.length h.value.length l.maxHeaderListSize s.headerListSize =
      some (s.headerListSize + headerSize h) := by
    rw [addHeaderListSize_eq hm]
    exact if_pos hsize
  unfold decodeTurn
  simp only [hrep, emitField, h1, h2, h3, hins]
  cases hok : ntSuccess inserted.1 with
  | true =>
    rw [if_neg (by simp), if_neg (by omega)]
    rfl
  | false => rfl

theorem decodeTurn_reads (hr : Reads l s h add rest)
    (hc : s.nvOffset + h.name.length + h.value.length ≤ l.nameValueCapacity)
    (hm : l.maxHeaderListSize ≤ maxSizeT)
    (hsize : s.headerListSize + headerSize h ≤ l.maxHeaderListSize)
    (hn : s.headers.length < l.headerCapacity) {table : HpackDynamicTable}
    (hins : (if add then s.table.insert h.name h.value else (statusSuccess, s.table)) =
      (statusSuccess, table)) :
    ∃ byte tl, s.rest = byte :: tl ∧
      decodeTurn l maxTableSize s byte = .ok (s.emit table rest h) := by
  obtain ⟨byte, tl, hrest, hturn⟩ := decodeTurn_inserts hr hc hm hsize hn hins
  exact ⟨byte, tl, hrest, by rw [hturn, if_pos (by simp)]⟩

/-! ## Both tables insert -/

theorem fit_subset {α : Type*} {w : α → ℕ} {b : ℕ} {xs : List α} {x : α} (h : x ∈ fit w b xs) :
    x ∈ xs := (fit_isPrefix b xs).subset h

/-- Inserting the field of a literal keeps the tables in sync. -/
theorem InSync.insert (hsync : InSync et dt)
    (hv : ValidHeader h) (hroom : et.Allocated ∨ et.maxSize < headerSize h) :
    ∃ et' dt', et.insert h.name h.value = (statusSuccess, et') ∧
      dt.insert h.name h.value = (statusSuccess, dt') ∧ InSync et' dt' ∧
      et'.maxSize = et.maxSize ∧ (et'.Allocated ↔ et.Allocated) := by
  have hsmall := hsync.small
  simp only [hpackStaticTableSize, hpackEntryOverhead] at hsmall
  have hmax : et.maxSize ≤ maxSizeT := by unfold maxSizeT; omega
  have hsize : headerSize h ≤ maxSizeT := by
    have := hv.name_lt; have := hv.value_lt
    simp only [headerSize, hpackEntryOverhead, maxSizeT]; omega
  obtain ⟨et', he1, he2, he3, he4, he5⟩ := HpackDynamicTable.insert_spec hsync.encoderWf.toFits
    hroom hsize hmax
  obtain ⟨dt', hd1, hd2, hd3, hd4, hd5⟩ := HpackDynamicTable.insert_spec hsync.decoderWf.toFits
    (hroom.imp hsync.allocated.1 fun hlt => by rw [hsync.maxSize]; exact hlt) hsize
    (by rw [hsync.maxSize]; exact hmax)
  refine ⟨et', dt', he1, hd1, ⟨he2, hd2, ?_, ?_, ?_, ?_, ?_⟩, he4, he3⟩
  · rw [he3, hd3]; exact hsync.allocated
  · rw [he4, hd4]; exact hsync.maxSize
  · rw [he5, hd5, hsync.maxSize]
    exact prefix_fit ((List.prefix_cons_inj _).2 hsync.headers) _
  · intro a ha
    rw [he5] at ha
    rcases List.mem_cons.1 (fit_subset ha) with rfl | ha
    · exact hv.lower
    · exact hsync.lower a ha
  · rw [he4]; exact hsync.small

/-! ## Fields that enter the table -/

/-- The field would enter an empty table of size `maxSize`: it is not sensitive,
    it is no entry of the static table, and it fits. -/
def entersTable (maxSize : ℕ) (h : HttpHeader) : Bool :=
  !isSensitiveHeaderName h.name && !hpackStaticTable.contains h && decide (headerSize h ≤ maxSize)

theorem headers_of_unallocated (h : t.Fits) (ha : ¬ t.Allocated) :
    t.headers = [] := by
  have := HpackDynamicTable.entryCount_eq_zero h (not_not.1 ha)
  exact List.eq_nil_of_length_eq_zero (by simpa using this)

/-- With an empty table, the fields that are inserted are those that would enter
    it, or are too large. -/
theorem isInserted_unallocated (ht : t.Fits) (ha : ¬ t.Allocated) (hv : ValidHeader h) :
    isInserted t h = (!isSensitiveHeaderName h.name && !hpackStaticTable.contains h) := by
  have hind := isIndexed_iff t h
  have hmem : (∃ e ∈ allEntries t, textEqualsIgnoreCase h.name e.name = true ∧ h.value = e.value) ↔
      hpackStaticTable.contains h = true := by
    rw [allEntries, headers_of_unallocated ht ha, List.append_nil, List.contains_iff_mem]
    constructor
    · rintro ⟨e, he, hn, hval⟩
      have hname := name_eq_of_match hv.lower (hpackStaticTable_lowerCase e he) hn
      have heq : h = e := by
        rw [← (show (⟨h.name, h.value⟩ : HttpHeader) = h from rfl), hname, hval]
      rwa [heq]
    · exact fun hm => ⟨h, hm, by simp [textEqualsIgnoreCase], rfl⟩
  rw [hmem] at hind
  unfold isInserted
  rw [Bool.eq_iff_iff] at *
  cases hs : isSensitiveHeaderName h.name <;> cases hc : hpackStaticTable.contains h <;>
    cases hi : isIndexed t h <;> simp_all

theorem fieldOctets_ne_nil (t : HpackDynamicTable) (h : HttpHeader) : fieldOctets t h ≠ [] := by
  unfold fieldOctets
  simp only
  split_ifs <;> simp [integerOctets_ne_nil]

/-! ## A whole block -/

/-- The buffers of a call of `Decode` are large enough for the fields `hs`, when
    `nvOffset` octets, `listSize` and `count` are in use. -/
structure Enough (l : DecodeLimits) (nvOffset listSize count : ℕ) (hs : List HttpHeader) : Prop where
  names : nvOffset + (hs.map fun h => (h.name.length + h.value.length) * 2).sum ≤
    l.nameValueCapacity
  size : listSize + total headerSize hs ≤ maxSizeT
  count_le : count + hs.length ≤ l.headerCapacity
  unlimited : l.maxHeaderListSize = maxSizeT

instance (l : DecodeLimits) (nvOffset listSize count : ℕ) (hs : List HttpHeader) :
    Decidable (Enough l nvOffset listSize count hs) :=
  decidable_of_iff (nvOffset + (hs.map fun h => (h.name.length + h.value.length) * 2).sum ≤
      l.nameValueCapacity ∧ listSize + total headerSize hs ≤ maxSizeT ∧
      count + hs.length ≤ l.headerCapacity ∧ l.maxHeaderListSize = maxSizeT)
    ⟨fun ⟨h1, h2, h3, h4⟩ => ⟨h1, h2, h3, h4⟩, fun ⟨h1, h2, h3, h4⟩ => ⟨h1, h2, h3, h4⟩⟩

theorem Enough.tail {l : DecodeLimits} {nvOffset listSize count : ℕ} {h : HttpHeader}
    {hs : List HttpHeader} (he : Enough l nvOffset listSize count (h :: hs)) :
    Enough l (nvOffset + h.name.length + h.value.length) (listSize + headerSize h) (count + 1) hs := by
  obtain ⟨h1, h2, h3, h4⟩ := he
  simp only [List.map_cons, List.sum_cons, total_cons, List.length_cons] at h1 h2 h3
  exact ⟨by omega, by omega, by omega, h4⟩

theorem decodeTurn_encodeField
    (hsync : InSync et dt) (hv : ValidHeader h) (hd : dest.length ≤ capacity)
    (hroom : et.Allocated ∨ entersTable et.maxSize h = false)
    (hfit : dest.length + (fieldOctets et h).length ≤ capacity) :
    ∃ et' dt', encodeField et h dest capacity = (.ok (dest ++ fieldOctets et h), et') ∧
      InSync et' dt' ∧ et'.maxSize = et.maxSize ∧ (et'.Allocated ↔ et.Allocated) ∧
      ∀ (l : DecodeLimits) (mts : ℕ) (s : DecodeState) (rest : Bytes) (hs : List HttpHeader),
        s.table = dt → s.rest = fieldOctets et h ++ rest →
        Enough l s.nvOffset s.headerListSize s.headers.length (h :: hs) →
        ∃ byte tl, s.rest = byte :: tl ∧
          decodeTurn l mts s byte = .ok (s.emit dt' rest h) := by
  have hw := writeField_writes et h hd
  unfold Writes at hw
  rw [if_pos hfit] at hw
  have hdecode : ∀ dt', (if isInserted et h then dt.insert h.name h.value else (statusSuccess, dt)) =
      (statusSuccess, dt') →
      ∀ (l : DecodeLimits) (mts : ℕ) (s : DecodeState) (rest : Bytes) (hs : List HttpHeader),
        s.table = dt → s.rest = fieldOctets et h ++ rest →
        Enough l s.nvOffset s.headerListSize s.headers.length (h :: hs) →
        ∃ byte tl, s.rest = byte :: tl ∧
          decodeTurn l mts s byte = .ok (s.emit dt' rest h) := by
    intro dt' hins l mts s rest hs ht hrest hen
    obtain ⟨h1, h2, h3, h4⟩ := hen
    simp only [List.map_cons, List.sum_cons, total_cons, List.length_cons] at h1 h2 h3
    subst ht
    exact decodeTurn_reads (reads_fieldOctets hsync hv (by omega) hrest) (by omega) h4.le
      (by omega) (by omega) hins
  unfold encodeField
  rw [if_neg hv.name_ne, hw]
  simp only
  cases hi : isInserted et h with
  | false =>
    exact ⟨et, dt, by simp, hsync, rfl, Iff.rfl, hdecode dt (by simp [hi])⟩
  | true =>
    have hroom' : et.Allocated ∨ et.maxSize < headerSize h := by
      by_cases ha : et.Allocated
      · exact Or.inl ha
      · have hun := isInserted_unallocated hsync.encoderWf.toFits ha hv
        have hno := hroom.resolve_left ha
        rw [entersTable, ← hun, hi, Bool.true_and, decide_eq_false_iff_not] at hno
        exact Or.inr (by omega)
    obtain ⟨et', dt', he, hdt, hs', hm', ha'⟩ := hsync.insert hv hroom'
    exact ⟨et', dt', by simp [he], hs', hm', ha', hdecode dt' (by simp [hi, hdt])⟩

theorem encodeField_tooSmall (hn : h.name ≠ []) (hd : dest.length ≤ capacity)
    (hfit : ¬ dest.length + (fieldOctets et h).length ≤ capacity) :
    encodeField et h dest capacity = (.error statusBufferTooSmall, et) := by
  have hw := writeField_writes et h hd
  unfold Writes at hw
  rw [if_neg hfit] at hw
  unfold encodeField
  rw [if_neg hn, hw]

/-- **A block decodes to the fields it was encoded from**, and leaves the tables
    in sync. -/
theorem decodeLoop_encodeLoop {capacity : ℕ} : ∀ (hs : List HttpHeader)
    {et dt : HpackDynamicTable} {dest : Bytes}, InSync et dt → (∀ h ∈ hs, ValidHeader h) →
    dest.length ≤ capacity → (et.Allocated ∨ ∀ h ∈ hs, entersTable et.maxSize h = false) →
    (encodeLoop capacity et hs dest).1 ≠ .error statusBufferTooSmall →
    ∃ octets et' dt', encodeLoop capacity et hs dest = (.ok (dest ++ octets), et') ∧
      InSync et' dt' ∧ et'.maxSize = et.maxSize ∧ (et'.Allocated ↔ et.Allocated) ∧
      ∀ (l : DecodeLimits) (mts fuel : ℕ) (s : DecodeState), s.table = dt → s.rest = octets →
        octets.length ≤ fuel → Enough l s.nvOffset s.headerListSize s.headers.length hs →
        ∃ s', decodeLoop l mts fuel s = .ok s' ∧ s'.headers = s.headers ++ hs ∧ s'.table = dt' := by
  intro hs
  induction hs with
  | nil =>
    intro et dt dest hsync _ _ _ _
    refine ⟨[], et, dt, by simp [encodeLoop], hsync, rfl, Iff.rfl, ?_⟩
    intro l mts fuel s ht hr _ _
    refine ⟨s, ?_, by simp, ht⟩
    cases fuel with
    | zero => rfl
    | succ n => simp [decodeLoop, hr]
  | cons h hs ih =>
    intro et dt dest hsync hv hd hroom hres
    have hfit : dest.length + (fieldOctets et h).length ≤ capacity := by
      by_contra hno
      exact hres (by simp [encodeLoop, encodeField_tooSmall (hv h (by simp)).name_ne hd hno])
    obtain ⟨et₁, dt₁, he, hs₁, hm₁, ha₁, hdec⟩ := decodeTurn_encodeField hsync (hv h (by simp)) hd
      (hroom.imp id fun hno => hno h (by simp)) hfit
    have hres₁ : (encodeLoop capacity et₁ hs (dest ++ fieldOctets et h)).1 ≠
        .error statusBufferTooSmall := by
      simpa [encodeLoop, he] using hres
    obtain ⟨octets, et', dt', he', hs', hm', ha', hdec'⟩ := ih hs₁
      (fun a ha => hv a (by simp [ha])) (by simpa using hfit)
      (hroom.imp ha₁.2 fun hno a ha => hm₁ ▸ hno a (by simp [ha])) hres₁
    refine ⟨fieldOctets et h ++ octets, et', dt', by simp [encodeLoop, he, he'], hs',
      hm'.trans hm₁, ha'.trans ha₁, ?_⟩
    intro l mts fuel s ht hr hfuel hen
    obtain ⟨byte, tl, hcons, hturn⟩ := hdec l mts s octets hs ht hr hen
    have hpos := List.length_pos_iff.2 (fieldOctets_ne_nil et h)
    rw [List.length_append] at hfuel
    obtain ⟨fuel, rfl⟩ : ∃ n, fuel = n + 1 := ⟨fuel - 1, by omega⟩
    obtain ⟨s', h1, h2, h3⟩ := hdec' l mts fuel (s.emit dt₁ octets h) rfl rfl (by omega)
      (by simpa [DecodeState.emit] using hen.tail)
    refine ⟨s', ?_, by simpa [DecodeState.emit] using h2, h3⟩
    unfold decodeLoop
    simp only [hcons, hturn, bind, Except.bind]
    exact h1

/-! ## Table size updates -/

theorem inSync_updateMaxSize (he : et.Wf) (hd : dt.Wf)
    (ha : et.Allocated ↔ dt.Allocated) (hp : et.headers <+: dt.headers)
    (hlow : ∀ h ∈ et.headers, lowerCase h.name = true) (hn : n < 2 ^ 32) :
    InSync (et.updateMaxSize n) (dt.updateMaxSize n) := by
  obtain ⟨e1, e2, e3, e4⟩ := HpackDynamicTable.updateMaxSize_spec he.toFits n
  obtain ⟨d1, d2, d3, d4⟩ := HpackDynamicTable.updateMaxSize_spec hd.toFits n
  refine ⟨e1, d1, by rw [e4, d4]; exact ha, by rw [e3, d3], ?_, ?_, ?_⟩
  · rw [e2, d2]; exact prefix_fit hp n
  · intro h hh
    rw [e2] at hh
    exact hlow h (fit_subset hh)
  · rw [e3]; simp only [hpackStaticTableSize, hpackEntryOverhead]; omega

/-- **Encoder and decoder in sync**: their tables are, once the decoder has taken
    the update the next block starts with. -/
structure Synced (e : HpackEncoder) (d : HpackDecoder) : Prop where
  decoderWf : d.table.Wf
  encoderMax : e.table.maxSize = e.maxTableSize
  pending : e.tableSizeUpdatePending = true → e.pendingTableSize = e.maxTableSize ∧
    e.maxTableSize < 2 ^ 32 ∧ e.maxTableSize ≤ d.maxTableSize
  tables : InSync e.table
    (if e.tableSizeUpdatePending then d.table.updateMaxSize e.maxTableSize else d.table)

theorem Synced.prefix_headers (h : Synced e d) :
    e.table.headers <+: d.table.headers := by
  have := h.tables.headers
  split_ifs at this with hp
  · rw [(HpackDynamicTable.updateMaxSize_spec h.decoderWf.toFits _).2.1] at this
    exact this.trans (fit_isPrefix _ _)
  · exact this

theorem Synced.allocated_iff (h : Synced e d) :
    e.table.Allocated ↔ d.table.Allocated := by
  have := h.tables.allocated
  split_ifs at this with hp
  · rw [this, (HpackDynamicTable.updateMaxSize_spec h.decoderWf.toFits _).2.2.2]
  · exact this

theorem synced_initialize {m : ℕ} (limit : ℕ)
    (hm : hpackStaticTableSize + m / hpackEntryOverhead < 2 ^ 32) :
    Synced (.initializeEncoder m) { HpackDecoder.initializeDecoder m with maxTableSize := limit } := by
  have hwf := HpackDynamicTable.initializeTable_wf m
  refine ⟨hwf, by simp [HpackEncoder.initializeEncoder], by simp [HpackEncoder.initializeEncoder],
    ⟨hwf, hwf, Iff.rfl, rfl, ?_, ?_, ?_⟩⟩
  · simp [HpackEncoder.initializeEncoder]
  · simp [HpackEncoder.initializeEncoder]
  · simpa [HpackEncoder.initializeEncoder] using hm

/-- `UpdateMaxTableSize` keeps encoder and decoder in sync. -/
theorem Synced.updateMaxTableSize (h : Synced e d) (hn : n < 2 ^ 32) (hl : n ≤ d.maxTableSize) :
    Synced (e.updateMaxTableSize n) d ∧ (e.updateMaxTableSize n).maxTableSize = n ∧
      ((e.updateMaxTableSize n).table.Allocated ↔ e.table.Allocated) := by
  unfold HpackEncoder.updateMaxTableSize
  split_ifs with heq
  · exact ⟨h, heq, Iff.rfl⟩
  · obtain ⟨-, -, e3, e4⟩ := HpackDynamicTable.updateMaxSize_spec h.tables.encoderWf.toFits n
    exact ⟨⟨h.decoderWf, e3, fun _ => ⟨rfl, hn, hl⟩, inSync_updateMaxSize h.tables.encoderWf
      h.decoderWf h.allocated_iff h.prefix_headers h.tables.lower hn⟩, rfl, e4⟩

/-- The turn that reads a table size update. -/
theorem decodeTurn_sizeUpdate (l : DecodeLimits) {mts : ℕ} (s : DecodeState) (rest : Bytes)
    (hn : n < 2 ^ 32) (hm : n ≤ mts) (ha : s.allowTableSizeUpdate = true)
    (hr : s.rest = integerOctets n 0x20 5 ++ rest) :
    ∃ byte tl, s.rest = byte :: tl ∧ decodeTurn l mts s byte =
      .ok { s with table := s.table.updateMaxSize n, rest := rest } := by
  obtain ⟨b, tl, he, hdiv, -⟩ := integerOctets_head n (show 0x20 < 256 by norm_num)
    (show 5 ≤ 8 by norm_num)
  have hdec := decode_encodeInteger hn (show 0x20 < 256 by norm_num) (show 5 ≠ 0 by norm_num)
    (by norm_num) rest
  have hb : b.toNat / 32 = 1 := by norm_num at hdiv; omega
  refine ⟨b, tl ++ rest, by rw [hr, he]; rfl, ?_⟩
  have hrep : decodeRepresentation l s b.toNat = none := by
    unfold decodeRepresentation
    rw [if_neg (by omega), if_neg (by omega), if_neg (by omega)]
  have hupd : decodeSizeUpdate mts s =
      .ok { s with table := s.table.updateMaxSize n, rest := rest } := by
    unfold decodeSizeUpdate
    rw [if_neg (by simp [ha]), hr, hdec]
    simp only [bind, Except.bind, pure, Except.pure, List.drop_left]
    rw [if_neg (by omega)]
  unfold decodeTurn
  simp only [hrep, hupd, Except.mapError]

/-- **One block**: `Decode` returns the list `Encode` was given. -/
theorem decode_encode (h : Synced e d) (hv : ∀ a ∈ hs, ValidHeader a) (hl : Enough l 0 0 0 hs)
    (hroom : e.table.Allocated ∨ ∀ a ∈ hs, entersTable e.maxTableSize a = false)
    (hres : (e.encode hs capacity).1 ≠ .error statusBufferTooSmall) :
    ∃ block e' d', e.encode hs capacity = (.ok block, e') ∧ d.decode l block = (.ok hs, d') ∧
      Synced e' d' ∧ e'.maxTableSize = e.maxTableSize ∧
      (e'.table.Allocated ↔ e.table.Allocated) ∧ d'.maxTableSize = d.maxTableSize := by
  rw [← h.encoderMax] at hroom
  have htables := h.tables
  cases hp : e.tableSizeUpdatePending with
  | false =>
    simp only [hp, Bool.false_eq_true, if_false] at htables
    have hw : e.writeSizeUpdate capacity = (.ok [], e) := by
      simp [HpackEncoder.writeSizeUpdate, hp]
    simp only [HpackEncoder.encode, hw] at hres ⊢
    obtain ⟨octets, et', dt', he, hs', hm', ha', hdec⟩ := decodeLoop_encodeLoop hs htables hv
      (Nat.zero_le _) hroom hres
    obtain ⟨s', h1, h2, h3⟩ := hdec l d.maxTableSize octets.length
      { table := d.table, rest := octets } rfl rfl le_rfl hl
    refine ⟨octets, { e with table := et' }, { d with table := s'.table }, by simp [he], ?_, ?_, rfl,
      ha', rfl⟩
    · simp only [HpackDecoder.decode, h1]
      rw [h2]; rfl
    · rw [h3]
      refine ⟨hs'.decoderWf, by rw [hm']; exact h.encoderMax, by simp [hp], ?_⟩
      simpa [hp] using hs'
  | true =>
    simp only [hp, if_true] at htables
    obtain ⟨hpend, hlt, hle⟩ := h.pending hp
    have hw := hpackEncodeInteger_eq (e.pendingTableSize % 2 ^ 32) 0x20 capacity
      (show 5 ≠ 0 by norm_num) (by norm_num)
    rw [hpend, Nat.mod_eq_of_lt hlt] at hw
    by_cases hfit : (integerOctets e.maxTableSize 0x20 5).length ≤ capacity
    · rw [if_pos hfit] at hw
      have hw' : e.writeSizeUpdate capacity =
          (.ok (integerOctets e.maxTableSize 0x20 5), { e with tableSizeUpdatePending := false }) := by
        unfold HpackEncoder.writeSizeUpdate
        rw [if_pos hp, hpend, Nat.mod_eq_of_lt hlt, hw]
      simp only [HpackEncoder.encode, hw'] at hres ⊢
      obtain ⟨octets, et', dt', he, hs', hm', ha', hdec⟩ := decodeLoop_encodeLoop hs htables hv
        hfit hroom hres
      set block := integerOctets e.maxTableSize 0x20 5 ++ octets with hblock
      obtain ⟨byte, tl, hcons, hturn⟩ := decodeTurn_sizeUpdate l
        { table := d.table, rest := block } octets hlt hle rfl rfl
      have hne := List.length_pos_iff.2 (integerOctets_ne_nil e.maxTableSize 0x20 5)
      obtain ⟨fuel, hfuel⟩ : ∃ n, block.length = n + 1 :=
        ⟨block.length - 1, by rw [hblock, List.length_append]; omega⟩
      obtain ⟨s', h1, h2, h3⟩ := hdec l d.maxTableSize fuel
        { table := d.table.updateMaxSize e.maxTableSize, rest := octets } rfl rfl
        (by rw [hblock, List.length_append] at hfuel; omega) hl
      have hloop : decodeLoop l d.maxTableSize block.length { table := d.table, rest := block } =
          .ok s' := by
        rw [hfuel]
        unfold decodeLoop
        simp only at hcons
        simp only [hcons, bind, Except.bind] at hturn ⊢
        rw [hturn]
        exact h1
      refine ⟨block, { e with tableSizeUpdatePending := false, table := et' },
        { d with table := s'.table }, by simp [he], ?_, ?_, rfl, ha', rfl⟩
      · simp only [HpackDecoder.decode, hloop]
        rw [h2]; rfl
      · rw [h3]
        refine ⟨hs'.decoderWf, by rw [hm']; exact h.encoderMax, by simp, ?_⟩
        simpa using hs'
    · rw [if_neg hfit] at hw
      exfalso
      refine hres ?_
      have hw' : e.writeSizeUpdate capacity = (.error statusBufferTooSmall, e) := by
        unfold HpackEncoder.writeSizeUpdate
        rw [if_pos hp, hpend, Nat.mod_eq_of_lt hlt, hw]
      simp only [HpackEncoder.encode, hw']

/-! ## Whole connections -/

/-- What the owner of an encoder does: change the table size, or encode a list
    into `capacity` octets, which the peer then decodes with buffers `limits`. -/
inductive HpackCall where
  | updateMaxTableSize (n : ℕ)
  | encode (headers : List HttpHeader) (capacity : ℕ) (limits : DecodeLimits)

/-- A list passed to `Encode`, the block it returned, and what `Decode` returned
    for this block, if there is one. -/
structure HpackOutcome where
  headers : List HttpHeader
  encoded : Except NTSTATUS Bytes
  decoded : Option (Except NTSTATUS (List HttpHeader))

def hpackRun : HpackEncoder → HpackDecoder → List HpackCall → List HpackOutcome
  | _, _, [] => []
  | e, d, .updateMaxTableSize n :: cs => hpackRun (e.updateMaxTableSize n) d cs
  | e, d, .encode hs capacity l :: cs =>
    match e.encode hs capacity with
    | (.error status, e) => ⟨hs, .error status, none⟩ :: hpackRun e d cs
    | (.ok block, e) =>
      let (result, d) := d.decode l block
      ⟨hs, .ok block, some result⟩ :: hpackRun e d cs

/-- Every list was encoded, and decoded to itself. -/
def Agrees (outcomes : List HpackOutcome) : Prop :=
  ∀ o ∈ outcomes, o.decoded = some (.ok o.headers)

instance (outcomes : List HpackOutcome) : Decidable (Agrees outcomes) :=
  inferInstanceAs (Decidable (∀ o ∈ outcomes, _))

/-- A call within the contract of `Encode` and `Decode`: sizes are `ULONG` values within the limit of
    the decoder, fields are valid, and the buffers of the decoder suffice. -/
def HpackCall.Valid (limit : ℕ) : HpackCall → Prop
  | .updateMaxTableSize n => n < 2 ^ 32 ∧ n ≤ limit
  | .encode hs _ l => (∀ h ∈ hs, ValidHeader h) ∧ Enough l 0 0 0 hs

instance (limit : ℕ) : ∀ c : HpackCall, Decidable (c.Valid limit)
  | .updateMaxTableSize n => inferInstanceAs (Decidable (n < 2 ^ 32 ∧ n ≤ limit))
  | .encode hs _ l =>
    inferInstanceAs (Decidable ((∀ h ∈ hs, ValidHeader h) ∧ Enough l 0 0 0 hs))

/-- No call of `Encode` ran out of output. -/
def HasCapacity : HpackEncoder → List HpackCall → Prop
  | _, [] => True
  | e, .updateMaxTableSize n :: cs => HasCapacity (e.updateMaxTableSize n) cs
  | e, .encode hs capacity _ :: cs =>
    (e.encode hs capacity).1 ≠ .error statusBufferTooSmall ∧
      HasCapacity (e.encode hs capacity).2 cs

instance decidableHasCapacity : ∀ e calls, Decidable (HasCapacity e calls)
  | _, [] => .isTrue trivial
  | e, .updateMaxTableSize n :: cs => decidableHasCapacity (e.updateMaxTableSize n) cs
  | e, .encode hs capacity _ :: cs =>
    have := decidableHasCapacity (e.encode hs capacity).2 cs
    inferInstanceAs (Decidable (_ ∧ _))

/-- No field that is encoded would enter a table of the size announced last. -/
def NoEntry : ℕ → List HpackCall → Prop
  | _, [] => True
  | _, .updateMaxTableSize n :: cs => NoEntry n cs
  | m, .encode hs _ _ :: cs => (∀ h ∈ hs, entersTable m h = false) ∧ NoEntry m cs

theorem agrees_of_synced (calls : List HpackCall) : ∀ {e : HpackEncoder} {d : HpackDecoder},
    Synced e d → (∀ c ∈ calls, c.Valid d.maxTableSize) → HasCapacity e calls →
    (e.table.Allocated ∨ NoEntry e.maxTableSize calls) → Agrees (hpackRun e d calls) := by
  induction calls with
  | nil => intro e d _ _ _ _; simp [hpackRun, Agrees]
  | cons c cs ih =>
    intro e d hsync hv hcap hroom
    have hvc := hv c (by simp)
    have hvs : ∀ c ∈ cs, c.Valid d.maxTableSize := fun c hc => hv c (by simp [hc])
    cases c with
    | updateMaxTableSize n =>
      obtain ⟨h1, h2, h3⟩ := hsync.updateMaxTableSize hvc.1 hvc.2
      exact ih h1 hvs hcap (hroom.imp h3.2 fun hno => by rw [h2]; exact hno)
    | encode hs capacity l =>
      obtain ⟨block, e', d', he, hd, hs', hm', ha', hl'⟩ := decode_encode hsync hvc.1 hvc.2
        (hroom.imp id And.left) hcap.1
      have hrest := ih hs' (by rw [hl']; exact hvs) (by simpa [he] using hcap.2)
        (hroom.imp ha'.2 fun hno => by rw [hm']; exact hno.2)
      intro o ho
      simp only [hpackRun, he, hd] at ho
      rcases List.mem_cons.1 ho with rfl | ho
      · rfl
      · exact hrest o ho

theorem encodeLoop_enters (hs : List HttpHeader) : ∀ {et : HpackDynamicTable}
    {dest : Bytes}, et.Wf → ¬ et.Allocated → et.maxSize ≤ maxSizeT → (∀ h ∈ hs, ValidHeader h) →
    (∃ h ∈ hs, entersTable et.maxSize h = true) →
    ∀ b, (encodeLoop capacity et hs dest).1 ≠ .ok b := by
  induction hs with
  | nil => rintro et dest _ _ _ _ ⟨h, hh, _⟩; simp at hh
  | cons h hs ih =>
    rintro et dest hwf ha hm hv ⟨a, ha', hent⟩ b
    have hins := isInserted_unallocated hwf.toFits ha (hv h (by simp))
    have hsize : headerSize h ≤ maxSizeT := by
      have := (hv h (by simp)).name_lt; have := (hv h (by simp)).value_lt
      simp only [headerSize, hpackEntryOverhead, maxSizeT]; omega
    have hvs : ∀ h ∈ hs, ValidHeader h := fun a ha => hv a (by simp [ha])
    have htail : entersTable et.maxSize h = false → ∃ a ∈ hs, entersTable et.maxSize a = true := by
      intro hno
      rcases List.mem_cons.1 ha' with rfl | ha'
      · rw [hno] at hent; simp at hent
      · exact ⟨a, ha', hent⟩
    unfold encodeLoop encodeField
    rw [if_neg (hv h (by simp)).name_ne]
    cases hw : writeField et h dest capacity with
    | error status => simp
    | ok dest' =>
      simp only
      -- the first field either enters, and is refused, or leaves the table as it is
      rcases Nat.lt_or_ge et.maxSize (headerSize h) with hlt | hle
      · have hno : entersTable et.maxSize h = false := by
          unfold entersTable; simp; omega
        cases hi : isInserted et h with
        | false => simpa using ih hwf ha hm hvs (htail hno) b
        | true =>
          obtain ⟨t', e1, e2, e3, e4, -⟩ := HpackDynamicTable.insert_oversize (t := et) hsize hlt
          simp only [e1, if_true, ntSuccess_success, not_true_eq_false, if_false]
          exact ih e2 (fun h => ha (e3.1 h)) (by omega) hvs (by rw [e4]; exact htail hno) b
      · cases hi : isInserted et h with
        | false =>
          have hno : entersTable et.maxSize h = false := by
            rw [entersTable, ← hins, hi]; rfl
          simpa using ih hwf ha hm hvs (htail hno) b
        | true =>
          obtain ⟨t', e1, -⟩ := HpackDynamicTable.insert_unallocated hwf.toFits ha hle hm
          simp [e1]

theorem encode_ok {e' : HpackEncoder} {block : Bytes} (h : e.encode hs capacity = (.ok block, e')) :
    ∃ dest, (encodeLoop capacity e.table hs dest).1 = .ok block := by
  have htable : (e.writeSizeUpdate capacity).2.table = e.table := by
    unfold HpackEncoder.writeSizeUpdate
    split_ifs
    · split <;> rfl
    · rfl
  unfold HpackEncoder.encode at h
  split at h
  · simp at h
  · next dest e₁ heq =>
    rw [heq] at htable
    simp only [Prod.mk.injEq] at h
    exact ⟨dest, by rw [← htable]; exact h.1⟩

theorem noEntry_of_agrees (calls : List HpackCall) : ∀ {e : HpackEncoder} {d : HpackDecoder},
    Synced e d → (∀ c ∈ calls, c.Valid d.maxTableSize) → HasCapacity e calls →
    ¬ e.table.Allocated → Agrees (hpackRun e d calls) → NoEntry e.maxTableSize calls := by
  induction calls with
  | nil => intro e d _ _ _ _ _; trivial
  | cons c cs ih =>
    intro e d hsync hv hcap ha hagree
    have hvc := hv c (by simp)
    have hvs : ∀ c ∈ cs, c.Valid d.maxTableSize := fun c hc => hv c (by simp [hc])
    cases c with
    | updateMaxTableSize n =>
      obtain ⟨h1, h2, h3⟩ := hsync.updateMaxTableSize hvc.1 hvc.2
      have := ih h1 hvs hcap (fun h => ha (h3.1 h)) hagree
      rwa [h2] at this
    | encode hs capacity l =>
      have hmax : e.table.maxSize ≤ maxSizeT := by
        have := hsync.tables.small
        simp only [hpackStaticTableSize, hpackEntryOverhead, maxSizeT] at *; omega
      have hno : ∀ h ∈ hs, entersTable e.maxTableSize h = false := by
        by_contra hex
        push Not at hex
        obtain ⟨h, hh, hent⟩ := hex
        rw [ne_eq, Bool.not_eq_false, ← hsync.encoderMax] at hent
        cases henc : e.encode hs capacity with
        | mk result e' =>
          cases result with
          | error status =>
            have := hagree ⟨hs, .error status, none⟩ (by simp [hpackRun, henc])
            simp at this
          | ok block =>
            obtain ⟨dest, hloop⟩ := encode_ok henc
            exact encodeLoop_enters hs hsync.tables.encoderWf ha hmax hvc.1 ⟨h, hh, hent⟩ _ hloop
      obtain ⟨block, e', d', he, hd, hs', hm', ha', hl'⟩ := decode_encode hsync hvc.1 hvc.2
        (Or.inr hno) hcap.1
      have hrest := ih hs' (by rw [hl']; exact hvs) (by simpa [he] using hcap.2)
        (fun h => ha (ha'.1 h)) (fun o ho => hagree o (by simp [hpackRun, he, hd, ho]))
      rw [hm'] at hrest
      exact ⟨hno, hrest⟩

/-- **Encoder and decoder agree** in exactly the runs that start with a table, or
    in which no field that is encoded would enter one. -/
theorem hpackRun_agrees_iff (m limit : ℕ)
    (hm : hpackStaticTableSize + m / hpackEntryOverhead < 2 ^ 32) {calls : List HpackCall}
    (hv : ∀ c ∈ calls, c.Valid limit) (hcap : HasCapacity (.initializeEncoder m) calls) :
    Agrees (hpackRun (.initializeEncoder m)
      { HpackDecoder.initializeDecoder m with maxTableSize := limit } calls) ↔
      m ≠ 0 ∨ NoEntry m calls := by
  have hsync := synced_initialize limit hm
  have hall := HpackDynamicTable.initializeTable_allocated m
  constructor
  · intro hagree
    by_cases h0 : m = 0
    · exact Or.inr (noEntry_of_agrees calls hsync hv hcap (fun h => hall.1 h h0) hagree)
    · exact Or.inl h0
  · exact fun h => agrees_of_synced calls hsync hv hcap (h.imp hall.2 id)

/-- A request, a smaller table, and the request again. -/
def shrinkCalls : List HpackCall :=
  let request := [⟨text ":method", text "GET"⟩, ⟨text "x-id", text "7"⟩, ⟨text "cookie", text "s"⟩]
  let limits := { headerCapacity := 8, nameValueCapacity := 128 }
  [.encode request 64 limits, .updateMaxTableSize 40, .encode request 64 limits]

theorem hpackRun_agrees_shrink :
    Agrees (hpackRun (.initializeEncoder 4096) (.initializeDecoder 4096) shrinkCalls) :=
  (hpackRun_agrees_iff 4096 4096 (by decide) (by decide +kernel)
    (by decide +kernel)).2 (Or.inl (by decide))

/-- A connection that starts without a table: the first block announces 4096
    octets, then 100 are announced and a field that fits is encoded. -/
def growCalls : List HpackCall :=
  let limits := { headerCapacity := 8, nameValueCapacity := 1024 }
  [.updateMaxTableSize 4096, .encode [⟨text ":method", text "GET"⟩] 64 limits,
    .updateMaxTableSize 100, .encode [⟨text "a", text "b"⟩] 64 limits,
    .encode [⟨text "a", List.replicate 100 0x62⟩] 256 limits]

/-- The encoder refuses the field that fits, although it has the output capacity,
    and the update to 100 is lost with it; the decoder refuses the block after. -/
theorem hpackRun_grow_disagrees :
    (∀ c ∈ growCalls, c.Valid 4096) ∧ HasCapacity (.initializeEncoder 0) growCalls ∧
    ¬ Agrees (hpackRun (.initializeEncoder 0)
      { HpackDecoder.initializeDecoder 0 with maxTableSize := 4096 } growCalls) ∧
    (hpackRun (.initializeEncoder 0)
      { HpackDecoder.initializeDecoder 0 with maxTableSize := 4096 } growCalls).map (·.decoded) =
      [some (.ok [⟨text ":method", text "GET"⟩]), none,
        some (.error statusInsufficientResources)] := by
  decide +kernel

end KernelHttp
