/-
  The HPACK encoder (`HpackEncoder` in `Hpack.cpp`, RFC 7541 Section 6).
-/
import KernelHttp.Hpack.Decoder

namespace KernelHttp

structure HpackEncoder where
  table : HpackDynamicTable := {}
  maxTableSize : ℕ := 4096
  pendingTableSize : ℕ := 4096
  tableSizeUpdatePending : Bool := false
deriving DecidableEq

def isSensitiveHeaderName (name : Bytes) : Bool :=
  textEqualsIgnoreCase name (text "authorization") || textEqualsIgnoreCase name (text "cookie") ||
    textEqualsIgnoreCase name (text "proxy-authorization")

/-- The two loops of `FindMatch`, from entry `i` on: the index and `nameOnly`. -/
def findMatchLoop (name value : Bytes) : ℕ → List HttpHeader → ℕ → ℕ × Bool
  | _, [], nameMatchIdx => (nameMatchIdx, decide (nameMatchIdx > 0))
  | i, e :: es, nameMatchIdx =>
    if textEqualsIgnoreCase name e.name then
      if value = e.value then (i + 1, false)
      else findMatchLoop name value (i + 1) es (if nameMatchIdx = 0 then i + 1 else nameMatchIdx)
    else findMatchLoop name value (i + 1) es nameMatchIdx

/-- `HpackEncoder::FindMatch`: the static entries, then those of the dynamic table. -/
def findMatch (table : HpackDynamicTable) (name value : Bytes) : ℕ × Bool :=
  findMatchLoop name value 0
    (hpackStaticTable ++ (List.range table.entryCount).filterMap table.lookup) 0

def encodeHeaderString (data dest : Bytes) (capacity : ℕ) : Except NTSTATUS Bytes :=
  if dest.length > capacity then .error statusBufferTooSmall
  else
    let huffLen := hpackHuffmanEncodedLength data
    if huffLen < data.length ∧ data.length > 0 then do
      let written ← hpackEncodeInteger (huffLen % 2 ^ 32) 0x80 7 (capacity - dest.length)
      let dest := dest ++ written
      let written ← hpackHuffmanEncode data (capacity - dest.length)
      return dest ++ written
    else do
      let written ← hpackEncodeInteger (data.length % 2 ^ 32) 0x00 7 (capacity - dest.length)
      let dest := dest ++ written
      if data.length ≠ 0 then
        if ¬ rangeFits dest.length data.length capacity then .error statusBufferTooSmall
        else return dest ++ data
      else return dest

/-- The field goes out as the index of a full match. -/
def isIndexed (table : HpackDynamicTable) (h : HttpHeader) : Bool :=
  let (matchIdx, nameOnly) := findMatch table h.name h.value
  decide (matchIdx > 0) && !nameOnly && !isSensitiveHeaderName h.name

/-- The octets of one field behind `dest`. -/
def writeField (table : HpackDynamicTable) (h : HttpHeader) (dest : Bytes) (capacity : ℕ) :
    Except NTSTATUS Bytes :=
  let matchIdx := (findMatch table h.name h.value).1
  let neverIndex := isSensitiveHeaderName h.name
  if isIndexed table h then do
    let written ← hpackEncodeInteger (matchIdx % 2 ^ 32) 0x80 7 (capacity - dest.length)
    return dest ++ written
  else
    let literalPrefix := if neverIndex then 0x10 else 0x40
    let literalPrefixBits := if neverIndex then 4 else 6
    if matchIdx > 0 then do
      let written ← hpackEncodeInteger (matchIdx % 2 ^ 32) literalPrefix literalPrefixBits
        (capacity - dest.length)
      encodeHeaderString h.value (dest ++ written) capacity
    else if dest.length ≥ capacity then .error statusBufferTooSmall
    else do
      let dest ← encodeHeaderString h.name (dest ++ [UInt8.ofNat literalPrefix]) capacity
      encodeHeaderString h.value dest capacity

def isInserted (table : HpackDynamicTable) (h : HttpHeader) : Bool :=
  !isIndexed table h && !isSensitiveHeaderName h.name

/-- One turn of the loop of `Encode`. -/
def encodeField (table : HpackDynamicTable) (h : HttpHeader) (dest : Bytes) (capacity : ℕ) :
    Except NTSTATUS Bytes × HpackDynamicTable :=
  if h.name = [] then (.error statusInvalidParameter, table)
  else match writeField table h dest capacity with
    | .error status => (.error status, table)
    | .ok dest =>
      if isInserted table h then
        let (status, table) := table.insert h.name h.value
        if ¬ ntSuccess status then (.error status, table) else (.ok dest, table)
      else (.ok dest, table)

/-- The loop of `Encode`. -/
def encodeLoop (capacity : ℕ) : HpackDynamicTable → List HttpHeader → Bytes →
    Except NTSTATUS Bytes × HpackDynamicTable
  | table, [], dest => (.ok dest, table)
  | table, h :: hs, dest =>
    match encodeField table h dest capacity with
    | (.error status, table) => (.error status, table)
    | (.ok dest, table) => encodeLoop capacity table hs dest

namespace HpackEncoder

/-- `HpackEncoder::Initialize`. -/
def initializeEncoder (maxTableSize : ℕ) : HpackEncoder :=
  { table := .initializeTable maxTableSize, maxTableSize := maxTableSize
    pendingTableSize := maxTableSize }

def updateMaxTableSize (e : HpackEncoder) (maxTableSize : ℕ) : HpackEncoder :=
  if e.maxTableSize = maxTableSize then e
  else
    { table := e.table.updateMaxSize maxTableSize, maxTableSize := maxTableSize
      pendingTableSize := maxTableSize, tableSizeUpdatePending := true }

/-- The pending table size update of `Encode`. -/
def writeSizeUpdate (e : HpackEncoder) (capacity : ℕ) : Except NTSTATUS Bytes × HpackEncoder :=
  if e.tableSizeUpdatePending then
    match hpackEncodeInteger (e.pendingTableSize % 2 ^ 32) 0x20 5 capacity with
    | .error status => (.error status, e)
    | .ok written => (.ok written, { e with tableSizeUpdatePending := false })
  else (.ok [], e)

/-- The pending size update, then the fields. -/
def encode (e : HpackEncoder) (headers : List HttpHeader) (capacity : ℕ) :
    Except NTSTATUS Bytes × HpackEncoder :=
  match e.writeSizeUpdate capacity with
  | (.error status, e) => (.error status, e)
  | (.ok dest, e) =>
    let (result, table) := encodeLoop capacity e.table headers dest
    (result, { e with table := table })

end HpackEncoder

/-! ## The octets written -/

/-- The octets of a string, for every capacity they fit. -/
def stringOctets (data : Bytes) : Bytes :=
  if hpackHuffmanEncodedLength data < data.length then
    integerOctets (hpackHuffmanEncodedLength data % 2 ^ 32) 0x80 7 ++ huffmanOctets data
  else integerOctets (data.length % 2 ^ 32) 0x00 7 ++ data

/-- The octets of a field, for every capacity they fit. -/
def fieldOctets (table : HpackDynamicTable) (h : HttpHeader) : Bytes :=
  let matchIdx := (findMatch table h.name h.value).1
  if isIndexed table h then integerOctets (matchIdx % 2 ^ 32) 0x80 7
  else
    let literalPrefix := if isSensitiveHeaderName h.name then 0x10 else 0x40
    let literalPrefixBits := if isSensitiveHeaderName h.name then 4 else 6
    (if matchIdx > 0 then integerOctets (matchIdx % 2 ^ 32) literalPrefix literalPrefixBits
      else UInt8.ofNat literalPrefix :: stringOctets h.name) ++ stringOctets h.value

/-- A writer that appends `octets` to `dest` if they fit. -/
def Writes (r : Except NTSTATUS Bytes) (dest octets : Bytes) (capacity : ℕ) : Prop :=
  r = if dest.length + octets.length ≤ capacity then .ok (dest ++ octets)
    else .error statusBufferTooSmall

variable {dest a b : Bytes} {G : Bytes → Except NTSTATUS Bytes} {capacity : ℕ}

theorem writes_pure (hd : dest.length ≤ capacity) :
    Writes (pure dest) dest [] capacity := by
  simp [Writes, hd, pure, Except.pure]

/-- Going on with `G` after `dest` was extended by `a`. -/
theorem Writes.bind {r : Except NTSTATUS Bytes} (hr : Writes r dest a capacity)
    (hG : dest.length + a.length ≤ capacity → Writes (G (dest ++ a)) (dest ++ a) b capacity) :
    Writes (r >>= G) dest (a ++ b) capacity := by
  unfold Writes at *
  rw [hr]
  by_cases h : dest.length + a.length ≤ capacity
  · rw [if_pos h]
    change G (dest ++ a) = _
    rw [hG h]
    simp only [List.length_append, List.append_assoc, ← Nat.add_assoc]
  · rw [if_neg h, if_neg (by simp only [List.length_append]; omega)]
    rfl

/-- Going on with `G` after `a` was written into the space behind `dest`. -/
theorem writes_bind {x : Except NTSTATUS Bytes} (hd : dest.length ≤ capacity)
    (hx : x = if a.length ≤ capacity - dest.length then .ok a else .error statusBufferTooSmall)
    (hG : dest.length + a.length ≤ capacity → Writes (G a) (dest ++ a) b capacity) :
    Writes (x >>= G) dest (a ++ b) capacity := by
  unfold Writes at *
  rw [hx]
  by_cases h : dest.length + a.length ≤ capacity
  · rw [if_pos (by omega)]
    change G a = _
    rw [hG h]
    simp only [List.length_append, List.append_assoc, ← Nat.add_assoc]
  · rw [if_neg (by omega), if_neg (by simp only [List.length_append]; omega)]
    rfl

theorem encodeHeaderString_writes (data : Bytes) (hd : dest.length ≤ capacity) :
    Writes (encodeHeaderString data dest capacity) dest (stringOctets data) capacity := by
  unfold encodeHeaderString stringOctets
  rw [if_neg (by omega)]
  by_cases hh : hpackHuffmanEncodedLength data < data.length
  · simp only [hh, if_true, true_and, show data.length > 0 by omega]
    refine writes_bind hd (hpackEncodeInteger_eq _ _ _ (by norm_num) (by norm_num)) fun h => ?_
    have h' : (dest ++ integerOctets (hpackHuffmanEncodedLength data % 2 ^ 32) 0x80 7).length ≤
        capacity := by simpa using h
    rw [← List.append_nil (huffmanOctets data)]
    exact writes_bind h' (hpackHuffmanEncode_eq data _) fun h2 =>
      writes_pure (by simpa [Nat.add_assoc] using h2)
  · simp only [hh, if_false, false_and]
    refine writes_bind hd (hpackEncodeInteger_eq _ _ _ (by norm_num) (by norm_num)) fun h => ?_
    unfold Writes
    simp only [rangeFits]
    split_ifs with h0 h1 <;> simp_all [pure, Except.pure] <;> omega

/-- `Encode` writes the octets of a field if they fit. -/
theorem writeField_writes (table : HpackDynamicTable) (h : HttpHeader)
    (hd : dest.length ≤ capacity) :
    Writes (writeField table h dest capacity) dest (fieldOctets table h) capacity := by
  have hbits : (if isSensitiveHeaderName h.name then 4 else 6) ≠ 0 ∧
      (if isSensitiveHeaderName h.name then 4 else 6) ≤ 8 := by split_ifs <;> decide
  unfold writeField fieldOctets
  simp only
  by_cases hi : isIndexed table h
  · simp only [hi, if_true]
    rw [← List.append_nil (integerOctets _ _ _)]
    exact writes_bind hd (hpackEncodeInteger_eq _ _ _ (by norm_num) (by norm_num)) fun h =>
      writes_pure (by simpa using h)
  · simp only [hi, Bool.false_eq_true, if_false]
    by_cases hm : (findMatch table h.name h.value).1 > 0
    · simp only [hm, if_true]
      exact writes_bind hd (hpackEncodeInteger_eq _ _ _ hbits.1 hbits.2) fun h =>
        encodeHeaderString_writes _ (by simpa using h)
    · simp only [hm, if_false]
      generalize UInt8.ofNat (if isSensitiveHeaderName h.name then 0x10 else 0x40) = b
      by_cases hc : dest.length ≥ capacity
      · rw [if_pos hc]
        unfold Writes
        rw [if_neg (by simp; omega)]
      · rw [if_neg hc]
        have hd' : (dest ++ [b]).length ≤ capacity := by simp; omega
        have := (encodeHeaderString_writes h.name hd').bind
          (G := fun dest => encodeHeaderString h.value dest capacity) (b := stringOctets h.value)
          fun h2 => encodeHeaderString_writes _ (by rw [List.length_append]; exact h2)
        simpa [Writes, Nat.add_assoc, Nat.add_comm, Nat.add_left_comm] using this

/-! ## What `FindMatch` finds -/

/-- All entries an index can name: the static table, then the dynamic one. -/
def allEntries (table : HpackDynamicTable) : List HttpHeader := hpackStaticTable ++ table.headers

theorem filterMap_lookup (table : HpackDynamicTable) :
    (List.range table.entryCount).filterMap table.lookup = table.headers := by
  have hmap : ∀ i ∈ List.range table.entryCount, table.lookup i =
      some (HpackDynamicTable.headerAt table.data (table.entry i)) := by
    intro i hi
    simp only [HpackDynamicTable.lookup, ge_iff_le, ite_eq_right_iff, reduceCtorEq, imp_false,
      not_le]
    exact List.mem_range.1 hi
  rw [List.filterMap_congr hmap, List.filterMap_eq_map', HpackDynamicTable.headers,
    HpackDynamicTable.live, Ring.toList, List.map_map]
  rfl

/-- What an index and `nameOnly` say about the entries. -/
inductive MatchSpec (name value : Bytes) (entries : List HttpHeader) : ℕ × Bool → Prop
  | none (h : ∀ e ∈ entries, textEqualsIgnoreCase name e.name = false) :
      MatchSpec name value entries (0, false)
  | nameOnly {i : ℕ} {e : HttpHeader} (he : entries[i]? = some e)
      (hn : textEqualsIgnoreCase name e.name = true)
      (h : ∀ e ∈ entries, textEqualsIgnoreCase name e.name = true → value ≠ e.value) :
      MatchSpec name value entries (i + 1, true)
  | full {i : ℕ} {e : HttpHeader} (he : entries[i]? = some e)
      (hn : textEqualsIgnoreCase name e.name = true) (hv : value = e.value) :
      MatchSpec name value entries (i + 1, false)

theorem findMatchLoop_spec (name value : Bytes) (es : List HttpHeader) :
    ∀ (before : List HttpHeader) (nameMatchIdx : ℕ),
      (∀ e ∈ before, textEqualsIgnoreCase name e.name = true → value ≠ e.value) →
      ((nameMatchIdx = 0 ∧ ∀ e ∈ before, textEqualsIgnoreCase name e.name = false) ∨
        ∃ i e, nameMatchIdx = i + 1 ∧ before[i]? = some e ∧
          textEqualsIgnoreCase name e.name = true) →
      MatchSpec name value (before ++ es)
        (findMatchLoop name value before.length es nameMatchIdx) := by
  induction es with
  | nil =>
    intro before nameMatchIdx hfull hidx
    rw [List.append_nil]
    rcases hidx with ⟨rfl, hnone⟩ | ⟨i, e, rfl, he, hn⟩
    · exact .none hnone
    · exact .nameOnly he hn hfull
  | cons a es ih =>
    intro before nameMatchIdx hfull hidx
    have hsplit : before ++ a :: es = (before ++ [a]) ++ es := by simp
    have hlen : before.length + 1 = (before ++ [a]).length := by simp
    have hkeep : ∀ (i : ℕ) e, before[i]? = some e → (before ++ [a])[i]? = some e := by
      intro i e he
      obtain ⟨hi, -⟩ := List.getElem?_eq_some_iff.1 he
      rw [List.getElem?_append_left hi, he]
    unfold findMatchLoop
    by_cases hn : textEqualsIgnoreCase name a.name = true
    · rw [if_pos hn]
      by_cases hv : value = a.value
      · rw [if_pos hv]
        exact .full (by simp) hn hv
      · rw [if_neg hv, hsplit, hlen]
        refine ih _ _ ?_ (Or.inr ?_)
        · intro e he hne
          rcases List.mem_append.1 he with he | he
          · exact hfull e he hne
          · rw [List.mem_singleton.1 he]; exact hv
        · rcases hidx with ⟨rfl, -⟩ | ⟨i, e, rfl, he, hn'⟩
          · exact ⟨before.length, a, by simp, by simp, hn⟩
          · exact ⟨i, e, by simp, hkeep i e he, hn'⟩
    · rw [if_neg hn, hsplit, hlen]
      rw [Bool.not_eq_true] at hn
      refine ih _ _ ?_ ?_
      · intro e he hne
        rcases List.mem_append.1 he with he | he
        · exact hfull e he hne
        · rw [List.mem_singleton.1 he, hn] at hne; simp at hne
      · rcases hidx with ⟨rfl, hnone⟩ | ⟨i, e, rfl, he, hn'⟩
        · refine Or.inl ⟨rfl, fun e he => ?_⟩
          rcases List.mem_append.1 he with he | he
          · exact hnone e he
          · rw [List.mem_singleton.1 he]; exact hn
        · exact Or.inr ⟨i, e, rfl, hkeep i e he, hn'⟩

theorem findMatch_spec (table : HpackDynamicTable) (name value : Bytes) :
    MatchSpec name value (allEntries table) (findMatch table name value) := by
  unfold findMatch allEntries
  rw [filterMap_lookup]
  exact findMatchLoop_spec name value _ [] 0 (by simp) (Or.inl (by simp))

/-- A field goes out as an index if it is not sensitive and some entry is the
    field itself. -/
theorem isIndexed_iff (table : HpackDynamicTable) (h : HttpHeader) :
    isIndexed table h = true ↔ isSensitiveHeaderName h.name = false ∧
      ∃ e ∈ allEntries table, textEqualsIgnoreCase h.name e.name = true ∧ h.value = e.value := by
  have hspec := findMatch_spec table h.name h.value
  unfold isIndexed
  generalize findMatch table h.name h.value = r at hspec
  cases hspec with
  | none hno =>
    simp only [gt_iff_lt, lt_irrefl, decide_false, Bool.false_and, Bool.false_eq_true, false_iff,
      not_and, not_exists]
    intro _ e he hn
    rw [hno e he] at hn; simp at hn
  | nameOnly he hn hno =>
    simp only [Bool.not_true, Bool.and_false, Bool.false_and, Bool.false_eq_true, false_iff,
      not_and, not_exists]
    exact fun _ e he hn => hno e he hn
  | full he hn hv =>
    simp only [gt_iff_lt, Nat.zero_lt_succ, decide_true, Bool.not_false, Bool.and_self,
      Bool.true_and, Bool.not_eq_true', iff_self_and]
    exact fun _ => ⟨_, List.mem_of_getElem? he, hn, hv⟩

end KernelHttp
