/-
  The HPACK dynamic table (`HpackDynamicTable` in `Hpack.cpp`, RFC 7541 Section 2.3.2).

  The octets of the entries are in one data buffer, their places in a ring, newest first.
-/
import KernelHttp.Hpack.Tables
import KernelHttp.Lib.Fifo
import KernelHttp.Lib.Ring

namespace KernelHttp

open Fifo

/-- `HpackDynamicTable::Entry`: where an entry sits in the data buffer. -/
structure TableEntry where
  nameOffset : ℕ := 0
  nameLength : ℕ := 0
  valueOffset : ℕ := 0
  valueLength : ℕ := 0
deriving DecidableEq, Inhabited

/-- Where the octets of an entry end. -/
def TableEntry.stop (e : TableEntry) : ℕ := e.valueOffset + e.valueLength

/-- `HpackDynamicTable`.  `data` is `dataBuffer_[0, dataUsed_)`, and `entries` is
    the array `entries_` of `entryCapacity_` records. -/
structure HpackDynamicTable where
  data : Bytes := []
  dataCapacity : ℕ := 0
  entries : List TableEntry := []
  entryCount : ℕ := 0
  entryHead : ℕ := 0
  currentSize : ℕ := 0
  maxSize : ℕ := 4096
deriving DecidableEq

/-- The octets `[offset, offset + length)` of a buffer. -/
def slice (data : Bytes) (offset length : ℕ) : Bytes := (data.drop offset).take length

/-- `MemMove` inside one buffer. -/
def memMove (data : Bytes) (dst src len : ℕ) : Bytes :=
  data.take dst ++ slice data src len ++ data.drop (dst + len)

def dynamicTableDataCapacityLimit (maxSize : ℕ) : ℕ :=
  if maxSize > (maxSizeT - 1024) / 2 then maxSizeT else maxSize * 2 + 1024

/-- The size of an entry, RFC 7541 Section 4.1. -/
def headerSize (h : HttpHeader) : ℕ := h.name.length + h.value.length + hpackEntryOverhead

namespace HpackDynamicTable

/-! ## The operations -/

/-- The entry `index`, newest first: `entries_[(entryHead_ + index) % entryCapacity_]`. -/
def entry (t : HpackDynamicTable) (index : ℕ) : TableEntry := Ring.get t.entries t.entryHead index

/-- `HpackDynamicTable::Initialize`; the arrays it allocates are not empty. -/
def initializeTable (maxSize : ℕ) : HpackDynamicTable :=
  if maxSize = 0 then { maxSize := 0 }
  else
    { dataCapacity := max (dynamicTableDataCapacityLimit maxSize) 1024
      entries := List.replicate 128 default
      maxSize := maxSize }

/-- Removes the oldest entry. -/
def evict (t : HpackDynamicTable) : HpackDynamicTable :=
  if t.entryCount = 0 then t
  else
    let entry := t.entry (t.entryCount - 1)
    let entrySize := entry.nameLength + entry.valueLength + hpackEntryOverhead
    if t.entryCount - 1 = 0 then
      { t with currentSize := t.currentSize - entrySize, entryCount := 0, entryHead := 0, data := [] }
    else { t with currentSize := t.currentSize - entrySize, entryCount := t.entryCount - 1 }

/-- `while (currentSize_ + entrySize > maxSize_ && entryCount_ > 0) Evict();` for
    at most `n` entries. -/
def evictWhile (entrySize : ℕ) : ℕ → HpackDynamicTable → HpackDynamicTable
  | 0, t => t
  | n + 1, t =>
    if t.currentSize + entrySize > t.maxSize ∧ t.entryCount > 0 then evictWhile entrySize n t.evict
    else t

/-- The loop of `CompactData`: the entries below `remaining` are still to move. -/
def compactLoop : ℕ → ℕ → HpackDynamicTable → HpackDynamicTable
  | 0, writeOffset, t => { t with data := t.data.take writeOffset }
  | remaining + 1, writeOffset, t =>
    let entry := t.entry remaining
    let totalLength := entry.nameLength + entry.valueLength
    compactLoop remaining (writeOffset + totalLength)
      { t with
        data := memMove t.data writeOffset entry.nameOffset totalLength
        entries := t.entries.set ((t.entryHead + remaining) % t.entries.length)
          { entry with nameOffset := writeOffset, valueOffset := writeOffset + entry.nameLength } }

def compactData (t : HpackDynamicTable) : HpackDynamicTable :=
  if t.entryCount = 0 then { t with data := [], entryHead := 0 }
  else compactLoop t.entryCount 0 t

def updateMaxSize (t : HpackDynamicTable) (newMaxSize : ℕ) : HpackDynamicTable :=
  (evictWhile 0 t.entryCount { t with maxSize := newMaxSize }).compactData

/-- `Insert`, "Ensure data buffer has space" after the compaction.  An array of
    no element is not allocated. -/
def growData (t : HpackDynamicTable) (dataNeeded : ℕ) : Except NTSTATUS HpackDynamicTable :=
  if t.data.length + dataNeeded > t.dataCapacity then
    let newCapacity := max (t.dataCapacity * 2) (t.data.length + dataNeeded + 1024)
    let newCapacity := min newCapacity (dynamicTableDataCapacityLimit t.maxSize)
    if t.data.length + dataNeeded > newCapacity then .error statusInvalidNetworkResponse
    else if newCapacity = 0 then .error statusInsufficientResources
    else .ok { t with dataCapacity := newCapacity }
  else .ok t

/-- `Insert`, "Ensure entry array has space". -/
def growEntries (t : HpackDynamicTable) : Except NTSTATUS HpackDynamicTable :=
  if t.entryCount ≥ t.entries.length then
    let newCapacity := t.entries.length * 2
    if newCapacity = 0 then .error statusInsufficientResources
    else .ok { t with
      entries := Ring.toList t.entries t.entryHead t.entryCount ++
        List.replicate (newCapacity - t.entryCount) default
      entryHead := 0 }
  else .ok t

/-- `Insert`, "Store data" and "Insert at front". -/
def store (t : HpackDynamicTable) (name value : Bytes) : HpackDynamicTable :=
  let entryHead := if t.entryHead = 0 then t.entries.length - 1 else t.entryHead - 1
  { t with
    data := t.data ++ name ++ value
    entryHead := entryHead
    entries := t.entries.set entryHead
      { nameOffset := t.data.length, nameLength := name.length
        valueOffset := t.data.length + name.length, valueLength := value.length }
    entryCount := t.entryCount + 1
    currentSize := t.currentSize + (name.length + value.length + hpackEntryOverhead) }

/-- `HpackDynamicTable::Insert`.  Its callers pass octets outside the table. -/
def insert (t : HpackDynamicTable) (name value : Bytes) : NTSTATUS × HpackDynamicTable :=
  if name.length > maxSizeT - value.length ∨
      name.length + value.length > maxSizeT - hpackEntryOverhead then (statusIntegerOverflow, t)
  else
    let entrySize := name.length + value.length + hpackEntryOverhead
    if entrySize > t.maxSize then
      (statusSuccess, { t with entryCount := 0, entryHead := 0, data := [], currentSize := 0 })
    else
      let t := t.evictWhile entrySize t.entryCount
      let dataNeeded := name.length + value.length
      if dataNeeded > dynamicTableDataCapacityLimit t.maxSize then
        (statusInvalidNetworkResponse, t)
      else
        let t := if t.data.length + dataNeeded > t.dataCapacity then t.compactData else t
        match t.growData dataNeeded with
        | .error status => (status, t)
        | .ok t =>
          match t.growEntries with
          | .error status => (status, t)
          | .ok t => (statusSuccess, t.store name value)

def headerAt (data : Bytes) (e : TableEntry) : HttpHeader :=
  ⟨slice data e.nameOffset e.nameLength, slice data e.valueOffset e.valueLength⟩

def lookup (t : HpackDynamicTable) (index : ℕ) : Option HttpHeader :=
  if index ≥ t.entryCount then none else some (headerAt t.data (t.entry index))

/-! ## What a table stands for -/

/-- The entries in use, newest first. -/
def live (t : HpackDynamicTable) : List TableEntry := Ring.toList t.entries t.entryHead t.entryCount

/-- The header fields of the table, newest first. -/
def headers (t : HpackDynamicTable) : List HttpHeader := t.live.map (headerAt t.data)

/-- The entries lie one behind the other in the data buffer, oldest first. -/
structure Layout (data : Bytes) (es : List TableEntry) : Prop where
  value : ∀ e ∈ es, e.valueOffset = e.nameOffset + e.nameLength
  inside : ∀ e ∈ es, e.stop ≤ data.length
  ordered : es.Pairwise fun newer older => older.stop ≤ newer.nameOffset

/-- The ring, the offsets and the size counter fit together. -/
structure Fits (t : HpackDynamicTable) : Prop where
  count_le : t.entryCount ≤ t.entries.length
  head_lt : t.entries ≠ [] → t.entryHead < t.entries.length
  layout : Layout t.data t.live
  size : t.currentSize = total headerSize t.headers
  data_le : t.data.length ≤ t.dataCapacity

/-- **Well-formed tables**: what every operation preserves. -/
structure Wf (t : HpackDynamicTable) : Prop extends Fits t where
  bound : t.currentSize ≤ t.maxSize

def Allocated (t : HpackDynamicTable) : Prop := t.entries ≠ []

@[simp] theorem length_live (t : HpackDynamicTable) : t.live.length = t.entryCount := by
  simp [live]

@[simp] theorem length_headers (t : HpackDynamicTable) : t.headers.length = t.entryCount := by
  simp [headers]

/-! ## Slices -/

variable {data' name value : Bytes} {t : HpackDynamicTable} {done todo : List TableEntry}
    {e : TableEntry} {length offset n w dataNeeded : ℕ}

theorem length_slice {data : Bytes} (h : offset + length ≤ data.length) :
    (slice data offset length).length = length := by
  simp [slice]; omega

theorem slice_congr {data : Bytes} (h : data.take n = data'.take n)
    (hn : offset + length ≤ n) : slice data offset length = slice data' offset length := by
  have key : ∀ d : Bytes, slice d offset length = slice (d.take n) offset length := by
    intro d
    simp only [slice, List.drop_take, List.take_take]
    congr 1; omega
  rw [key data, key data', h]

theorem headerSize_headerAt {data : Bytes}
    (hv : e.valueOffset = e.nameOffset + e.nameLength) (hs : e.stop ≤ data.length) :
    headerSize (headerAt data e) = e.nameLength + e.valueLength + hpackEntryOverhead := by
  unfold TableEntry.stop at hs
  simp only [headerSize, headerAt]
  rw [length_slice (by omega), length_slice (by omega)]

theorem headerAt_congr {data : Bytes}
    (h : data.take n = data'.take n) (hv : e.valueOffset = e.nameOffset + e.nameLength)
    (hs : e.stop ≤ n) : headerAt data e = headerAt data' e := by
  unfold TableEntry.stop at hs
  simp only [headerAt]
  rw [slice_congr h (by omega), slice_congr h (by omega)]

/-! ## Lookup -/

/-- `Lookup` reads the header fields of the table. -/
theorem lookup_eq (t : HpackDynamicTable) (index : ℕ) : t.lookup index = t.headers[index]? := by
  unfold lookup
  split_ifs with h
  · rw [List.getElem?_eq_none (by simpa using h)]
  · rw [headers, List.getElem?_map, live, Ring.getElem?_toList (by omega)]
    rfl

/-! ## Eviction -/

theorem evict_spec (h : t.Fits) (hc : 0 < t.entryCount) :
    t.evict.Fits ∧ t.evict.headers = t.headers.dropLast ∧ t.evict.maxSize = t.maxSize ∧
      t.evict.entryCount = t.entryCount - 1 ∧ t.evict.entries = t.entries := by
  obtain ⟨n, hn⟩ : ∃ n, t.entryCount = n + 1 := ⟨t.entryCount - 1, by omega⟩
  have hlive : t.live = Ring.toList t.entries t.entryHead n ++ [t.entry n] := by
    rw [live, hn, Ring.toList_succ]; rfl
  have hmem : t.entry n ∈ t.live := by simp [hlive]
  have hsize := headerSize_headerAt (h.layout.value _ hmem) (h.layout.inside _ hmem)
  have hsz : t.currentSize - ((t.entry n).nameLength + (t.entry n).valueLength +
      hpackEntryOverhead) =
      total headerSize ((Ring.toList t.entries t.entryHead n).map (headerAt t.data)) := by
    rw [h.size, headers, hlive, List.map_append, total_append, List.map_singleton, total_cons,
      hsize, total_nil]
    omega
  have hdrop : t.headers.dropLast =
      (Ring.toList t.entries t.entryHead n).map (headerAt t.data) := by
    simp [headers, hlive]
  unfold evict
  rw [if_neg (by omega), hn, Nat.add_sub_cancel]
  rcases Nat.eq_zero_or_pos n with rfl | hpos
  · refine ⟨⟨by simp, fun hne => ?_, ⟨by simp [live], by simp [live], by simp [live]⟩, ?_, by simp⟩,
      ?_, rfl, rfl, rfl⟩
    · have := h.head_lt hne
      simp; omega
    · simpa [headers, live] using hsz
    · rw [hdrop]; simp [headers, live]
  · rw [if_neg (by omega)]
    have hsub : ∀ e ∈ Ring.toList t.entries t.entryHead n, e ∈ t.live := by
      intro e he; rw [hlive]; simp [he]
    have hord := h.layout.ordered
    rw [hlive] at hord
    refine ⟨⟨?_, h.head_lt, ⟨fun e he => h.layout.value e (hsub e he),
      fun e he => h.layout.inside e (hsub e he), (List.pairwise_append.1 hord).1⟩, hsz, h.data_le⟩,
      hdrop.symm, rfl, rfl, rfl⟩
    have := h.count_le
    simp only; omega

/-- The eviction loop keeps the newest entries that fit. -/
theorem evictWhile_spec (entrySize : ℕ) (h : t.Fits)
    (hn : t.entryCount ≤ n) (hs : entrySize ≤ t.maxSize) :
    (evictWhile entrySize n t).Fits ∧
      (evictWhile entrySize n t).headers = fit headerSize (t.maxSize - entrySize) t.headers ∧
      (evictWhile entrySize n t).maxSize = t.maxSize ∧
      (evictWhile entrySize n t).entries = t.entries := by
  induction n generalizing t with
  | zero =>
    have : t.headers = [] := List.eq_nil_of_length_eq_zero (by simp; omega)
    simp [evictWhile, h, this]
  | succ n ih =>
    unfold evictWhile
    split_ifs with hc
    · obtain ⟨h1, h2, h3, h4, h5⟩ := evict_spec h hc.2
      obtain ⟨k1, k2, k3, k4⟩ := ih h1 (by omega) (by omega)
      refine ⟨k1, ?_, by omega, by rw [k4, h5]⟩
      rw [k2, h2, h3, fit_dropLast]
      rw [← h.size]; omega
    · refine ⟨h, ?_, rfl, rfl⟩
      rw [fit_eq_self]
      rcases Nat.eq_zero_or_pos t.entryCount with h0 | hpos
      · rw [List.eq_nil_of_length_eq_zero (l := t.headers) (by simpa using h0)]; simp
      · rw [← h.size]; omega

/-! ## Compaction -/

section MemMove

variable {data : Bytes} {dst src len : ℕ}

theorem length_memMove (hs : src + len ≤ data.length) (hd : dst ≤ src) :
    (memMove data dst src len).length = data.length := by
  simp only [memMove, List.length_append, List.length_take, List.length_drop, length_slice hs]
  omega

theorem take_memMove (hd : dst ≤ data.length) :
    (memMove data dst src len).take dst = data.take dst := by
  rw [memMove, List.append_assoc, List.take_append_of_le_length (by simp; omega), List.take_take,
    Nat.min_self]

theorem drop_memMove (hs : src + len ≤ data.length) (hd : dst ≤ src) :
    (memMove data dst src len).drop (dst + len) = data.drop (dst + len) := by
  have hl : (data.take dst ++ slice data src len).length = dst + len := by
    rw [List.length_append, length_slice hs, List.length_take]; omega
  rw [memMove, List.drop_left' hl]

theorem slice_memMove (hs : src + len ≤ data.length) (hd : dst ≤ src) :
    slice (memMove data dst src len) dst len = slice data src len := by
  have hl : (data.take dst).length = dst := by rw [List.length_take]; omega
  rw [memMove, slice, List.append_assoc, List.drop_left' hl, List.take_left' (length_slice hs)]

end MemMove

theorem slice_slice {data : Bytes} {a b : ℕ} (h : a + b ≤ length) :
    slice (slice data offset length) a b = slice data (offset + a) b := by
  simp only [slice, List.drop_take, List.take_take, List.drop_drop]
  congr 1; omega

theorem slice_drop {data : Bytes} (h : n ≤ offset) :
    slice data offset length = slice (data.drop n) (offset - n) length := by
  simp only [slice, List.drop_drop]
  congr 2; omega

theorem headerAt_congr_drop {data : Bytes}
    (h : data.drop n = data'.drop n) (hv : e.valueOffset = e.nameOffset + e.nameLength)
    (hs : n ≤ e.nameOffset) : headerAt data e = headerAt data' e := by
  simp only [headerAt]
  rw [slice_drop hs, slice_drop (show n ≤ e.valueOffset by omega), h,
    ← slice_drop hs, ← slice_drop (by omega)]

theorem headerAt_memMove {data : Bytes}
    (hv : e.valueOffset = e.nameOffset + e.nameLength) (hs : e.stop ≤ data.length)
    (hw : w ≤ e.nameOffset) :
    headerAt (memMove data w e.nameOffset (e.nameLength + e.valueLength))
      { e with nameOffset := w, valueOffset := w + e.nameLength } = headerAt data e := by
  unfold TableEntry.stop at hs
  have hlen : e.nameOffset + (e.nameLength + e.valueLength) ≤ data.length := by omega
  have hm := slice_memMove hlen hw
  have part : ∀ a b, a + b ≤ e.nameLength + e.valueLength →
      slice (memMove data w e.nameOffset (e.nameLength + e.valueLength)) (w + a) b =
        slice data (e.nameOffset + a) b := by
    intro a b hab
    rw [← slice_slice hab, hm, slice_slice hab]
  simp only [headerAt, hv]
  rw [part _ _ le_rfl]
  have := part 0 e.nameLength (by omega)
  simp only [Nat.add_zero] at this
  rw [this]

def octets (es : List TableEntry) : ℕ := total (fun e => e.nameLength + e.valueLength) es

/-- One turn of `compactLoop`. -/
def compactStep (t : HpackDynamicTable) (remaining w : ℕ) : HpackDynamicTable :=
  let entry := t.entry remaining
  { t with
    data := memMove t.data w entry.nameOffset (entry.nameLength + entry.valueLength)
    entries := t.entries.set ((t.entryHead + remaining) % t.entries.length)
      { entry with nameOffset := w, valueOffset := w + entry.nameLength } }

/-- What holds of the entries `todo` still to move and the entries `done` moved
    below `w`. -/
structure Compacting (data : Bytes) (todo done : List TableEntry) (w : ℕ) : Prop where
  layout : Layout data (todo ++ done)
  above : ∀ e ∈ todo, w ≤ e.nameOffset
  below : ∀ e ∈ done, e.stop ≤ w
  inside : w ≤ data.length

/-- Moving the oldest entry to move. -/
theorem Compacting.step {data : Bytes} (h : Compacting data (todo ++ [e]) done w) :
    let e' := { e with nameOffset := w, valueOffset := w + e.nameLength }
    let data' := memMove data w e.nameOffset (e.nameLength + e.valueLength)
    Compacting data' todo (e' :: done) (w + (e.nameLength + e.valueLength)) ∧
      (todo ++ e' :: done).map (headerAt data') =
        (todo ++ [e] ++ done).map (headerAt data) := by
  intro e' data'
  have hmem : ∀ a, a ∈ todo ∨ a = e ∨ a ∈ done → a ∈ todo ++ [e] ++ done := by
    intro a ha; simpa [or_assoc] using ha
  have hv : e.valueOffset = e.nameOffset + e.nameLength :=
    h.layout.value e (hmem e (by simp))
  have hstop : e.stop ≤ data.length := h.layout.inside e (hmem e (by simp))
  have hw : w ≤ e.nameOffset := h.above e (by simp)
  have hstop' : e.nameOffset + (e.nameLength + e.valueLength) ≤ data.length := by
    unfold TableEntry.stop at hstop; omega
  have hlen : data'.length = data.length := length_memMove hstop' hw
  have hord := h.layout.ordered
  rw [List.pairwise_append, List.pairwise_append] at hord
  obtain ⟨⟨htodo, -, hte⟩, hdone, htd⟩ := hord
  have hte : ∀ a ∈ todo, w + (e.nameLength + e.valueLength) ≤ a.nameOffset := by
    intro a ha
    have := hte a ha e (by simp)
    unfold TableEntry.stop at this; omega
  refine ⟨⟨⟨?_, ?_, ?_⟩, hte, ?_, by omega⟩, ?_⟩
  · intro a ha
    rcases List.mem_append.1 ha with ha | ha
    · exact h.layout.value a (hmem a (.inl ha))
    · rcases List.mem_cons.1 ha with rfl | ha
      · rfl
      · exact h.layout.value a (hmem a (.inr (.inr ha)))
  · intro a ha
    rw [hlen]
    rcases List.mem_append.1 ha with ha | ha
    · exact h.layout.inside a (hmem a (.inl ha))
    · rcases List.mem_cons.1 ha with rfl | ha
      · simp only [TableEntry.stop, e']; omega
      · exact h.layout.inside a (hmem a (.inr (.inr ha)))
  · refine List.pairwise_append.2 ⟨htodo, List.pairwise_cons.2 ⟨h.below, hdone⟩, ?_⟩
    intro a ha b hb
    rcases List.mem_cons.1 hb with rfl | hb
    · have := hte a ha
      simp only [TableEntry.stop, e']; omega
    · exact htd a (by simp [ha]) b hb
  · intro a ha
    rcases List.mem_cons.1 ha with rfl | ha
    · simp only [TableEntry.stop, e']; omega
    · have := h.below a ha; omega
  · have htake : data'.take w = data.take w := take_memMove (by omega)
    have hdrop := drop_memMove hstop' hw
    have h1 : todo.map (headerAt data') = todo.map (headerAt data) :=
      List.map_congr_left fun a ha =>
        headerAt_congr_drop hdrop (h.layout.value a (hmem a (.inl ha))) (hte a ha)
    have h2 : done.map (headerAt data') = done.map (headerAt data) :=
      List.map_congr_left fun a ha =>
        headerAt_congr htake (h.layout.value a (hmem a (.inr (.inr ha)))) (h.below a ha)
    simp only [List.map_append, List.map_cons, h1, h2, List.append_assoc,
      List.singleton_append]
    rw [headerAt_memMove hv hstop hw]

theorem compactLoop_spec {remaining : ℕ}
    (hlive : t.live = todo ++ done) (hr : todo.length = remaining)
    (hc : t.entryCount ≤ t.entries.length) (h : Compacting t.data todo done w) :
    let t' := compactLoop remaining w t
    Layout t'.data t'.live ∧ t'.headers = t.headers ∧ t'.data.length = w + octets todo ∧
      t'.entryHead = t.entryHead ∧ t'.entries.length = t.entries.length ∧
      t'.entryCount = t.entryCount ∧ t'.maxSize = t.maxSize ∧ t'.currentSize = t.currentSize ∧
      t'.dataCapacity = t.dataCapacity ∧ t'.data.length ≤ t.data.length := by
  induction remaining generalizing w t todo done with
  | zero =>
    obtain rfl : todo = [] := List.eq_nil_of_length_eq_zero hr
    rw [List.nil_append] at hlive
    have htake : (t.data.take w).take w = t.data.take w := by simp
    have hin := h.inside
    refine ⟨⟨?_, ?_, ?_⟩, ?_, ?_, rfl, rfl, rfl, rfl, rfl, rfl, by simp [compactLoop]⟩
    · exact fun e he => h.layout.value e (hlive ▸ he)
    · intro e he
      have := h.below e (hlive ▸ he)
      simp only [compactLoop, List.length_take]; omega
    · exact hlive ▸ h.layout.ordered
    · exact List.map_congr_left fun e he => headerAt_congr htake
        (h.layout.value e (hlive ▸ he)) (h.below e (hlive ▸ he))
    · simp only [compactLoop, List.length_take, octets, total_nil]; omega
  | succ remaining ih =>
    obtain ⟨todo, e, rfl⟩ : ∃ as a, todo = as ++ [a] :=
      ⟨todo.dropLast, todo.getLast (by rintro rfl; simp at hr),
        (List.dropLast_append_getLast _).symm⟩
    have hlen : todo.length = remaining := by simpa using hr
    have hcount : remaining < t.entryCount := by
      have := congrArg List.length hlive
      simp at this; omega
    have he : t.entry remaining = e := by
      have h1 : t.live[remaining]? = some (t.entry remaining) :=
        Ring.getElem?_toList hcount
      rw [hlive, List.append_assoc, List.getElem?_append_right (by omega)] at h1
      simpa [hlen] using h1.symm
    obtain ⟨hstep, hhead⟩ := h.step
    have hlive' : (t.compactStep remaining w).live =
        todo ++ { e with nameOffset := w, valueOffset := w + e.nameLength } :: done := by
      have := Ring.toList_set t.entryHead hcount hc
        { e with nameOffset := w, valueOffset := w + e.nameLength }
      simp only [live, compactStep, he]
      rw [this]
      change t.live.set _ _ = _
      rw [hlive, List.append_assoc, List.set_append_right _ _ (by omega)]
      simp [hlen]
    have hih := ih (t := t.compactStep remaining w) (w := w + (e.nameLength + e.valueLength))
      hlive' hlen (by simpa [compactStep] using hc) (by simpa only [compactStep, he] using hstep)
    simp only [compactLoop, he] at hih ⊢
    simp only [compactStep, he] at hih
    obtain ⟨k1, k2, k3, k4, k5, k6, k7, k8, k9, k10⟩ := hih
    refine ⟨k1, ?_, ?_, k4, by simpa using k5, k6, k7, k8, k9, ?_⟩
    · rw [k2, headers, headers, hlive, ← hhead]
      simp only [compactStep, he] at hlive'
      rw [hlive']
    · rw [k3]
      simp only [octets, total_append, total_cons, total_nil]; omega
    · have hstop := h.layout.inside e (by simp)
      have hv := h.layout.value e (by simp)
      unfold TableEntry.stop at hstop
      rwa [length_memMove (by omega) (h.above e (by simp))] at k10

theorem octets_le (h : t.Fits) : octets t.live ≤ t.currentSize := by
  rw [h.size, headers]
  have hle : ∀ es, (∀ e ∈ es, headerSize (headerAt t.data e) =
      e.nameLength + e.valueLength + hpackEntryOverhead) →
      octets es ≤ total headerSize (es.map (headerAt t.data)) := by
    intro es hes
    induction es with
    | nil => simp [octets]
    | cons e es ih =>
      have h1 := hes e (by simp)
      have h2 := ih fun a ha => hes a (by simp [ha])
      simp only [octets, List.map_cons, total_cons] at h2 ⊢
      omega
  exact hle _ fun e he => headerSize_headerAt (h.layout.value e he) (h.layout.inside e he)

theorem entryCount_eq_zero (h : t.Fits) (hn : t.entries = []) :
    t.entryCount = 0 := by
  have := h.count_le
  rw [hn] at this; simpa using this

/-- Compaction keeps the header fields and leaves no gap. -/
theorem compactData_spec (h : t.Fits) :
    t.compactData.Fits ∧ t.compactData.headers = t.headers ∧
      t.compactData.data.length ≤ t.currentSize ∧ t.compactData.maxSize = t.maxSize ∧
      t.compactData.entries.length = t.entries.length := by
  unfold compactData
  split_ifs with hc
  · refine ⟨⟨h.count_le, fun hne => ?_, ⟨?_, ?_, ?_⟩, ?_, by simp⟩, ?_, by simp, rfl, rfl⟩
    · have := h.head_lt hne; simp only; omega
    · simp [live, hc]
    · simp [live, hc]
    · simp [live, hc]
    · simp [h.size, headers, live, hc]
    · simp [headers, live, hc]
  · have hstart : Compacting t.data t.live [] 0 :=
      ⟨by simpa using h.layout, by simp, by simp, by omega⟩
    obtain ⟨k1, k2, k3, k4, k5, k6, k7, k8, k9, k10⟩ :=
      compactLoop_spec (List.append_nil _).symm (length_live t) h.count_le hstart
    have hoct := octets_le h
    refine ⟨⟨by rw [k5, k6]; exact h.count_le, fun hne => ?_, k1, by rw [k8, k2, h.size], ?_⟩, k2,
      by omega, k7, k5⟩
    · rw [k4, k5]
      refine h.head_lt fun hnil => hne ?_
      rw [hnil] at k5
      exact List.eq_nil_of_length_eq_zero k5
    · rw [k9]
      exact k10.trans h.data_le

/-- **A new bound keeps the newest entries that fit.** -/
theorem updateMaxSize_spec (h : t.Fits) (n : ℕ) :
    (t.updateMaxSize n).Wf ∧ (t.updateMaxSize n).headers = fit headerSize n t.headers ∧
      (t.updateMaxSize n).maxSize = n ∧ ((t.updateMaxSize n).Allocated ↔ t.Allocated) := by
  have hfits : Fits { t with maxSize := n } := ⟨h.count_le, h.head_lt, h.layout, h.size, h.data_le⟩
  obtain ⟨h1, h2, h3, h4⟩ := evictWhile_spec 0 hfits le_rfl (Nat.zero_le _)
  obtain ⟨k1, k2, -, k4, k5⟩ := compactData_spec h1
  have hh : (t.updateMaxSize n).headers = fit headerSize n t.headers := by
    exact k2.trans h2
  refine ⟨⟨k1, ?_⟩, hh, k4.trans h3, ?_⟩
  · have hle := total_fit_le (w := headerSize) n t.headers
    have hs : (t.updateMaxSize n).currentSize = _ := k1.size
    have hm : (t.updateMaxSize n).maxSize = n := k4.trans h3
    change (t.updateMaxSize n).currentSize ≤ (t.updateMaxSize n).maxSize
    rw [hs, hm]
    exact hh ▸ hle
  · rw [h4] at k5
    unfold Allocated
    rw [← List.length_pos_iff, ← List.length_pos_iff]
    exact ⟨fun h => k5 ▸ h, fun h => k5 ▸ h⟩

/-! ## Insertion -/

theorem le_dataCapacityLimit {maxSize : ℕ} (hm : maxSize ≤ maxSizeT) :
    maxSize ≤ dynamicTableDataCapacityLimit maxSize := by
  unfold dynamicTableDataCapacityLimit; split_ifs <;> omega

theorem growData_spec (h : t.Fits) (hfit : t.data.length + dataNeeded ≤ t.dataCapacity ∨
      t.data.length + dataNeeded ≤ t.maxSize) (hm : t.maxSize ≤ maxSizeT) (hn : 0 < t.maxSize) :
    ∃ t', t.growData dataNeeded = .ok t' ∧ t'.Fits ∧ t'.headers = t.headers ∧
      t'.maxSize = t.maxSize ∧ t'.entries = t.entries ∧ t'.entryHead = t.entryHead ∧
      t'.entryCount = t.entryCount ∧ t'.data = t.data ∧ t'.currentSize = t.currentSize ∧
      t.data.length + dataNeeded ≤ t'.dataCapacity := by
  have hlimit := le_dataCapacityLimit hm
  have hdata := h.data_le
  unfold growData
  split_ifs with h1
  · simp only
    rw [if_neg (by omega), if_neg (by omega)]
    exact ⟨_, rfl, ⟨h.count_le, h.head_lt, h.layout, h.size, by simp only; omega⟩, rfl, rfl, rfl,
      rfl, rfl, rfl, rfl, by simp only; omega⟩
  · exact ⟨t, rfl, h, rfl, rfl, rfl, rfl, rfl, rfl, rfl, by omega⟩

theorem growEntries_spec (h : t.Fits) (ha : t.Allocated) :
    ∃ t', t.growEntries = .ok t' ∧ t'.Fits ∧ t'.headers = t.headers ∧ t'.maxSize = t.maxSize ∧
      t'.entryCount < t'.entries.length ∧ t'.dataCapacity = t.dataCapacity ∧ t'.data = t.data ∧
      t'.currentSize = t.currentSize := by
  have hpos : 0 < t.entries.length := List.length_pos_iff.2 ha
  have hc := h.count_le
  unfold growEntries
  split_ifs with h1
  · simp only
    rw [if_neg (by omega)]
    have hlive : Ring.toList (Ring.toList t.entries t.entryHead t.entryCount ++
        List.replicate (t.entries.length * 2 - t.entryCount) default) 0 t.entryCount = t.live :=
      Ring.toList_copy _
    refine ⟨_, rfl, ⟨?_, ?_, ?_, ?_, h.data_le⟩, ?_, rfl, ?_, rfl, rfl, rfl⟩
    · simp
    · intro; simp; omega
    · simp only [live] at hlive ⊢; rw [hlive]; exact h.layout
    · simp only [headers, live] at hlive ⊢; rw [hlive]; exact h.size
    · simp only [headers, live] at hlive ⊢; rw [hlive]
    · simp; omega
  · exact ⟨t, rfl, h, rfl, rfl, by omega, rfl, rfl, rfl⟩

theorem store_spec (h : t.Fits) (hc : t.entryCount < t.entries.length)
    (name value : Bytes) (hd : t.data.length + (name.length + value.length) ≤ t.dataCapacity) :
    (t.store name value).Fits ∧ (t.store name value).headers = ⟨name, value⟩ :: t.headers ∧
      (t.store name value).maxSize = t.maxSize ∧ (t.store name value).Allocated := by
  have hne : t.entries ≠ [] := List.length_pos_iff.1 (by omega)
  have hh := h.head_lt hne
  set e : TableEntry := { nameOffset := t.data.length, nameLength := name.length, valueOffset := t.data.length + name.length, valueLength := value.length } with he
  have hlive : (t.store name value).live = e :: t.live :=
    Ring.toList_pushFront hh hc e
  have htake : (t.data ++ name ++ value).take t.data.length = t.data.take t.data.length := by
    rw [List.append_assoc, List.take_left', List.take_length]; rfl
  have hnew : headerAt (t.data ++ name ++ value) e = ⟨name, value⟩ := by
    simp [headerAt, he, slice]
  have hold : t.live.map (headerAt (t.data ++ name ++ value)) = t.headers :=
    List.map_congr_left fun a ha =>
      headerAt_congr htake (h.layout.value a ha) (h.layout.inside a ha)
  have hheaders : (t.store name value).headers = ⟨name, value⟩ :: t.headers := by
    rw [headers, hlive, List.map_cons]
    exact congrArg₂ _ hnew hold
  refine ⟨⟨?_, fun _ => ?_, ⟨?_, ?_, ?_⟩, ?_, ?_⟩, hheaders, rfl, ?_⟩
  · simp only [store, List.length_set]; omega
  · have := Ring.before_lt hh
    simpa [store, Ring.before] using this
  · intro a ha
    rw [hlive] at ha
    rcases List.mem_cons.1 ha with rfl | ha
    · rfl
    · exact h.layout.value a ha
  · intro a ha
    rw [hlive] at ha
    rcases List.mem_cons.1 ha with rfl | ha
    · simp [TableEntry.stop, store, he]; omega
    · have := h.layout.inside a ha
      simp [store]; omega
  · rw [hlive]
    exact List.pairwise_cons.2 ⟨fun a ha => h.layout.inside a ha, h.layout.ordered⟩
  · rw [hheaders, total_cons, ← h.size]
    simp [store, headerSize]; omega
  · simp [store]; omega
  · simp [Allocated, store, hne]

/-- Inserting a field that does not fit clears the table. -/
theorem insert_oversize
    (hl : headerSize ⟨name, value⟩ ≤ maxSizeT) (hs : t.maxSize < headerSize ⟨name, value⟩) :
    ∃ t', t.insert name value = (statusSuccess, t') ∧ t'.Wf ∧ (t'.Allocated ↔ t.Allocated) ∧
      t'.maxSize = t.maxSize ∧ t'.headers = [] := by
  simp only [headerSize] at hl hs
  have hov : ¬ (name.length > maxSizeT - value.length ∨
      name.length + value.length > maxSizeT - hpackEntryOverhead) := by omega
  unfold insert
  rw [if_neg hov]
  simp only
  rw [if_pos (by omega)]
  refine ⟨_, rfl, ⟨⟨?_, ?_, ⟨?_, ?_, ?_⟩, ?_, ?_⟩, ?_⟩, Iff.rfl, rfl, rfl⟩
  · simp
  · exact fun hne => List.length_pos_iff.2 hne
  · simp [live]
  · simp [live]
  · simp [live]
  · simp [headers, live]
  · simp
  · simp

/-- The table `Insert` stores into: room was made for an entry of `entrySize`,
    `dataNeeded` of it octets. -/
def room (t : HpackDynamicTable) (entrySize dataNeeded : ℕ) : HpackDynamicTable :=
  let t := t.evictWhile entrySize t.entryCount
  if t.data.length + dataNeeded > t.dataCapacity then t.compactData else t

theorem room_spec (h : t.Fits) {entrySize : ℕ}
    (he : dataNeeded ≤ entrySize) (hs : entrySize ≤ t.maxSize) :
    (t.room entrySize dataNeeded).Fits ∧
      (t.room entrySize dataNeeded).headers =
        fit headerSize (t.maxSize - entrySize) t.headers ∧
      (t.room entrySize dataNeeded).maxSize = t.maxSize ∧
      ((t.room entrySize dataNeeded).Allocated ↔ t.Allocated) ∧
      ((t.room entrySize dataNeeded).data.length + dataNeeded ≤
          (t.room entrySize dataNeeded).dataCapacity ∨
        (t.room entrySize dataNeeded).data.length + dataNeeded ≤
          (t.room entrySize dataNeeded).maxSize) := by
  obtain ⟨h1, h2, h3, h4⟩ := evictWhile_spec _ h le_rfl hs
  unfold room
  simp only
  split_ifs with hc
  · obtain ⟨k1, k2, k3, k4, k5⟩ := compactData_spec h1
    have hle := total_fit_le (w := headerSize) (t.maxSize - entrySize) t.headers
    rw [← h2, ← h1.size] at hle
    refine ⟨k1, k2.trans h2, k4.trans h3, ?_, Or.inr ?_⟩
    · unfold Allocated
      rw [← List.length_pos_iff, ← List.length_pos_iff, k5, h4]
    · rw [k4, h3]; omega
  · refine ⟨h1, h2, h3, ?_, Or.inl (by omega)⟩
    unfold Allocated; rw [h4]

/-- `Insert` of a field that fits. -/
theorem insert_of_le (h : t.Fits)
    (hs : headerSize ⟨name, value⟩ ≤ t.maxSize) (hm : t.maxSize ≤ maxSizeT) :
    t.insert name value =
      let t := t.room (headerSize ⟨name, value⟩) (name.length + value.length)
      match t.growData (name.length + value.length) with
      | .error status => (status, t)
      | .ok t =>
        match t.growEntries with
        | .error status => (status, t)
        | .ok t => (statusSuccess, t.store name value) := by
  have hlimit := le_dataCapacityLimit hm
  obtain ⟨-, -, h3, -⟩ := evictWhile_spec _ h le_rfl hs
  simp only [headerSize] at hs h3
  have hov : ¬ (name.length > maxSizeT - value.length ∨
      name.length + value.length > maxSizeT - hpackEntryOverhead) := by
    have : 0 < hpackEntryOverhead := by decide
    omega
  unfold insert
  rw [if_neg hov]
  simp only
  rw [if_neg (by omega), h3, if_neg (by omega)]
  rfl

theorem insert_fits (h : t.Fits) (ha : t.Allocated)
    (hs : headerSize ⟨name, value⟩ ≤ t.maxSize) (hm : t.maxSize ≤ maxSizeT) :
    ∃ t', t.insert name value = (statusSuccess, t') ∧ t'.Wf ∧ t'.Allocated ∧
      t'.maxSize = t.maxSize ∧ t'.headers =
        ⟨name, value⟩ :: fit headerSize (t.maxSize - headerSize ⟨name, value⟩) t.headers := by
  have hpos : 0 < headerSize ⟨name, value⟩ := by simp [headerSize, hpackEntryOverhead]
  obtain ⟨h1, h2, h4, h5, h6⟩ := room_spec h
    (show name.length + value.length ≤ headerSize ⟨name, value⟩ by simp [headerSize]) hs
  obtain ⟨t₃, e₃, g1, g2, g3, g4, -, -, g7, -, g9⟩ := growData_spec h1 h6 (by omega) (by omega)
  have ha₃ : t₃.Allocated := by unfold Allocated; rw [g4]; exact h5.2 ha
  obtain ⟨t₄, e₄, k1, k2, k3, k4, k5, k6, -⟩ := growEntries_spec g1 ha₃
  obtain ⟨s1, s2, s3, s4⟩ := store_spec k1 k4 name value
    (by rw [k5, k6, g7]; exact g9)
  have hheaders : (t₄.store name value).headers = ⟨name, value⟩ ::
      fit headerSize (t.maxSize - headerSize ⟨name, value⟩) t.headers := by rw [s2, k2, g2, h2]
  refine ⟨t₄.store name value, ?_, ⟨s1, ?_⟩, s4, by rw [s3, k3, g3, h4], hheaders⟩
  · rw [insert_of_le h hs hm]
    simp only [e₃, e₄]
  · have hle := total_fit_le (w := headerSize) (t.maxSize - headerSize ⟨name, value⟩) t.headers
    rw [s1.size, hheaders, total_cons, s3, k3, g3, h4]
    omega

/-- A table whose ring was never allocated refuses every field that fits. -/
theorem insert_unallocated (h : t.Fits) (ha : ¬ t.Allocated)
    (hs : headerSize ⟨name, value⟩ ≤ t.maxSize) (hm : t.maxSize ≤ maxSizeT) :
    ∃ t', t.insert name value = (statusInsufficientResources, t') ∧ t'.Wf ∧ ¬ t'.Allocated ∧
      t'.maxSize = t.maxSize ∧ t'.headers = [] := by
  have hpos : 0 < headerSize ⟨name, value⟩ := by simp [headerSize, hpackEntryOverhead]
  obtain ⟨h1, h2, h4, h5, h6⟩ := room_spec h
    (show name.length + value.length ≤ headerSize ⟨name, value⟩ by simp [headerSize]) hs
  obtain ⟨t₃, e₃, g1, g2, g3, g4, -, -, g7, -, g9⟩ := growData_spec h1 h6 (by omega) (by omega)
  have ha₃ : t₃.entries = [] := by
    rw [g4]; exact not_not.1 fun hne => ha (h5.1 hne)
  have hcount := entryCount_eq_zero g1 ha₃
  have hheaders : t₃.headers = [] := List.eq_nil_of_length_eq_zero (by simpa using hcount)
  have e₄ : t₃.growEntries = .error statusInsufficientResources := by
    simp [growEntries, ha₃]
  refine ⟨t₃, ?_, ⟨g1, ?_⟩, by simpa [Allocated] using ha₃, by rw [g3, h4], hheaders⟩
  · rw [insert_of_le h hs hm]
    simp only [e₃, e₄]
  · rw [g1.size, hheaders]; simp

/-- **An insertion puts the field in front and keeps the newest entries that fit.** -/
theorem insert_spec (h : t.Fits) (ha : t.Allocated ∨ t.maxSize < headerSize ⟨name, value⟩)
    (hl : headerSize ⟨name, value⟩ ≤ maxSizeT) (hm : t.maxSize ≤ maxSizeT) :
    ∃ t', t.insert name value = (statusSuccess, t') ∧ t'.Wf ∧ (t'.Allocated ↔ t.Allocated) ∧
      t'.maxSize = t.maxSize ∧
      t'.headers = fit headerSize t.maxSize (⟨name, value⟩ :: t.headers) := by
  rcases Nat.lt_or_ge t.maxSize (headerSize ⟨name, value⟩) with hs | hs
  · obtain ⟨t', h1, h2, h3, h4, h5⟩ := insert_oversize hl hs
    exact ⟨t', h1, h2, h3, h4, by rw [h5, fit_cons_of_lt hs]⟩
  · have ha := ha.resolve_right (by omega)
    obtain ⟨t', h1, h2, h3, h4, h5⟩ := insert_fits h ha hs hm
    exact ⟨t', h1, h2, iff_of_true h3 ha, h4, by rw [h5, fit_cons_of_le hs]⟩

theorem initializeTable_wf (maxSize : ℕ) : (initializeTable maxSize).Wf := by
  unfold initializeTable
  split_ifs
  all_goals
    refine ⟨⟨?_, ?_, ⟨?_, ?_, ?_⟩, ?_, ?_⟩, ?_⟩ <;> simp [live, headers]

@[simp] theorem initializeTable_headers (maxSize : ℕ) : (initializeTable maxSize).headers = [] := by
  unfold initializeTable; split_ifs <;> rfl

@[simp] theorem initializeTable_maxSize (maxSize : ℕ) :
    (initializeTable maxSize).maxSize = maxSize := by
  unfold initializeTable; split_ifs with h
  · exact h.symm
  · rfl

/-- `Initialize(0)` allocates no ring. -/
theorem initializeTable_allocated (maxSize : ℕ) :
    (initializeTable maxSize).Allocated ↔ maxSize ≠ 0 := by
  unfold initializeTable Allocated; split_ifs with h <;> simp [h]

theorem entryCount_le (h : t.Wf) :
    hpackEntryOverhead * t.entryCount ≤ t.maxSize := by
  have hle : ∀ hs : List HttpHeader, hpackEntryOverhead * hs.length ≤ total headerSize hs := by
    intro hs
    induction hs with
    | nil => simp
    | cons x xs ih =>
      rw [List.length_cons, total_cons, headerSize, mul_add, mul_one]; omega
  have := hle t.headers
  rw [length_headers, ← h.size] at this
  exact this.trans h.bound

end HpackDynamicTable

end KernelHttp
