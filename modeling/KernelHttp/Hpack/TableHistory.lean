/-
  What an HPACK dynamic table holds after any number of calls of `Insert` and `UpdateMaxSize`.

  Each call is one operation of the queue that a table stands for, so a run of calls is a run of it.
-/
import KernelHttp.Hpack.DynamicTable

namespace KernelHttp

open Fifo

namespace HpackDynamicTable

def queue (t : HpackDynamicTable) : Queue HttpHeader := ⟨t.headers, t.maxSize⟩

/-- The places of the entries lie inside the arrays of the table. -/
structure InBounds (t : HpackDynamicTable) : Prop where
  head : t.entryHead < t.entries.length
  ring : ∀ i < t.entryCount, (t.entryHead + i) % t.entries.length < t.entries.length
  name : ∀ i < t.entryCount, (t.entry i).nameOffset + (t.entry i).nameLength ≤ t.data.length
  value : ∀ i < t.entryCount, (t.entry i).valueOffset + (t.entry i).valueLength ≤ t.data.length
  used : t.data.length ≤ t.dataCapacity

theorem Fits.inBounds {t : HpackDynamicTable} (h : t.Fits) (ha : t.Allocated) : t.InBounds := by
  have hpos : 0 < t.entries.length := List.length_pos_iff.2 ha
  have hmem : ∀ i < t.entryCount, t.entry i ∈ t.live := fun i hi =>
    List.mem_of_getElem? (Ring.getElem?_toList hi)
  constructor
  · exact h.head_lt ha
  · intro i _
    exact Nat.mod_lt _ hpos
  · intro i hi
    have hv := h.layout.value _ (hmem i hi)
    have hs := h.layout.inside _ (hmem i hi)
    unfold TableEntry.stop at hs
    omega
  · intro i hi
    exact h.layout.inside _ (hmem i hi)
  · exact h.data_le

theorem map_lookup (t : HpackDynamicTable) :
    (List.range t.entryCount).map t.lookup = t.headers.map some := by
  apply List.ext_getElem?
  intro i
  rcases Nat.lt_or_ge i t.entryCount with hi | hi
  · rw [List.getElem?_map, List.getElem?_range hi, List.getElem?_map, Option.map_some, lookup_eq,
      List.getElem?_eq_getElem (by simpa using hi), Option.map_some]
  · rw [List.getElem?_eq_none (by simpa using hi), List.getElem?_eq_none (by simpa using hi)]

end HpackDynamicTable

/-- A call of an operation that changes the table. -/
inductive TableCall where
  | insert (name value : Bytes)
  | updateMaxSize (n : ℕ)

namespace TableCall

def perform (t : HpackDynamicTable) : TableCall → NTSTATUS × HpackDynamicTable
  | insert name value => t.insert name value
  | updateMaxSize n => (statusSuccess, t.updateMaxSize n)

/-- What the call does to the queue. -/
def toOp : TableCall → Op HttpHeader
  | insert name value => .push ⟨name, value⟩
  | updateMaxSize n => .setBound n

/-- Both lengths together stay below `2 ^ 63`, and sizes are `SIZE_T` values. -/
def Valid : TableCall → Prop
  | insert name value => name.length + value.length < 2 ^ 63
  | updateMaxSize n => n ≤ maxSizeT

instance : ∀ c : TableCall, Decidable c.Valid
  | insert name value => inferInstanceAs (Decidable (name.length + value.length < 2 ^ 63))
  | updateMaxSize n => inferInstanceAs (Decidable (n ≤ maxSizeT))

end TableCall

/-- A table in use: well-formed, its ring allocated, its bound a `SIZE_T`. -/
structure HpackDynamicTable.InUse (t : HpackDynamicTable) : Prop extends t.Wf where
  allocated : t.Allocated
  maxSize_le : t.maxSize ≤ maxSizeT

/-- **One call** succeeds and is an operation of the queue. -/
theorem TableCall.perform_spec {t : HpackDynamicTable} (ht : t.InUse) {c : TableCall}
    (hc : c.Valid) :
    ∃ t', c.perform t = (statusSuccess, t') ∧ t'.InUse ∧
      t'.queue = t.queue.step headerSize c.toOp := by
  cases c with
  | insert name value =>
    have hsize : headerSize ⟨name, value⟩ ≤ maxSizeT := by
      simp only [Valid] at hc
      simp only [headerSize, hpackEntryOverhead, maxSizeT]; omega
    obtain ⟨t', h1, h2, h3, h4, h5⟩ := HpackDynamicTable.insert_spec ht.toFits
      (.inl ht.allocated) hsize ht.maxSize_le
    refine ⟨t', h1, ⟨h2, h3.2 ht.allocated, h4 ▸ ht.maxSize_le⟩, ?_⟩
    simp only [HpackDynamicTable.queue, h4, h5]
    rfl
  | updateMaxSize n =>
    obtain ⟨h1, h2, h3, h4⟩ := HpackDynamicTable.updateMaxSize_spec ht.toFits n
    refine ⟨_, rfl, ⟨h1, h4.2 ht.allocated, ?_⟩, ?_⟩
    · rw [h3]; exact hc
    · simp only [HpackDynamicTable.queue, h2, h3]
      rfl

def runTable : HpackDynamicTable → List TableCall → List NTSTATUS × HpackDynamicTable
  | t, [] => ([], t)
  | t, c :: cs =>
    let (status, t) := c.perform t
    let (statuses, t) := runTable t cs
    (status :: statuses, t)

/-- **A run of calls** is a run of the queue. -/
theorem runTable_spec {calls : List TableCall} (hv : ∀ c ∈ calls, c.Valid) :
    ∀ {t : HpackDynamicTable}, t.InUse →
    (∀ status ∈ (runTable t calls).1, status = statusSuccess) ∧ (runTable t calls).2.InUse ∧
      (runTable t calls).2.queue = (calls.map TableCall.toOp).foldl (Queue.step headerSize) t.queue := by
  induction calls with
  | nil =>
    intro t ht
    exact ⟨by simp [runTable], ht, rfl⟩
  | cons c cs ih =>
    intro t ht
    obtain ⟨t₁, h1, h2, h3⟩ := TableCall.perform_spec ht (hv c (by simp))
    obtain ⟨k1, k2, k3⟩ := ih (fun c hc => hv c (by simp [hc])) h2
    simp only [runTable, h1]
    refine ⟨?_, k2, ?_⟩
    · intro status hs
      rcases List.mem_cons.1 hs with rfl | hs
      · rfl
      · exact k1 status hs
    · rw [k3, h3]; rfl

theorem initializeTable_inUse {m : ℕ} (hm : 0 < m) (hmax : m ≤ maxSizeT) :
    (HpackDynamicTable.initializeTable m).InUse := by
  refine ⟨HpackDynamicTable.initializeTable_wf m, ?_, by simpa using hmax⟩
  rw [HpackDynamicTable.initializeTable_allocated]
  omega

/-- **A dynamic table is a queue bounded by its size**: after any calls `Lookup`
    finds the longest run of the fields inserted last that fitted every bound
    applied, no call failed, and the places of the entries are inside the arrays. -/
theorem dynamicTable_refines_fifo {m : ℕ} (hm : 0 < m) (hmax : m ≤ maxSizeT)
    {calls : List TableCall} (hv : ∀ c ∈ calls, c.Valid) {statuses : List NTSTATUS}
    {t : HpackDynamicTable}
    (hrun : runTable (HpackDynamicTable.initializeTable m) calls = (statuses, t)) :
    (∃ hs, IsLongest headerSize m (calls.map TableCall.toOp) hs ∧
      (List.range t.entryCount).map t.lookup = hs.map some ∧
      t.currentSize = total headerSize hs) ∧
    t.currentSize ≤ t.maxSize ∧ t.maxSize = boundAfter m (calls.map TableCall.toOp) ∧
    (∀ status ∈ statuses, status = statusSuccess) ∧ t.InBounds := by
  obtain ⟨h1, h2, h3⟩ := runTable_spec hv (initializeTable_inUse hm hmax)
  rw [hrun] at h1 h2 h3
  have hstart : (HpackDynamicTable.initializeTable m).queue = ⟨[], m⟩ := by
    simp [HpackDynamicTable.queue]
  rw [hstart] at h3
  change t.queue = Fifo.run headerSize m (calls.map TableCall.toOp) at h3
  refine ⟨⟨t.headers, ?_, t.map_lookup, h2.size⟩, h2.bound, ?_, h1, h2.toFits.inBounds h2.allocated⟩
  · have hitems : t.headers = (Fifo.run headerSize m (calls.map TableCall.toOp)).items := by
      rw [← h3]; rfl
    rw [hitems]
    exact run_isLongest m _
  · rw [← run_bound (w := headerSize), ← h3]
    rfl

/-- Two fields, a bound that keeps one of them, and another field. -/
def fewCalls : List TableCall :=
  [.insert (text "a") (text "1"), .insert (text "b") (text "2"), .updateMaxSize 40,
    .insert (text "c") (text "33")]

theorem dynamicTable_refines_fifo_few :
    (∀ c ∈ fewCalls, c.Valid) ∧ ∃ hs,
      IsLongest headerSize 100 (fewCalls.map TableCall.toOp) hs ∧
      (runTable (HpackDynamicTable.initializeTable 100) fewCalls).2.currentSize =
        total headerSize hs := by
  have hv : ∀ c ∈ fewCalls, c.Valid := by decide
  obtain ⟨⟨hs, h1, -, h2⟩, -⟩ := dynamicTable_refines_fifo (show 0 < 100 by decide)
    (show 100 ≤ maxSizeT by decide) hv Prod.mk.eta.symm
  exact ⟨hv, hs, h1, h2⟩

end KernelHttp
