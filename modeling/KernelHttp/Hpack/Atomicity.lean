/-
  What a failed `HpackEncoder::Encode` leaves behind.

  `Encode` inserts field by field and clears the pending table size update before
  the fields are written, so a later failure keeps these changes.
-/
import KernelHttp.Hpack.Agreement

namespace KernelHttp

open Fifo

/-- The two tables hold the same entries under the same bound. -/
structure HpackDynamicTable.Same (t t' : HpackDynamicTable) : Prop where
  headers : t'.headers = t.headers
  maxSize : t'.maxSize = t.maxSize

namespace HpackDynamicTable

theorem Same.refl (t : HpackDynamicTable) : t.Same t := ⟨rfl, rfl⟩

variable {t : HpackDynamicTable} {h : HttpHeader}

theorem Same.trans {t' t'' : HpackDynamicTable} (h : t.Same t') (h' : t'.Same t'') :
    t.Same t'' := ⟨h'.headers.trans h.headers, h'.maxSize.trans h.maxSize⟩

/-- `Insert` refuses the field: its size is no `SIZE_T`, or there is no ring. -/
def Refuses (t : HpackDynamicTable) (h : HttpHeader) : Prop :=
  maxSizeT < headerSize h ∨ (¬ t.Allocated ∧ headerSize h ≤ t.maxSize)

instance (t : HpackDynamicTable) (h : HttpHeader) : Decidable (t.Refuses h) :=
  inferInstanceAs (Decidable (_ ∨ (¬ t.entries ≠ [] ∧ _)))

/-- A refused field leaves the table as it was. -/
theorem insert_refused (ht : t.Wf) (hm : t.maxSize ≤ maxSizeT) (hr : t.Refuses h) :
    ∃ status t', t.insert h.name h.value = (status, t') ∧ ntSuccess status = false ∧ t'.Wf ∧
      (t'.Allocated ↔ t.Allocated) ∧ t.Same t' := by
  by_cases hbig : maxSizeT < headerSize h
  · refine ⟨statusIntegerOverflow, t, ?_, by simp, ht, Iff.rfl, Same.refl t⟩
    have hover : hpackEntryOverhead ≤ maxSizeT := by decide
    unfold headerSize at hbig
    unfold insert
    rw [if_pos (by omega)]
  · obtain ⟨ha, hle⟩ := hr.resolve_left hbig
    obtain ⟨t', h1, h2, h3, h4, h5⟩ := insert_unallocated ht.toFits ha hle hm
    exact ⟨_, t', h1, by simp, h2, iff_of_false h3 ha,
      ⟨by rw [h5, headers_of_unallocated ht.toFits ha], h4⟩⟩

/-- A field that is not refused is inserted. -/
theorem insert_accepted (ht : t.Wf) (hm : t.maxSize ≤ maxSizeT) (hr : ¬ t.Refuses h) :
    ∃ t', t.insert h.name h.value = (statusSuccess, t') ∧ t'.Wf ∧
      (t'.Allocated ↔ t.Allocated) ∧ t'.maxSize = t.maxSize ∧
      t'.headers = fit headerSize t.maxSize (h :: t.headers) := by
  simp only [Refuses, not_or, not_lt, not_and, not_le] at hr
  refine insert_spec ht.toFits ?_ hr.1 hm
  by_cases ha : t.Allocated
  · exact Or.inl ha
  · exact Or.inr (hr.2 ha)

end HpackDynamicTable

variable {t : HpackDynamicTable} {h : HttpHeader}

def afterField (t : HpackDynamicTable) (h : HttpHeader) : HpackDynamicTable :=
  if isInserted t h then (t.insert h.name h.value).2 else t

/-- **One turn of the loop**: the field is invalid, its octets do not fit, its
    insertion is refused, or it is written and perhaps inserted. -/
inductive FieldCase (t : HpackDynamicTable) (h : HttpHeader) (dest : Bytes) (capacity : ℕ) :
    Except NTSTATUS Bytes × HpackDynamicTable → Prop
  | invalid (hn : h.name = []) : FieldCase t h dest capacity (.error statusInvalidParameter, t)
  | tooSmall (hn : h.name ≠ []) (hc : capacity < dest.length + (fieldOctets t h).length) :
      FieldCase t h dest capacity (.error statusBufferTooSmall, t)
  | refused {status : NTSTATUS} {t' : HpackDynamicTable} (hn : h.name ≠ [])
      (hc : dest.length + (fieldOctets t h).length ≤ capacity) (hi : isInserted t h = true)
      (hr : t.Refuses h) (hwf : t'.Wf) (hs : t.Same t') :
      FieldCase t h dest capacity (.error status, t')
  | written (hn : h.name ≠ []) (hc : dest.length + (fieldOctets t h).length ≤ capacity)
      (hr : ¬ (isInserted t h = true ∧ t.Refuses h)) :
      FieldCase t h dest capacity (.ok (dest ++ fieldOctets t h), afterField t h)

theorem afterField_spec (ht : t.Wf) (hm : t.maxSize ≤ maxSizeT)
    (hr : ¬ (isInserted t h = true ∧ t.Refuses h)) :
    (afterField t h).Wf ∧ ((afterField t h).Allocated ↔ t.Allocated) ∧
      (afterField t h).maxSize = t.maxSize ∧
      (afterField t h).headers =
        if isInserted t h then fit headerSize t.maxSize (h :: t.headers) else t.headers := by
  unfold afterField
  split_ifs with hi
  · obtain ⟨t', h1, h2, h3, h4, h5⟩ := HpackDynamicTable.insert_accepted ht hm fun h => hr ⟨hi, h⟩
    rw [h1]
    exact ⟨h2, h3, h4, h5⟩
  · exact ⟨ht, Iff.rfl, rfl, rfl⟩

theorem encodeField_cases (ht : t.Wf) (hm : t.maxSize ≤ maxSizeT)
    (h : HttpHeader) {dest : Bytes} {capacity : ℕ} (hd : dest.length ≤ capacity) :
    FieldCase t h dest capacity (encodeField t h dest capacity) := by
  by_cases hn : h.name = []
  · rw [encodeField, if_pos hn]
    exact .invalid hn
  by_cases hc : dest.length + (fieldOctets t h).length ≤ capacity
  · have hw := writeField_writes t h hd
    unfold Writes at hw
    rw [if_pos hc] at hw
    rw [encodeField, if_neg hn, hw]
    simp only
    cases hi : isInserted t h with
    | false =>
      have hwritten : FieldCase t h dest capacity _ := .written hn hc (by simp [hi])
      simpa [afterField, hi] using hwritten
    | true =>
      by_cases hr : t.Refuses h
      · obtain ⟨status, t', h1, h2, hwf, -, h3⟩ := HpackDynamicTable.insert_refused ht hm hr
        simp only [h1, h2, if_true, Bool.false_eq_true, not_false_eq_true]
        exact .refused hn hc hi hr hwf h3
      · obtain ⟨t', h1, -⟩ := HpackDynamicTable.insert_accepted ht hm hr
        have hwritten : FieldCase t h dest capacity _ := .written hn hc fun h => hr h.2
        simpa [afterField, hi, h1] using hwritten
  · rw [encodeField_tooSmall hn hd hc]
    exact .tooSmall hn (by omega)

/-! ## The fields that have entered -/

/-- A field behind entries: its representation, and whether the field enters the table. -/
def fieldBehind (entries : List HttpHeader) (h : HttpHeader) : Bytes × Bool :=
  let (i, nameOnly) := findMatchLoop h.name h.value 0 (hpackStaticTable ++ entries) 0
  let sensitive := isSensitiveHeaderName h.name
  if 0 < i ∧ ¬ nameOnly ∧ ¬ sensitive then (integerOctets (i % 2 ^ 32) 0x80 7, false)
  else
    let (first, bits) := if sensitive then (0x10, 4) else (0x40, 6)
    let name := if 0 < i then integerOctets (i % 2 ^ 32) first bits
      else UInt8.ofNat first :: stringOctets h.name
    (name ++ stringOctets h.value, ¬ sensitive)

theorem fieldBehind_eq (t : HpackDynamicTable) (h : HttpHeader) :
    fieldBehind t.headers h = (fieldOctets t h, isInserted t h) := by
  unfold fieldBehind fieldOctets isInserted isIndexed findMatch
  rw [filterMap_lookup]
  cases hs : isSensitiveHeaderName h.name with
  | true => simp
  | false =>
    generalize findMatchLoop h.name h.value 0 (hpackStaticTable ++ t.headers) 0 = r
    by_cases hi : 0 < r.1 ∧ r.2 = false
    · simp [hi.1, hi.2]
    · cases hn : r.2 with
      | true => simp [hn]
      | false =>
        have hzero : r.1 = 0 := Nat.eq_zero_of_not_pos fun hpos => hi ⟨hpos, hn⟩
        simp [hzero]

/-- The fields that have entered the table in front of the first one that fails, newest first: one
    without a name, one that is longer than the room that is left, or one that should enter and is
    refused.  There is none if no field fails. -/
def enteredAtFailure (t : HpackDynamicTable) :
    List HttpHeader → ℕ → List HttpHeader → Option (List HttpHeader)
  | _, _, [] => none
  | entered, room, h :: hs =>
    let (octets, enters) := fieldBehind (fit headerSize t.maxSize (entered ++ t.headers)) h
    if h.name = [] ∨ room < octets.length ∨ (enters ∧ t.Refuses h) then some entered
    else enteredAtFailure t (if enters then h :: entered else entered) (room - octets.length) hs

/-- The table behind the fields that have entered. -/
structure Behind (t₀ : HpackDynamicTable) (entered : List HttpHeader) (t : HpackDynamicTable) :
    Prop where
  headers : t.headers = fit headerSize t₀.maxSize (entered ++ t₀.headers)
  maxSize : t.maxSize = t₀.maxSize

theorem Behind.nil (ht : t.Wf) : Behind t [] t :=
  ⟨(fit_eq_self (ht.size ▸ ht.bound)).symm, rfl⟩

theorem Behind.same_iff {t₀ : HpackDynamicTable} {entered : List HttpHeader}
    (hb : Behind t₀ entered t) :
    t₀.Same t ↔ fit headerSize t₀.maxSize (entered ++ t₀.headers) = t₀.headers := by
  rw [← hb.headers]
  exact ⟨fun hsame => hsame.headers, fun heq => ⟨heq, hb.maxSize⟩⟩

/-- **Where the loop fails**: the table is behind the fields that have entered until then. -/
theorem encodeLoop_entered {capacity : ℕ} {t₀ : HpackDynamicTable} : ∀ (hs : List HttpHeader)
    {t : HpackDynamicTable} {entered : List HttpHeader} {dest : Bytes}, t.Wf →
    t.maxSize ≤ maxSizeT → (t.Allocated ↔ t₀.Allocated) → Behind t₀ entered t →
    dest.length ≤ capacity →
    (enteredAtFailure t₀ entered (capacity - dest.length) hs = none →
      ∃ block t', encodeLoop capacity t hs dest = (.ok block, t')) ∧
    ∀ entered', enteredAtFailure t₀ entered (capacity - dest.length) hs = some entered' →
      ∃ status t', encodeLoop capacity t hs dest = (.error status, t') ∧ Behind t₀ entered' t' := by
  intro hs
  induction hs with
  | nil =>
    intro t entered dest _ _ _ _ _
    refine ⟨fun _ => ⟨dest, t, rfl⟩, fun entered' hfail => ?_⟩
    cases hfail
  | cons h hs ih =>
    intro t entered dest ht hm ha hb hd
    have hfield : fieldBehind (fit headerSize t₀.maxSize (entered ++ t₀.headers)) h =
        (fieldOctets t h, isInserted t h) := hb.headers ▸ fieldBehind_eq t h
    have hrefuses : t₀.Refuses h ↔ t.Refuses h := by
      simp only [HpackDynamicTable.Refuses, ha, hb.maxSize]
    have hcase := encodeField_cases ht hm h hd
    unfold enteredAtFailure encodeLoop
    simp only [hfield, hrefuses]
    generalize encodeField t h dest capacity = r at hcase
    -- a field that fails ends the loop with the table as it is
    have hstop : ∀ {status : NTSTATUS} {t' : HpackDynamicTable}, Behind t₀ entered t' →
        (some entered = none → ∃ block t'', ((.error status, t') :
          Except NTSTATUS Bytes × HpackDynamicTable) = (.ok block, t'')) ∧
        ∀ entered', some entered = some entered' →
          ∃ status' t'', ((.error status, t') : Except NTSTATUS Bytes × HpackDynamicTable) =
            (.error status', t'') ∧ Behind t₀ entered' t'' := by
      intro status t' hb'
      refine ⟨fun hnone => absurd hnone (Option.some_ne_none _), fun entered' hsome => ?_⟩
      exact ⟨status, t', rfl, Option.some.inj hsome ▸ hb'⟩
    cases hcase with
    | invalid hn =>
      rw [if_pos (Or.inl hn)]
      exact hstop hb
    | tooSmall hn hc =>
      rw [if_pos (Or.inr (Or.inl (by omega)))]
      exact hstop hb
    | refused hn hc hi hr _ hsame =>
      rw [if_pos (Or.inr (Or.inr ⟨hi, hr⟩))]
      exact hstop ⟨hsame.headers.trans hb.headers, hsame.maxSize.trans hb.maxSize⟩
    | written hn hc hr =>
      have hpasses : ¬ (h.name = [] ∨ capacity - dest.length < (fieldOctets t h).length ∨
          (isInserted t h = true ∧ t.Refuses h)) := by
        rintro (hname | hroom | hrefused)
        · exact hn hname
        · omega
        · exact hr hrefused
      obtain ⟨hwf, ha₁, hm₁, hheaders⟩ := afterField_spec ht hm hr
      have hb₁ : Behind t₀ (if isInserted t h then h :: entered else entered) (afterField t h) := by
        refine ⟨?_, hm₁.trans hb.maxSize⟩
        rw [hheaders, hb.headers, hb.maxSize]
        split_ifs
        · exact fit_cons_fit h _
        · rfl
      have hlength : (dest ++ fieldOctets t h).length ≤ capacity := by
        rw [List.length_append]
        exact hc
      have hroom : capacity - dest.length - (fieldOctets t h).length =
          capacity - (dest ++ fieldOctets t h).length := by
        rw [List.length_append, Nat.sub_sub]
      rw [if_neg hpasses, hroom]
      exact ih hwf (hm₁.trans_le hm) (ha₁.trans ha) hb₁ hlength

/-! ## Encoders -/

namespace HpackEncoder

/-- The states of an encoder: it was initialised, its table size changed, and
    lists were encoded, with or without success. -/
inductive Reachable : HpackEncoder → Prop
  | initial {m : ℕ} (hm : m ≤ maxSizeT) : Reachable (initializeEncoder m)
  | update {e : HpackEncoder} {n : ℕ} (h : Reachable e) (hn : n ≤ maxSizeT) :
      Reachable (e.updateMaxTableSize n)
  | encode {e : HpackEncoder} (h : Reachable e) (hs : List HttpHeader) (capacity : ℕ) :
      Reachable (e.encode hs capacity).2

theorem encodeLoop_wf {capacity : ℕ} : ∀ (hs : List HttpHeader) {t : HpackDynamicTable}
    {dest : Bytes}, t.Wf → t.maxSize ≤ maxSizeT → dest.length ≤ capacity →
    (encodeLoop capacity t hs dest).2.Wf ∧ (encodeLoop capacity t hs dest).2.maxSize = t.maxSize := by
  intro hs
  induction hs with
  | nil =>
    intro t dest ht _ _
    exact ⟨ht, rfl⟩
  | cons h hs ih =>
    intro t dest ht hm hd
    have hcase := encodeField_cases ht hm h hd
    unfold encodeLoop
    generalize encodeField t h dest capacity = r at hcase
    cases hcase with
    | invalid _ => exact ⟨ht, rfl⟩
    | tooSmall _ _ => exact ⟨ht, rfl⟩
    | refused _ _ _ _ hwf hsame => exact ⟨hwf, hsame.maxSize⟩
    | written _ hc hr =>
      obtain ⟨hwf, -, hm₁, -⟩ := afterField_spec ht hm hr
      obtain ⟨h1, h2⟩ := ih hwf (by omega)
        (show (dest ++ fieldOctets t h).length ≤ capacity by simpa using hc)
      exact ⟨h1, h2.trans hm₁⟩

/-- The pending update: it does not fit, or it is written and no longer pending. -/
theorem writeSizeUpdate_eq (e : HpackEncoder) (capacity : ℕ) :
    e.writeSizeUpdate capacity =
      if e.tableSizeUpdatePending then
        if (integerOctets (e.pendingTableSize % 2 ^ 32) 0x20 5).length ≤ capacity then
          (.ok (integerOctets (e.pendingTableSize % 2 ^ 32) 0x20 5),
            { e with tableSizeUpdatePending := false })
        else (.error statusBufferTooSmall, e)
      else (.ok [], e) := by
  unfold writeSizeUpdate
  rw [hpackEncodeInteger_eq _ _ _ (by norm_num) (by norm_num)]
  split_ifs <;> rfl

variable {e : HpackEncoder}

theorem encode_wf (h : e.table.Wf) (hm : e.table.maxSize ≤ maxSizeT)
    (hs : List HttpHeader) (capacity : ℕ) :
    (e.encode hs capacity).2.table.Wf ∧
      (e.encode hs capacity).2.table.maxSize = e.table.maxSize := by
  unfold encode
  rw [writeSizeUpdate_eq]
  split_ifs with hp hc
  · exact encodeLoop_wf hs h hm hc
  · exact ⟨h, rfl⟩
  · exact encodeLoop_wf hs h hm (Nat.zero_le _)

/-- **Reachable encoders have well-formed tables.** -/
theorem Reachable.wf (h : e.Reachable) :
    e.table.Wf ∧ e.table.maxSize ≤ maxSizeT := by
  induction h with
  | initial hm =>
    exact ⟨HpackDynamicTable.initializeTable_wf _, by simpa [initializeEncoder] using hm⟩
  | @update e n _ hn ih =>
    unfold updateMaxTableSize
    split_ifs
    · exact ih
    · obtain ⟨h1, -, h3, -⟩ := HpackDynamicTable.updateMaxSize_spec ih.1.toFits n
      exact ⟨h1, by rw [h3]; exact hn⟩
  | encode _ hs capacity ih =>
    obtain ⟨h1, h2⟩ := encode_wf ih.1 ih.2 hs capacity
    exact ⟨h1, by rw [h2]; exact ih.2⟩

/-- If `Encode` fails, it leaves the table, the pending size and the flag as they
    were. -/
def AtomicAt (e : HpackEncoder) (hs : List HttpHeader) (capacity : ℕ) : Prop :=
  ∀ status e', e.encode hs capacity = (.error status, e') → e.table.Same e'.table ∧
    e'.pendingTableSize = e.pendingTableSize ∧
    e'.tableSizeUpdatePending = e.tableSizeUpdatePending

/-- The octets of the pending size update. -/
def sizeUpdate (e : HpackEncoder) : Bytes :=
  if e.tableSizeUpdatePending then integerOctets (e.pendingTableSize % 2 ^ 32) 0x20 5 else []

theorem encode_eq (e : HpackEncoder) (hs : List HttpHeader) (capacity : ℕ) :
    e.encode hs capacity =
      if capacity < e.sizeUpdate.length then (.error statusBufferTooSmall, e)
      else
        let (result, table) := encodeLoop capacity e.table hs e.sizeUpdate
        (result, { e with table, tableSizeUpdatePending := false }) := by
  unfold encode sizeUpdate
  rw [writeSizeUpdate_eq]
  cases hp : e.tableSizeUpdatePending with
  | true =>
    simp only [if_true]
    by_cases hc : (integerOctets (e.pendingTableSize % 2 ^ 32) 0x20 5).length ≤ capacity
    · rw [if_pos hc, if_neg (not_lt.2 hc)]
    · rw [if_neg hc, if_pos (not_le.1 hc)]
  | false => simp [hp]

/-- **Atomicity of `Encode`**, at every capacity: the pending size update does not fit, no field
    fails, or no size update is pending and the fields that have entered in front of the first one
    that fails leave the entries as they are. -/
theorem encode_atomic_iff {e : HpackEncoder} (h : e.Reachable) (hs : List HttpHeader)
    (capacity : ℕ) :
    e.AtomicAt hs capacity ↔ capacity < e.sizeUpdate.length ∨
      ∀ entered ∈ enteredAtFailure e.table [] (capacity - e.sizeUpdate.length) hs,
        e.tableSizeUpdatePending = false ∧
          fit headerSize e.table.maxSize (entered ++ e.table.headers) = e.table.headers := by
  obtain ⟨hwf, hm⟩ := h.wf
  unfold AtomicAt
  rw [encode_eq]
  by_cases hc : capacity < e.sizeUpdate.length
  · rw [if_pos hc]
    refine ⟨fun _ => .inl hc, fun _ status e' he => ?_⟩
    cases he
    exact ⟨.refl _, rfl, rfl⟩
  rw [if_neg hc]
  obtain ⟨hnone, hsome⟩ := encodeLoop_entered hs hwf hm Iff.rfl (.nil hwf) (not_lt.1 hc)
  constructor
  · intro hatomic
    refine .inr fun entered hentered => ?_
    obtain ⟨status, t', hloop, hb⟩ := hsome entered hentered
    rw [hloop] at hatomic
    obtain ⟨hsame, -, hpending⟩ := hatomic status _ rfl
    exact ⟨hpending.symm, hb.same_iff.1 hsame⟩
  · rintro (hlt | hall) status e' he
    · exact absurd hlt hc
    cases hfail : enteredAtFailure e.table [] (capacity - e.sizeUpdate.length) hs with
    | none =>
      obtain ⟨block, t', hloop⟩ := hnone hfail
      rw [hloop] at he
      cases he
    | some entered =>
      obtain ⟨status', t', hloop, hb⟩ := hsome entered hfail
      obtain ⟨hpending, hentries⟩ := hall entered hfail
      rw [hloop] at he
      cases he
      exact ⟨hb.same_iff.2 hentries, rfl, hpending.symm⟩

def twoFields : List HttpHeader := [⟨text "x-id", text "7"⟩, ⟨text "x-tag", text "8"⟩]

/-- A buffer that holds both fields, and one that does not hold the first. -/
theorem encode_atomic_twoFields :
    (initializeEncoder 4096).AtomicAt twoFields 64 ∧
      (initializeEncoder 4096).AtomicAt twoFields 3 :=
  ⟨(encode_atomic_iff (e := initializeEncoder 4096) (.initial (by decide)) _ _).2
      (by decide +kernel),
    (encode_atomic_iff (e := initializeEncoder 4096) (.initial (by decide)) _ _).2
      (by decide +kernel)⟩

/-- With a buffer that only holds the first field, `Encode` fails, and the first
    field stays in the table. -/
theorem encode_not_atomic :
    (initializeEncoder 4096).Reachable ∧ ¬ (initializeEncoder 4096).AtomicAt twoFields 8 := by
  refine ⟨.initial (by decide), fun hatomic => ?_⟩
  have hfail : ((initializeEncoder 4096).encode twoFields 8).1 = .error statusBufferTooSmall := by
    decide +kernel
  have hheaders : ((initializeEncoder 4096).encode twoFields 8).2.table.headers =
      [⟨text "x-id", text "7"⟩] := by decide +kernel
  unfold AtomicAt at hatomic
  generalize (initializeEncoder 4096).encode twoFields 8 = r at *
  obtain ⟨result, e'⟩ := r
  subst hfail
  have hsame := (hatomic _ e' rfl).1.headers
  rw [hheaders] at hsame
  simp [initializeEncoder] at hsame

end HpackEncoder

end KernelHttp
