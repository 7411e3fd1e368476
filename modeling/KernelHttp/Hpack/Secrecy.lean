/-
  Sensitive fields leave no trace in an HPACK encoder.

  Values of sensitive fields never enter the table, so lists that differ in them are encoded alike.
-/
import KernelHttp.Hpack.Atomicity

namespace KernelHttp

open Fifo

def NoSensitive (t : HpackDynamicTable) : Prop :=
  ∀ h ∈ t.headers, isSensitiveHeaderName h.name = false

/-- The fields differ at most in the value, and only if their name is sensitive. -/
def Alike (h h' : HttpHeader) : Prop :=
  h'.name = h.name ∧ (isSensitiveHeaderName h.name = false → h'.value = h.value)

instance (h h' : HttpHeader) : Decidable (Alike h h') :=
  inferInstanceAs (Decidable (_ ∧ (_ → _)))

variable {h h' : HttpHeader}

theorem Alike.eq (ha : Alike h h') (hs : isSensitiveHeaderName h.name = false) : h' = h := by
  obtain ⟨hname, hvalue⟩ := ha
  cases h
  cases h'
  simp only [HttpHeader.mk.injEq]
  exact ⟨hname, hvalue hs⟩

/-! ## The table behind a list -/

theorem afterField_sensitive (t : HpackDynamicTable)
    (hs : isSensitiveHeaderName h.name = true) : afterField t h = t := by
  have hins : isInserted t h = false := by simp [isInserted, hs]
  rw [afterField, hins]
  rfl

theorem afterField_alike (t : HpackDynamicTable) (ha : Alike h h') :
    afterField t h' = afterField t h := by
  cases hs : isSensitiveHeaderName h.name with
  | false => rw [ha.eq hs]
  | true => rw [afterField_sensitive t hs, afterField_sensitive t (by rw [ha.1, hs])]

/-- The table behind the fields that were written. -/
def tableAfter (t : HpackDynamicTable) (hs : List HttpHeader) : HpackDynamicTable :=
  hs.foldl afterField t

theorem tableAfter_alike {hs hs' : List HttpHeader} (ha : List.Forall₂ Alike hs hs') :
    ∀ t : HpackDynamicTable, tableAfter t hs' = tableAfter t hs := by
  induction ha with
  | nil => intro t; rfl
  | cons hhead _ ih =>
    intro t
    simp only [tableAfter, List.foldl_cons] at ih ⊢
    rw [afterField_alike t hhead, ih]

/-! ## One list -/

/-- A field that was written: its octets stand behind `dest`. -/
theorem encodeField_ok {capacity : ℕ} {t t' : HpackDynamicTable}
    {dest dest' : Bytes} (hd : dest.length ≤ capacity)
    (he : encodeField t h dest capacity = (.ok dest', t')) :
    dest' = dest ++ fieldOctets t h ∧ dest'.length ≤ capacity ∧ t' = afterField t h := by
  have hn : h.name ≠ [] := by
    intro hn
    rw [encodeField, if_pos hn] at he
    simp at he
  by_cases hfit : dest.length + (fieldOctets t h).length ≤ capacity
  · have hw := writeField_writes t h hd
    unfold Writes at hw
    rw [if_pos hfit] at hw
    rw [encodeField, if_neg hn, hw] at he
    simp only at he
    unfold afterField
    cases hi : isInserted t h with
    | false =>
      simp only [hi, Bool.false_eq_true, if_false, Prod.mk.injEq, Except.ok.injEq] at he ⊢
      exact ⟨he.1.symm, by rw [← he.1]; simpa using hfit, he.2.symm⟩
    | true =>
      simp only [hi, if_true] at he ⊢
      split_ifs at he with hok
      · simp only [Prod.mk.injEq, Except.ok.injEq] at he
        exact ⟨he.1.symm, by rw [← he.1]; simpa using hfit, he.2.symm⟩
      · simp at he
  · rw [encodeField_tooSmall hn hd hfit] at he
    simp at he

/-- **A list that was written**: so was every part of it from the front, and the
    next field stands behind that part. -/
theorem encodeLoop_ok {capacity : ℕ} : ∀ (hs : List HttpHeader) {t t' : HpackDynamicTable}
    {dest block : Bytes}, dest.length ≤ capacity →
    encodeLoop capacity t hs dest = (.ok block, t') →
    t' = tableAfter t hs ∧ ∀ i, ∃ part, encodeLoop capacity t (hs.take i) dest =
      (.ok part, tableAfter t (hs.take i)) ∧ ∀ h, hs[i]? = some h →
        (encodeLoop capacity t (hs.take (i + 1)) dest).1 =
          .ok (part ++ fieldOctets (tableAfter t (hs.take i)) h) := by
  intro hs
  induction hs with
  | nil =>
    intro t t' dest block _ he
    simp only [encodeLoop, Prod.mk.injEq] at he
    exact ⟨he.2.symm, fun i => ⟨dest, by simp [encodeLoop, tableAfter], by simp⟩⟩
  | cons a hs ih =>
    intro t t' dest block hd he
    cases hf : encodeField t a dest capacity with
    | mk result t₁ =>
      cases result with
      | error status => simp [encodeLoop, hf] at he
      | ok dest₁ =>
        obtain ⟨h1, h2, h3⟩ := encodeField_ok hd hf
        have hrest : encodeLoop capacity t₁ hs dest₁ = (.ok block, t') := by
          simpa [encodeLoop, hf] using he
        obtain ⟨k1, k2⟩ := ih h2 hrest
        rw [h3] at k1 k2 hf
        refine ⟨k1, fun i => ?_⟩
        cases i with
        | zero =>
          refine ⟨dest, rfl, fun h hh => ?_⟩
          obtain rfl : a = h := by simpa using hh
          simp only [Nat.zero_add, List.take_succ_cons, List.take_zero, encodeLoop, hf, h1]
          rfl
        | succ i =>
          obtain ⟨part, p1, p2⟩ := k2 i
          refine ⟨part, ?_, fun h hh => ?_⟩
          · rw [List.take_succ_cons, encodeLoop, hf]
            exact p1
          · rw [List.take_succ_cons, encodeLoop, hf]
            exact p2 h (by simpa using hh)

namespace HpackEncoder

/-- The field `i` of the list gets these octets: they are what `Encode` writes
    for it behind the fields before. -/
def Emits (e : HpackEncoder) (hs : List HttpHeader) (capacity i : ℕ) (octets : Bytes) : Prop :=
  ∃ block, (e.encode (hs.take i) capacity).1 = .ok block ∧
    (e.encode (hs.take (i + 1)) capacity).1 = .ok (block ++ octets)

/-- What the owner of an encoder does. -/
inductive Use where
  | updateMaxTableSize (n : ℕ)
  | encode (headers : List HttpHeader) (capacity : ℕ)

/-- The results of the calls of `Encode`. -/
def blocks : HpackEncoder → List Use → List (Except NTSTATUS Bytes)
  | _, [] => []
  | e, .updateMaxTableSize n :: us => blocks (e.updateMaxTableSize n) us
  | e, .encode hs capacity :: us =>
    (e.encode hs capacity).1 :: blocks (e.encode hs capacity).2 us

variable {block : Bytes} {e e' : HpackEncoder} {hs : List HttpHeader} {capacity : ℕ}

theorem encode_ok_spec (h : e.encode hs capacity = (.ok block, e')) :
    e' = { e with tableSizeUpdatePending := false, table := tableAfter e.table hs } ∧
      ∀ i a, hs[i]? = some a →
        e.Emits hs capacity i (fieldOctets (tableAfter e.table (hs.take i)) a) := by
  unfold Emits
  unfold encode at h ⊢
  rw [writeSizeUpdate_eq] at h ⊢
  cases hp : e.tableSizeUpdatePending with
  | true =>
    simp only [hp, if_true] at h ⊢
    split_ifs at h ⊢ with hc
    · simp only [Prod.mk.injEq] at h
      obtain ⟨hblock, rfl⟩ := h
      obtain ⟨h1, h2⟩ := encodeLoop_ok hs hc (Prod.ext hblock rfl)
      refine ⟨by rw [← h1], fun i a ha => ?_⟩
      obtain ⟨part, p1, p2⟩ := h2 i
      exact ⟨part, congrArg Prod.fst p1, p2 a ha⟩
    · simp at h
  | false =>
    simp only [hp, Bool.false_eq_true, if_false] at h ⊢
    simp only [Prod.mk.injEq] at h
    obtain ⟨hblock, rfl⟩ := h
    obtain ⟨h1, h2⟩ := encodeLoop_ok hs (Nat.zero_le _) (Prod.ext hblock rfl)
    refine ⟨by rw [← h1, ← hp], fun i a ha => ?_⟩
    obtain ⟨part, p1, p2⟩ := h2 i
    exact ⟨part, congrArg Prod.fst p1, p2 a ha⟩

theorem noSensitive_afterField {t : HpackDynamicTable} (ht : t.Wf) (hm : t.maxSize ≤ maxSizeT)
    (hno : NoSensitive t) {h : HttpHeader} (hr : ¬ (isInserted t h = true ∧ t.Refuses h)) :
    NoSensitive (afterField t h) := by
  unfold afterField
  split_ifs with hi
  · obtain ⟨t', h1, -, -, -, h5⟩ := HpackDynamicTable.insert_accepted ht hm fun h => hr ⟨hi, h⟩
    rw [h1]
    intro a ha
    rw [h5] at ha
    rcases List.mem_cons.1 (fit_subset ha) with rfl | ha
    · unfold isInserted at hi
      simpa using (Bool.and_eq_true_iff.1 hi).2
    · exact hno a ha
  · exact hno

theorem noSensitive_encodeLoop {capacity : ℕ} : ∀ (hs : List HttpHeader) {t : HpackDynamicTable}
    {dest block : Bytes}, t.Wf → t.maxSize ≤ maxSizeT → dest.length ≤ capacity →
    NoSensitive t → (encodeLoop capacity t hs dest).1 = .ok block →
    NoSensitive (encodeLoop capacity t hs dest).2 := by
  intro hs
  induction hs with
  | nil =>
    intro t dest block _ _ _ hno _
    exact hno
  | cons h hs ih =>
    intro t dest block ht hm hd hno he
    have hcase := encodeField_cases ht hm h hd
    unfold encodeLoop at he ⊢
    generalize encodeField t h dest capacity = r at hcase he
    cases hcase with
    | invalid _ => simp at he
    | tooSmall _ _ => simp at he
    | refused _ _ _ _ _ _ => simp at he
    | written _ hc hr =>
      obtain ⟨hwf, -, hm₁, -⟩ := afterField_spec ht hm hr
      exact ih hwf (by omega)
        (show (dest ++ fieldOctets t h).length ≤ capacity by simpa using hc)
        (noSensitive_afterField ht hm hno hr) he

theorem noSensitive_encode (h : e.Reachable) (hno : NoSensitive e.table)
    (he : e.encode hs capacity = (.ok block, e')) : NoSensitive e'.table := by
  obtain ⟨hwf, hm⟩ := h.wf
  unfold encode at he
  rw [writeSizeUpdate_eq] at he
  split_ifs at he with hp hc
  · simp only [Prod.mk.injEq] at he
    rw [← he.2]
    exact noSensitive_encodeLoop hs hwf hm hc hno he.1
  · simp at he
  · simp only [Prod.mk.injEq] at he
    rw [← he.2]
    exact noSensitive_encodeLoop hs hwf hm (Nat.zero_le _) hno he.1

/-- **Sensitive values stay in their own octets**: two lists that differ only in
    the values of sensitive fields leave the encoder in the same state, without
    a sensitive entry, so that all later blocks are the same; and every other field
    of the lists gets the same octets. -/
theorem encode_hides {e : HpackEncoder} (he : e.Reachable) (hno : NoSensitive e.table)
    {hs hs' : List HttpHeader} (ha : List.Forall₂ Alike hs hs') {capacity capacity' : ℕ}
    {block block' : Bytes} {e₁ e₁' : HpackEncoder}
    (h : e.encode hs capacity = (.ok block, e₁))
    (h' : e.encode hs' capacity' = (.ok block', e₁')) :
    e₁'.table = e₁.table ∧ NoSensitive e₁.table ∧
      (∀ later, blocks e₁' later = blocks e₁ later) ∧
      ∀ i a, hs[i]? = some a → isSensitiveHeaderName a.name = false →
        ∃ octets, e.Emits hs capacity i octets ∧ e.Emits hs' capacity' i octets := by
  obtain ⟨hstate, hemits⟩ := encode_ok_spec h
  obtain ⟨hstate', hemits'⟩ := encode_ok_spec h'
  have heq : e₁' = e₁ := by rw [hstate, hstate', tableAfter_alike ha]
  refine ⟨by rw [heq], noSensitive_encode he hno h, fun later => by rw [heq], fun i a hi hs => ?_⟩
  refine ⟨_, hemits i a hi, ?_⟩
  -- the other list has the same field there, behind fields that are alike
  have hlen := ha.length_eq
  obtain ⟨hlt, hget⟩ := List.getElem?_eq_some_iff.1 hi
  have halike : Alike a hs'[i] := hget ▸ List.Forall₂.get ha hlt (by omega)
  have htables := tableAfter_alike (List.forall₂_take i ha) e.table
  rw [← htables]
  exact hemits' i a (by rw [List.getElem?_eq_getElem (by omega), halike.eq hs])

def cookieRequest (secret : Bytes) : List HttpHeader :=
  [⟨text ":method", text "GET"⟩, ⟨text "Cookie", secret⟩, ⟨text "x-id", text "7"⟩]

/-- Two cookies of different lengths. -/
theorem encode_hides_cookie :
    ((initializeEncoder 4096).encode (cookieRequest (text "second")) 64).2.table =
      ((initializeEncoder 4096).encode (cookieRequest (text "first")) 64).2.table := by
  have hok : ∀ secret ∈ [text "first", text "second"], ∃ block,
      ((initializeEncoder 4096).encode (cookieRequest secret) 64).1 = .ok block := by
    have hsome : ∀ secret ∈ [text "first", text "second"],
        ((initializeEncoder 4096).encode (cookieRequest secret) 64).1.toOption.isSome = true := by
      decide +kernel
    intro secret hs
    have := hsome secret hs
    cases h : ((initializeEncoder 4096).encode (cookieRequest secret) 64).1 with
    | ok block => exact ⟨block, rfl⟩
    | error status => simp [h, Except.toOption] at this
  obtain ⟨block, h⟩ := hok (text "first") (by simp)
  obtain ⟨block', h'⟩ := hok (text "second") (by simp)
  have halike : List.Forall₂ Alike (cookieRequest (text "first")) (cookieRequest (text "second")) :=
    .cons (by decide) (.cons (by decide) (.cons (by decide) .nil))
  exact (encode_hides (e := initializeEncoder 4096) (.initial (by decide))
    (by simp [NoSensitive, initializeEncoder]) halike (Prod.ext h rfl) (Prod.ext h' rfl)).1

end HpackEncoder

end KernelHttp
