/-
  Relative references (`RemoveRedirectDotSegments`, `AppendRedirectPathAndSuffix`).

  A `Location` without a scheme and an authority is resolved as RFC 3986 says (section 5.2.2).
-/
import KernelHttp.Engine.UrlAgreement
import KernelHttp.Lib.DotSegments
import KernelHttp.Lib.Overwriting

namespace KernelHttp.Engine

open Incremental DotSegments

/-! ## Dot segments -/

/-- The output of the algorithm is empty or begins with a `/`. -/
def Rooted (output : Bytes) : Prop := output = [] ∨ output.head? = some slash

variable {output t destination location url : Bytes} {r : KhRequest} {c : UInt8} {capacity : ℕ}

theorem Rooted.append (h : Rooted output) (segment : Bytes) :
    Rooted (output ++ slash :: segment) := by
  right
  rcases h with rfl | h
  · rfl
  · rw [List.head?_append, h]
    rfl

theorem Rooted.of_prefix {output' : Bytes} (h : Rooted output) (hle : output' <+: output) :
    Rooted output' := by
  cases output' with
  | nil => exact .inl rfl
  | cons c output' =>
    obtain ⟨rest, rfl⟩ := hle
    rcases h with h | h
    · cases h
    · exact .inr h

theorem removePrevious_append (h : Rooted output) :
    removePreviousRedirectPathSegment (output ++ [slash]) = removeLast slash output ++ [slash] := by
  rw [removePreviousRedirectPathSegment, if_neg (by simp)]
  dsimp only
  cases output with
  | nil => rfl
  | cons c output =>
    obtain rfl : c = slash := by simpa [Rooted] using h
    have hlast : (slash :: output ++ [slash]).length > 1 ∧
        (slash :: output ++ [slash]).getLast? = some slash :=
      ⟨by simp, List.getLast?_concat⟩
    rw [if_pos hlast, List.dropLast_concat, removeLast_append List.mem_cons_self]
    have hne : (slash :: output).rdropWhile (· ≠ slash) ≠ [] := by
      rw [← removeLast_append List.mem_cons_self]
      exact List.append_ne_nil_of_right_ne_nil _ (List.cons_ne_nil _ _)
    split
    · case h_1 heq => exact absurd heq hne
    · rfl

theorem skipSlash_eq_tail {behind : Bytes} (h : Ends slash behind) :
    skipSlash behind = behind.tail := by
  obtain rfl | ⟨rest, rfl⟩ := h
  · rfl
  · rfl

/-- The loop, from where a `/` has been written: the output of the algorithm is what stands in
front of it. -/
theorem removeDotSegmentsLoop_eq : ∀ (n : ℕ) (rest output : Bytes), rest.length ≤ n →
    Rooted output → removeDotSegmentsLoop (output ++ [slash]) rest =
      removeFrom slash Tls.dot output (slash :: rest) := by
  have hne : Tls.dot ≠ slash := by decide
  intro n
  induction n with
  | zero =>
    intro rest output hlength _
    obtain rfl := List.eq_nil_of_length_eq_zero (Nat.le_zero.1 hlength)
    rw [removeDotSegmentsLoop, removeFrom_slash hne]
  | succ n ih =>
    intro rest output hlength houtput
    cases rest with
    | nil => rw [removeDotSegmentsLoop, removeFrom_slash hne]
    | cons c rest =>
      rw [List.length_cons, Nat.succ_le_succ_iff] at hlength
      rw [removeDotSegmentsLoop]
      by_cases hc : c = slash
      · obtain rfl := hc
        have hstep := removeFrom_segment hne output (List.not_mem_nil (a := slash))
          (.inr ⟨rest, rfl⟩)
        rw [List.nil_append, if_neg (by simp), if_neg (by simp)] at hstep
        rw [if_pos rfl, hstep]
        exact ih rest _ hlength (houtput.append [])
      · have hsegment : slash ∉ c :: rest.takeWhile (· ≠ slash) := by
          rw [List.mem_cons, not_or]
          refine ⟨fun h => hc h.symm, fun h => ?_⟩
          have hmem := List.mem_takeWhile_imp h
          exact of_decide_eq_true hmem rfl
        have hends := ends_dropWhile slash rest
        have hsplit : c :: rest =
            c :: rest.takeWhile (· ≠ slash) ++ rest.dropWhile (· ≠ slash) := by
          rw [List.cons_append, List.takeWhile_append_dropWhile]
        have hshort := (List.dropWhile_suffix (· ≠ slash) (l := rest)).length_le.trans hlength
        have hdot : text "." = [Tls.dot] := rfl
        have hdots : text ".." = [Tls.dot, Tls.dot] := rfl
        rw [if_neg hc]
        conv_rhs => rw [hsplit, removeFrom_segment hne output hsegment hends]
        dsimp only
        rw [hdot, hdots]
        generalize rest.dropWhile (· ≠ slash) = behind at hends hshort ⊢
        rw [skipSlash_eq_tail hends]
        have htail : behind.tail.length ≤ n := by
          rw [List.length_tail]
          omega
        split_ifs
        · exact ih _ output htail houtput
        · rw [removePrevious_append houtput]
          exact ih _ _ htail (houtput.of_prefix (removeLast_isPrefix output))
        · rw [List.append_assoc, List.singleton_append]
          obtain rfl | ⟨rest', rfl⟩ := hends
          · rw [removeDotSegmentsLoop, removeFrom]
          · rw [removeDotSegmentsLoop, if_pos rfl]
            exact ih rest' _ htail (houtput.append _)

theorem removePrevious_head? {path : Bytes} (h : path.head? = some slash) :
    (removePreviousRedirectPathSegment path).head? = some slash := by
  have hne : path ≠ [] := by
    rintro rfl
    cases h
  rw [removePreviousRedirectPathSegment, if_neg hne]
  dsimp only
  split
  · rfl
  · case h_2 hsome =>
    have hprefix : List.rdropWhile (· ≠ slash)
        (if path.length > 1 ∧ path.getLast? = some slash then path.dropLast else path) <+:
          path := by
      refine (List.rdropWhile_prefix _ _).trans ?_
      split
      · exact List.dropLast_prefix path
      · exact List.prefix_rfl
    exact (Rooted.of_prefix (.inr h) hprefix).resolve_left hsome

theorem removeDotSegmentsLoop_head? (path rest : Bytes) (h : path.head? = some slash) :
    (removeDotSegmentsLoop path rest).head? = some slash := by
  have happend : ∀ {path : Bytes} (behind : Bytes), path.head? = some slash →
      (path ++ behind).head? = some slash := by
    intro path behind h
    rw [List.head?_append, h]
    rfl
  induction path, rest using removeDotSegmentsLoop.induct with
  | case1 path =>
    rw [removeDotSegmentsLoop]
    exact h
  | case2 path rest ih =>
    rw [removeDotSegmentsLoop, if_pos rfl]
    exact ih (happend _ h)
  | case3 path c rest hc segment behind hdot ih =>
    rw [removeDotSegmentsLoop, if_neg hc, if_pos hdot]
    exact ih h
  | case4 path c rest hc segment behind hdot hdots ih =>
    rw [removeDotSegmentsLoop, if_neg hc, if_neg hdot, if_pos hdots]
    exact ih (removePrevious_head? h)
  | case5 path c rest hc segment behind hdot hdots ih =>
    rw [removeDotSegmentsLoop, if_neg hc, if_neg hdot, if_neg hdots]
    exact ih (happend _ h)

/-- **The segments that are removed from a path are those of the RFC.** -/
theorem removeRedirectDotSegments_eq (path : Bytes) (h : path.head? = some slash) :
    removeRedirectDotSegments path = remove slash Tls.dot path := by
  obtain ⟨rest, rfl⟩ := List.head?_eq_some_iff.1 h
  have hloop := removeDotSegmentsLoop_eq rest.length rest [] le_rfl (.inl rfl)
  have hhead := removeDotSegmentsLoop_head? [slash] rest rfl
  rw [removeRedirectDotSegments, if_neg (List.cons_ne_nil _ _), removeDotSegmentsLoop,
    if_pos rfl, remove, ← hloop]
  split
  · case h_1 heq =>
    have hnil : removeDotSegmentsLoop [slash] rest = [] := heq
    rw [hnil] at hhead
    cases hhead
  · rfl

theorem remove_head? {path : Bytes} (h : path.head? = some slash) :
    (remove slash Tls.dot path).head? = some slash := by
  obtain ⟨rest, rfl⟩ := List.head?_eq_some_iff.1 h
  have hloop := removeDotSegmentsLoop_eq rest.length rest [] le_rfl (.inl rfl)
  rw [remove, ← hloop]
  exact removeDotSegmentsLoop_head? _ rest rfl

/-! ## In place -/

/-- Octets that were written from `first` on, while those from `unread` on were still to be
read. -/
structure PathWrite where
  first : ℕ
  count : ℕ
  unread : ℕ

/-- The cursors of `RemoveRedirectDotSegments`, with the memory of the path, and with the writes
as a history that nothing reads. -/
structure PathCursors where
  path : ℕ → UInt8
  read : ℕ
  write : ℕ
  writes : List PathWrite := []

/-- Octets are written behind those that were written before. -/
def PathCursors.put (s : PathCursors) (data : Bytes) : PathCursors :=
  { s with
    path := Overwriting.write s.path s.write data
    write := s.write + data.length
    writes := s.writes ++ [⟨s.write, data.length, s.read⟩] }

/-- The loop back to a `/`. -/
def backToSlash (path : ℕ → UInt8) : ℕ → ℕ
  | 0 => 0
  | stop + 1 => if path stop = slash then stop + 1 else backToSlash path stop

/-- `RemovePreviousRedirectPathSegment`, in place. -/
def removePreviousInPlace (s : PathCursors) : PathCursors :=
  if s.write = 0 then s
  else
    let stop := if s.write > 1 ∧ s.path (s.write - 1) = slash then s.write - 1 else s.write
    let s := { s with write := backToSlash s.path stop }
    if s.write = 0 then s.put [slash] else s

def segmentEnd (path : ℕ → UInt8) : (left read : ℕ) → ℕ
  | 0, read => read
  | left + 1, read => if path read = slash then read else segmentEnd path left (read + 1)

/-- The `/` behind a dot segment. -/
def skipSlashInPlace (inputLength : ℕ) (s : PathCursors) : PathCursors :=
  if s.read < inputLength ∧ s.path s.read = slash then { s with read := s.read + 1 } else s

theorem le_segmentEnd (path : ℕ → UInt8) (left read : ℕ) : read ≤ segmentEnd path left read := by
  induction left generalizing read with
  | zero => exact le_rfl
  | succ left ih =>
    rw [segmentEnd]
    split
    · exact le_rfl
    · exact (Nat.le_succ read).trans (ih _)

theorem lt_segmentEnd {path : ℕ → UInt8} {left read : ℕ} (hleft : 0 < left)
    (h : path read ≠ slash) : read < segmentEnd path left read := by
  obtain ⟨left, rfl⟩ := Nat.exists_eq_succ_of_ne_zero hleft.ne'
  rw [segmentEnd, if_neg h]
  exact le_segmentEnd path left (read + 1)

@[simp] theorem removePreviousInPlace_read (s : PathCursors) :
    (removePreviousInPlace s).read = s.read := by
  rw [removePreviousInPlace]
  dsimp only
  split_ifs <;> rfl

theorem le_skipSlashInPlace (inputLength : ℕ) (s : PathCursors) :
    s.read ≤ (skipSlashInPlace inputLength s).read := by
  rw [skipSlashInPlace]
  split
  · exact Nat.le_succ _
  · exact le_rfl

/-- The loop of `RemoveRedirectDotSegments`, in place. -/
def removeInPlaceFrom (inputLength : ℕ) (s : PathCursors) : PathCursors :=
  if _h : s.read < inputLength then
    if _hslash : s.path s.read = slash then
      removeInPlaceFrom inputLength ({ s with read := s.read + 1 }.put [s.path s.read])
    else
      let stop := segmentEnd s.path (inputLength - s.read) s.read
      let segment := Overwriting.read s.path s.read (stop - s.read)
      let behind := { s with read := stop }
      if segment = text "." then removeInPlaceFrom inputLength (skipSlashInPlace inputLength behind)
      else if segment = text ".." then
        removeInPlaceFrom inputLength (skipSlashInPlace inputLength (removePreviousInPlace behind))
      else if s.write ≠ s.read then removeInPlaceFrom inputLength (behind.put segment)
      else removeInPlaceFrom inputLength { behind with write := s.write + segment.length }
  else s
termination_by inputLength - s.read
decreasing_by
  · exact Nat.sub_lt_sub_left _h (Nat.lt_succ_self _)
  · have hstop := lt_segmentEnd (Nat.sub_pos_of_lt _h) _hslash
    exact Nat.sub_lt_sub_left _h
      (hstop.trans_le (le_skipSlashInPlace inputLength { s with read := _ }))
  · have hstop := lt_segmentEnd (Nat.sub_pos_of_lt _h) _hslash
    refine Nat.sub_lt_sub_left _h (hstop.trans_le ((le_skipSlashInPlace inputLength _).trans' ?_))
    rw [removePreviousInPlace_read]
  · exact Nat.sub_lt_sub_left _h (lt_segmentEnd (Nat.sub_pos_of_lt _h) _hslash)
  · exact Nat.sub_lt_sub_left _h (lt_segmentEnd (Nat.sub_pos_of_lt _h) _hslash)

/-- `RemoveRedirectDotSegments`, in place. -/
def removeInPlace (path : ℕ → UInt8) (pathLength : ℕ) : PathCursors :=
  if pathLength = 0 then { path, read := 0, write := 0 }
  else
    let s := removeInPlaceFrom pathLength { path, read := 0, write := 0 }
    if s.write = 0 then s.put [slash] else s

/-- The memory holds what was written in front of what is unread, and no write has touched what
was unread then. -/
structure PathCursors.Represents (inputLength : ℕ) (s : PathCursors) (written rest : Bytes) :
    Prop where
  written : Overwriting.read s.path 0 s.write = written
  rest : Overwriting.read s.path s.read (inputLength - s.read) = rest
  write_le : s.write ≤ s.read
  read_le : s.read ≤ inputLength
  writes : ∀ w ∈ s.writes, w.first + w.count ≤ w.unread

variable {inputLength : ℕ} {s : PathCursors} {written rest : Bytes}

theorem PathCursors.Represents.put (h : s.Represents inputLength written rest) (data : Bytes)
    (hroom : s.write + data.length ≤ s.read) :
    (s.put data).Represents inputLength (written ++ data) rest where
  written := by
    rw [PathCursors.put, Overwriting.read_add, Nat.zero_add, Overwriting.read_write_self,
      Overwriting.read_write_of_apart (.inr (Nat.zero_add _).le), h.written]
  rest := (Overwriting.read_write_of_apart (.inl hroom)).trans h.rest
  write_le := hroom
  read_le := h.read_le
  writes := by
    intro w hw
    rcases List.mem_append.1 hw with hw | hw
    · exact h.writes w hw
    · rw [List.mem_singleton.1 hw]
      exact hroom

theorem read_succ (path : ℕ → UInt8) (i n : ℕ) :
    Overwriting.read path i (n + 1) = path i :: Overwriting.read path (i + 1) n := by
  rw [Nat.add_comm, Overwriting.read_add]
  rfl

theorem read_concat (path : ℕ → UInt8) (n : ℕ) :
    Overwriting.read path 0 (n + 1) = Overwriting.read path 0 n ++ [path n] := by
  rw [Overwriting.read_add, Nat.zero_add]
  rfl

theorem backToSlash_spec (path : ℕ → UInt8) (stop : ℕ) : backToSlash path stop ≤ stop ∧
    Overwriting.read path 0 (backToSlash path stop) =
      (Overwriting.read path 0 stop).rdropWhile (· ≠ slash) := by
  induction stop with
  | zero => exact ⟨le_rfl, rfl⟩
  | succ stop ih =>
    rw [backToSlash, read_concat]
    split
    · case isTrue hslash =>
      rw [List.rdropWhile_concat_neg _ _ _ (by simp [hslash])]
      exact ⟨le_rfl, read_concat path stop⟩
    · case isFalse hslash =>
      rw [List.rdropWhile_concat_pos _ _ _ (by simp [hslash])]
      exact ⟨ih.1.trans (Nat.le_succ stop), ih.2⟩

theorem segmentEnd_spec (path : ℕ → UInt8) (left read : ℕ) :
    segmentEnd path left read =
      read + ((Overwriting.read path read left).takeWhile (· ≠ slash)).length := by
  induction left generalizing read with
  | zero => rfl
  | succ left ih =>
    rw [segmentEnd, read_succ]
    split
    · case isTrue hslash => rw [List.takeWhile_cons_of_neg (by simp [hslash])]; rfl
    · case isFalse hslash =>
      rw [List.takeWhile_cons_of_pos (by simp [hslash]), ih, List.length_cons]
      omega

theorem read_stop (path : ℕ → UInt8) {write : ℕ} (h : write ≠ 0) :
    Overwriting.read path 0
        (if write > 1 ∧ path (write - 1) = slash then write - 1 else write) =
      if (Overwriting.read path 0 write).length > 1 ∧
          (Overwriting.read path 0 write).getLast? = some slash then
        (Overwriting.read path 0 write).dropLast else Overwriting.read path 0 write := by
  obtain ⟨write, rfl⟩ := Nat.exists_eq_succ_of_ne_zero h
  have hlast : (Overwriting.read path 0 (write + 1)).getLast? = some slash ↔
      path write = slash := by
    rw [read_concat, List.getLast?_concat, Option.some.injEq]
  have hinit : (Overwriting.read path 0 (write + 1)).dropLast =
      Overwriting.read path 0 write := by
    rw [read_concat, List.dropLast_concat]
  simp only [Nat.succ_eq_add_one, Overwriting.length_read, Nat.add_sub_cancel, hlast, hinit]
  split_ifs <;> rfl

theorem PathCursors.Represents.previous (h : s.Represents inputLength written rest) :
    (removePreviousInPlace s).Represents inputLength (removePreviousRedirectPathSegment written)
      rest := by
  rw [removePreviousInPlace, removePreviousRedirectPathSegment, ← h.written]
  by_cases hzero : s.write = 0
  · rw [if_pos hzero, if_pos (by rw [hzero]; rfl)]
    refine ⟨?_, h.rest, h.write_le, h.read_le, h.writes⟩
    rw [hzero]
    rfl
  · have hne : Overwriting.read s.path 0 s.write ≠ [] := by
      rw [← List.length_pos_iff, Overwriting.length_read]
      exact Nat.pos_of_ne_zero hzero
    rw [if_neg hzero, if_neg hne, ← read_stop s.path hzero]
    dsimp only
    set stop := if s.write > 1 ∧ s.path (s.write - 1) = slash then s.write - 1 else s.write
    have hstop : stop ≤ s.write := by
      rw [show stop = if _ then _ else _ from rfl]
      split_ifs
      · exact Nat.sub_le _ _
      · exact le_rfl
    obtain ⟨hle, hback⟩ := backToSlash_spec s.path stop
    rw [← hback]
    have hshorter : PathCursors.Represents inputLength { s with write := backToSlash s.path stop }
        (Overwriting.read s.path 0 (backToSlash s.path stop)) rest :=
      ⟨rfl, h.rest, hle.trans (hstop.trans h.write_le), h.read_le, h.writes⟩
    split_ifs with hnone
    · rw [hnone] at hshorter ⊢
      exact hshorter.put [slash] ((Nat.pos_of_ne_zero hzero).trans_le h.write_le)
    · split
      · case h_1 heq =>
        rw [← List.length_eq_zero_iff, Overwriting.length_read] at heq
        exact absurd heq hnone
      · exact hshorter

theorem PathCursors.Represents.skip (h : s.Represents inputLength written rest) :
    (skipSlashInPlace inputLength s).Represents inputLength written (skipSlash rest) := by
  rw [skipSlashInPlace]
  by_cases hlt : s.read < inputLength
  · obtain ⟨left, hleft⟩ := Nat.exists_eq_add_of_lt hlt
    have hrest : rest = s.path s.read :: Overwriting.read s.path (s.read + 1) left := by
      rw [← h.rest, ← read_succ]
      congr 1
      omega
    by_cases hslash : s.path s.read = slash
    · rw [if_pos ⟨hlt, hslash⟩, hrest, hslash]
      refine ⟨h.written, ?_, h.write_le.trans (Nat.le_succ _), hlt, h.writes⟩
      rw [show inputLength - (s.read + 1) = left by omega]
      rfl
    · rw [if_neg fun hboth => hslash hboth.2]
      have hskip : skipSlash rest = rest := by
        rw [hrest]
        exact skipSlash.eq_2 _ fun _ heq => hslash (List.cons.inj heq).1
      rw [hskip]
      exact h
  · rw [if_neg fun hboth => hlt hboth.1]
    have hnil : rest = [] := by
      rw [← h.rest, Nat.sub_eq_zero_of_le (not_lt.1 hlt)]
      rfl
    rw [hnil] at h ⊢
    exact h

theorem PathCursors.Represents.segment (h : s.Represents inputLength written rest) :
    Overwriting.read s.path s.read
        (segmentEnd s.path (inputLength - s.read) s.read - s.read) = rest.takeWhile (· ≠ slash) ∧
      PathCursors.Represents inputLength
        { s with read := segmentEnd s.path (inputLength - s.read) s.read } written
        (rest.dropWhile (· ≠ slash)) := by
  have hlength : rest.length = inputLength - s.read := by
    rw [← h.rest, Overwriting.length_read]
  have hstop := segmentEnd_spec s.path (inputLength - s.read) s.read
  rw [h.rest] at hstop
  have hsplit : (rest.takeWhile (· ≠ slash)).length + (rest.dropWhile (· ≠ slash)).length =
      inputLength - s.read := by
    rw [← hlength, ← List.length_append, List.takeWhile_append_dropWhile]
  have hrest : Overwriting.read s.path s.read (rest.takeWhile (· ≠ slash)).length ++
      Overwriting.read s.path (s.read + (rest.takeWhile (· ≠ slash)).length)
        (rest.dropWhile (· ≠ slash)).length =
      rest.takeWhile (· ≠ slash) ++ rest.dropWhile (· ≠ slash) := by
    rw [← Overwriting.read_add, hsplit, h.rest, List.takeWhile_append_dropWhile]
  obtain ⟨hsegment, hbehind⟩ := List.append_inj hrest Overwriting.length_read
  have hread := h.read_le
  rw [hstop, Nat.add_sub_cancel_left]
  refine ⟨hsegment, h.written, ?_, h.write_le.trans (Nat.le_add_right _ _), ?_, h.writes⟩
  · rw [← hbehind]
    congr 1
    dsimp only
    omega
  · dsimp only
    omega

/-- **The loop in place does what the loop does.** -/
theorem removeInPlaceFrom_represents (h : s.Represents inputLength written rest) :
    (removeInPlaceFrom inputLength s).Represents inputLength (removeDotSegmentsLoop written rest)
      [] := by
  induction hn : inputLength - s.read using Nat.strong_induction_on generalizing s written rest with
  | _ n ih =>
    subst hn
    rw [removeInPlaceFrom]
    by_cases hlt : s.read < inputLength
    · rw [dif_pos hlt]
      obtain ⟨left, hleft⟩ := Nat.exists_eq_add_of_lt hlt
      have hrest : rest = s.path s.read :: Overwriting.read s.path (s.read + 1) left := by
        rw [← h.rest, show inputLength - s.read = left + 1 by omega, read_succ]
      by_cases hslash : s.path s.read = slash
      · have hnext : PathCursors.Represents inputLength { s with read := s.read + 1 } written
            (Overwriting.read s.path (s.read + 1) left) :=
          ⟨h.written, by rw [show inputLength - (s.read + 1) = left by omega],
            h.write_le.trans (Nat.le_succ _), hlt, h.writes⟩
        rw [dif_pos hslash, hrest, hslash, removeDotSegmentsLoop, if_pos rfl]
        exact ih _ (Nat.sub_lt_sub_left hlt (Nat.lt_succ_self _))
          (hnext.put [slash] (Nat.succ_le_succ h.write_le)) rfl
      · obtain ⟨hsegment, hbehind⟩ := h.segment
        have hstop := lt_segmentEnd (Nat.sub_pos_of_lt hlt) hslash
        rw [dif_neg hslash]
        dsimp only
        rw [hsegment, hrest, List.takeWhile_cons_of_pos (by simp [hslash]), removeDotSegmentsLoop,
          if_neg hslash]
        rw [hrest, List.dropWhile_cons_of_pos (by simp [hslash])] at hbehind
        rw [hrest, List.takeWhile_cons_of_pos (by simp [hslash])] at hsegment
        generalize Overwriting.read s.path (s.read + 1) left = rest at *
        have hcount : segmentEnd s.path (inputLength - s.read) s.read - s.read =
            (s.path s.read :: rest.takeWhile (· ≠ slash)).length := by
          rw [← hsegment, Overwriting.length_read]
        have hroom : s.write + (s.path s.read :: rest.takeWhile (· ≠ slash)).length ≤
            segmentEnd s.path (inputLength - s.read) s.read := by
          have := h.write_le
          omega
        dsimp only
        split_ifs with hdot hdots hmove
        · exact ih _ (Nat.sub_lt_sub_left hlt
            (hstop.trans_le (le_skipSlashInPlace _ { s with read := _ }))) hbehind.skip rfl
        · refine ih _ (Nat.sub_lt_sub_left hlt (hstop.trans_le ?_)) hbehind.previous.skip rfl
          refine (le_skipSlashInPlace _ _).trans' ?_
          rw [removePreviousInPlace_read]
        · exact ih _ (Nat.sub_lt_sub_left hlt hstop) (hbehind.put _ hroom) rfl
        · refine ih _ (Nat.sub_lt_sub_left hlt hstop) ⟨?_, hbehind.rest, hroom, hbehind.read_le,
            hbehind.writes⟩ rfl
          rw [Overwriting.read_add, Nat.zero_add, h.written, not_not.1 hmove, ← hcount, hsegment]
    · rw [dif_neg hlt]
      have hnil : rest = [] := by
        rw [← h.rest, Nat.sub_eq_zero_of_le (not_lt.1 hlt)]
        rfl
      rw [hnil] at h ⊢
      rw [removeDotSegmentsLoop]
      exact h

/-- **In place, the path becomes the one without its dot segments, and no octet is written over
one that is still to be read.** -/
theorem removeInPlace_spec (path : ℕ → UInt8) (pathLength : ℕ) :
    Overwriting.read (removeInPlace path pathLength).path 0 (removeInPlace path pathLength).write =
        removeRedirectDotSegments (Overwriting.read path 0 pathLength) ∧
      ∀ w ∈ (removeInPlace path pathLength).writes, w.first + w.count ≤ w.unread := by
  rw [removeInPlace, removeRedirectDotSegments]
  by_cases hzero : pathLength = 0
  · obtain rfl := hzero
    exact ⟨rfl, nofun⟩
  · have hne : Overwriting.read path 0 pathLength ≠ [] := by
      rw [← List.length_pos_iff, Overwriting.length_read]
      exact Nat.pos_of_ne_zero hzero
    have hstart : PathCursors.Represents pathLength { path, read := 0, write := 0 } []
        (Overwriting.read path 0 pathLength) :=
      ⟨rfl, rfl, le_rfl, Nat.zero_le _, nofun⟩
    have hloop := removeInPlaceFrom_represents hstart
    rw [if_neg hzero, if_neg hne]
    dsimp only
    generalize removeInPlaceFrom pathLength { path, read := 0, write := 0 } = s at hloop ⊢
    have hread : s.read = pathLength := by
      have hrest := congrArg List.length hloop.rest
      rw [Overwriting.length_read, List.length_nil] at hrest
      exact le_antisymm hloop.read_le (Nat.le_of_sub_eq_zero hrest)
    split_ifs with hnone
    · have hempty : removeDotSegmentsLoop [] (Overwriting.read path 0 pathLength) = [] := by
        rw [← hloop.written, hnone]
        rfl
      have hput := hloop.put [slash] (by
        rw [hnone, hread]
        exact Nat.pos_of_ne_zero hzero)
      rw [hempty] at hput ⊢
      exact ⟨hput.written, hput.writes⟩
    · split
      · case h_1 heq =>
        rw [← hloop.written, ← List.length_eq_zero_iff, Overwriting.length_read] at heq
        exact absurd heq hnone
      · exact ⟨hloop.written, hloop.writes⟩

/-! ## Relative references -/

def component (delimiter : UInt8) (t : Bytes) : Option Bytes :=
  match t.dropWhile (· ≠ delimiter) with
  | [] => none
  | _ :: rest => some rest

/-- A reference without a scheme and an authority (RFC 3986, section 4.2). -/
structure RelativeReference where
  path : Bytes
  query : Option Bytes
  fragment : Option Bytes

namespace RelativeReference

def parse (t : Bytes) : RelativeReference where
  path := (t.takeWhile (· ≠ hash)).takeWhile (· ≠ question)
  query := component question (t.takeWhile (· ≠ hash))
  fragment := component hash t

/-- The text of a reference (section 5.3). -/
def recompose (reference : RelativeReference) : Bytes :=
  reference.path ++ reference.query.elim [] (question :: ·) ++
    reference.fragment.elim [] (hash :: ·)

/-- The path of the base without its last segment, with the path of the reference
(section 5.2.3). -/
def merge (basePath path : Bytes) : Bytes := basePath.rdropWhile (· ≠ slash) ++ path

/-- The path that a reference refers to, with dot segments. -/
def target (base reference : RelativeReference) : Bytes :=
  if reference.path = [] then base.path
  else if reference.path.head? = some slash then reference.path
  else merge base.path reference.path

/-- What a reference refers to (section 5.2.2).  A redirect hands down the fragment. -/
def resolve (base reference : RelativeReference) : RelativeReference where
  path := remove slash Tls.dot (target base reference)
  query := if reference.path = [] ∧ reference.query = none then base.query else reference.query
  fragment := reference.fragment.or base.fragment

end RelativeReference

/-- The scheme and the authority of a request. -/
def KhRequest.origin (r : KhRequest) : Bytes :=
  r.scheme ++ text "://" ++ (authorityHost r.host ++ portSuffix (portText false r.urlParts))

/-- The base that a `Location` is resolved against. -/
def KhRequest.base (r : KhRequest) : RelativeReference where
  path := r.path.takeWhile (· ≠ question)
  query := component question r.path
  fragment := component hash r.url

/-- A text with a scheme (section 3.1): a letter, then letters, digits, `+`, `-` and `.`, and a
colon. -/
def HasScheme (t : Bytes) : Prop :=
  ∃ first scheme rest, t = first :: scheme ++ colon :: rest ∧ isUriSchemeChar first true = true ∧
    ∀ c ∈ scheme, isUriSchemeChar c false = true

theorem component_eq (delimiter : UInt8) (t : Bytes) :
    (component delimiter t).elim [] (delimiter :: ·) = t.dropWhile (· ≠ delimiter) := by
  rw [component]
  obtain h | ⟨rest, h⟩ := ends_dropWhile delimiter t
  · rw [h]
    rfl
  · rw [h]
    rfl

theorem component_eq_none_iff (delimiter : UInt8) (t : Bytes) :
    component delimiter t = none ↔ t.dropWhile (· ≠ delimiter) = [] := by
  rw [component]
  cases t.dropWhile (· ≠ delimiter) with
  | nil => simp
  | cons c rest => simp

theorem hasScheme_of_hasUriScheme (h : hasUriScheme t = true) : HasScheme t := by
  cases t with
  | nil => cases h
  | cons first rest =>
    simp only [hasUriScheme, Bool.and_eq_true, beq_iff_eq, List.all_eq_true] at h
    obtain ⟨⟨⟨-, hcolon⟩, hfirst⟩, hscheme⟩ := h
    generalize hs : rest.takeWhile (fun c => !(c == colon || c == slash || c == question ||
      c == hash)) = scheme at hcolon hscheme
    obtain ⟨behind, rfl⟩ : scheme <+: rest := hs ▸ List.takeWhile_prefix _
    rw [List.drop_left] at hcolon
    obtain ⟨rest', rfl⟩ := List.head?_eq_some_iff.1 hcolon
    exact ⟨first, scheme, rest', rfl, hfirst, hscheme⟩

theorem toLowerAscii_kinds (c : UInt8) : (toLowerAscii c = colon → c = colon) ∧
    (97 ≤ (toLowerAscii c).toNat ∧ (toLowerAscii c).toNat ≤ 122 →
      ∀ first, isUriSchemeChar c first = true) := by
  revert c
  decide +kernel

theorem eq_colon_of_toLowerAscii (h : toLowerAscii c = colon) : c = colon :=
  (toLowerAscii_kinds c).1 h

theorem isUriSchemeChar_of_toLowerAscii {d : UInt8} (hd : 97 ≤ d.toNat ∧ d.toNat ≤ 122)
    (h : toLowerAscii c = d) (first : Bool) : isUriSchemeChar c first = true := by
  subst h
  exact (toLowerAscii_kinds c).2 hd first

theorem hasScheme_of_startsWith (scheme : Bytes)
    (h : startsWithLiteralIgnoreCase t (scheme ++ text "://") = true) (hne : scheme ≠ [])
    (hlower : scheme.map toLowerAscii = scheme)
    (hscheme : ∀ d ∈ scheme, 97 ≤ d.toNat ∧ d.toNat ≤ 122) : HasScheme t := by
  rw [startsWithLiteralIgnoreCase, Bool.and_eq_true, textEqualsIgnoreCase_iff, List.map_append,
    hlower] at h
  obtain ⟨name, behind, htake, hname, hbehind⟩ := List.map_eq_append_iff.1 h.2
  obtain ⟨c, rest, rfl, hc, -⟩ := List.map_eq_cons_iff.1 hbehind
  have hoctets : ∀ c ∈ name, ∀ first, isUriSchemeChar c first = true := by
    intro c hc
    have hmem : toLowerAscii c ∈ scheme := hname ▸ List.mem_map_of_mem hc
    exact isUriSchemeChar_of_toLowerAscii (hscheme _ hmem) rfl
  cases name with
  | nil => exact absurd hname.symm hne
  | cons first name =>
    refine ⟨first, name, rest ++ t.drop (scheme ++ text "://").length, ?_,
      hoctets first List.mem_cons_self true,
      fun c hc => hoctets c (List.mem_cons_of_mem _ hc) false⟩
    conv_lhs => rw [← List.take_append_drop (scheme ++ text "://").length t, htake]
    rw [eq_colon_of_toLowerAscii hc, List.append_assoc, List.cons_append]
    rfl

theorem hasScheme_of_isAbsolute (h : isAbsoluteHttpLocation t = true) :
    HasScheme t := by
  rcases Bool.or_eq_true_iff.1 h with h | h
  · exact hasScheme_of_startsWith (text "http") h (by decide) (by decide)
      (by decide +kernel)
  · exact hasScheme_of_startsWith (text "https") h (by decide) (by decide)
      (by decide +kernel)

/-! ## The URL of a relative reference -/

theorem bind_eq_ok_iff {α β : Type} {x : Except NTSTATUS α} {f : α → Except NTSTATUS β} {b : β} :
    (x >>= f) = .ok b ↔ ∃ a, x = .ok a ∧ f a = .ok b := by
  refine ⟨bind_eq_ok, ?_⟩
  rintro ⟨a, ha, hb⟩
  rw [bind_of_ok ha, hb]

theorem appendRedirectText_eq_ok {result : Bytes} (h : destination.length ≤ capacity) :
    appendRedirectText capacity destination t = .ok result ↔
      result = destination ++ t ∧ (destination ++ t).length ≤ capacity := by
  rw [appendRedirectText, List.length_append]
  split_ifs with hlong
  · refine ⟨nofun, fun hfits => ?_⟩
    omega
  · rw [Except.ok.injEq]
    constructor
    · rintro rfl
      exact ⟨rfl, by omega⟩
    · exact fun hfits => hfits.1.symm

theorem buildHostHeaderValue_eq_ok {value : Bytes} (hhost : r.host ≠ []) :
    buildHostHeaderValue r capacity = .ok value ↔
      value = authorityHost r.host ++ portSuffix (portText false r.urlParts) ∧
        (authorityHost r.host ++ portSuffix (portText false r.urlParts)).length < capacity := by
  have hfits : buildHostHeaderValue r capacity =
      if (authorityHost r.host ++ portSuffix (portText false r.urlParts)).length < capacity then
        .ok (authorityHost r.host ++ portSuffix (portText false r.urlParts))
      else .error (if capacity = 0 then statusInvalidParameter else statusBufferTooSmall) := by
    have hauthority : (if colon ∈ r.host then openBracket :: r.host ++ [closeBracket]
        else r.host) = authorityHost r.host := rfl
    have hport : portSuffix (portText false r.urlParts) =
        if isDefaultPort r.scheme r.port then [] else
          colon :: Http1.BufferWriter.decimalDigits r.port
            (Http1.BufferWriter.decimalDivisor r.port 1) := by
      rw [portText]
      by_cases hdefault : isDefaultPort r.scheme r.port = true
      · rw [if_pos hdefault, if_pos ⟨rfl, hdefault⟩, portSuffix]
      · rw [if_neg hdefault, if_neg fun h => hdefault h.2]
        rfl
    rw [buildHostHeaderValue, hport]
    dsimp only
    rw [hauthority]
    by_cases hzero : capacity = 0
    · rw [if_pos (.inl hzero), if_pos hzero, if_neg (by omega)]
    · rw [if_neg (by simp [hzero, hhost]), if_neg hzero]
      split_ifs <;> simp_all <;> omega
  rw [hfits]
  split_ifs <;> simp_all [eq_comm]

theorem appendRedirectOrigin_eq_ok {origin : Bytes} (hhost : r.host ≠ []) :
    appendRedirectOrigin capacity r = .ok origin ↔
      origin = r.origin ∧ r.origin.length < capacity := by
  have hlength : r.origin.length = (r.scheme ++ text "://").length +
      (authorityHost r.host ++ portSuffix (portText false r.urlParts)).length :=
    List.length_append
  have hprefix : r.scheme.length ≤ (r.scheme ++ text "://").length :=
    (List.prefix_append _ _).length_le
  rw [appendRedirectOrigin, hlength]
  constructor
  · intro h
    obtain ⟨destination, hscheme, h⟩ := bind_eq_ok h
    obtain ⟨rfl, hle⟩ := (appendRedirectText_eq_ok (Nat.zero_le _)).1 hscheme
    obtain ⟨destination, hslashes, h⟩ := bind_eq_ok h
    obtain ⟨rfl, hle'⟩ := (appendRedirectText_eq_ok hle).1 hslashes
    obtain ⟨authority, hauthority, h⟩ := bind_eq_ok h
    obtain ⟨rfl, hlt⟩ := (buildHostHeaderValue_eq_ok hhost).1 hauthority
    obtain rfl := Except.ok.inj h
    rw [List.nil_append] at hlt hle' ⊢
    exact ⟨rfl, by omega⟩
  · rintro ⟨rfl, hlt⟩
    have hscheme : r.scheme.length ≤ capacity := by omega
    rw [bind_of_ok ((appendRedirectText_eq_ok (Nat.zero_le _)).2 ⟨rfl, hscheme⟩),
      List.nil_append, bind_of_ok ((appendRedirectText_eq_ok hscheme).2 ⟨rfl, by omega⟩),
      bind_of_ok ((buildHostHeaderValue_eq_ok hhost).2 ⟨rfl, by omega⟩)]
    rfl

theorem removePrevious_ne_nil {path : Bytes} (h : path ≠ []) :
    removePreviousRedirectPathSegment path ≠ [] := by
  rw [removePreviousRedirectPathSegment, if_neg h]
  dsimp only
  split
  · exact List.cons_ne_nil _ _
  · assumption

theorem removePrevious_length {path : Bytes} (h : path ≠ []) :
    (removePreviousRedirectPathSegment path).length ≤ path.length := by
  rw [removePreviousRedirectPathSegment, if_neg h]
  dsimp only
  split
  · exact List.length_pos_of_ne_nil h
  · refine (List.rdropWhile_prefix _ _).length_le.trans ?_
    split_ifs
    · exact (List.dropLast_prefix _).length_le
    · exact le_rfl

theorem removeDotSegmentsLoop_length (path rest : Bytes) (h : path ≠ []) :
    (removeDotSegmentsLoop path rest).length ≤ path.length + rest.length := by
  induction path, rest using removeDotSegmentsLoop.induct with
  | case1 path => rw [removeDotSegmentsLoop, List.length_nil, Nat.add_zero]
  | case2 path rest ih =>
    rw [removeDotSegmentsLoop, if_pos rfl]
    refine (ih (List.append_ne_nil_of_left_ne_nil h _)).trans ?_
    rw [List.length_append, List.length_singleton, List.length_cons]
    omega
  | case3 path c rest hc segment behind hdot ih =>
    rw [removeDotSegmentsLoop, if_neg hc, if_pos hdot]
    refine (ih h).trans (Nat.add_le_add_left ((skipSlash_length _).trans ?_) _)
    exact (List.dropWhile_suffix _).length_le.trans (Nat.le_succ _)
  | case4 path c rest hc segment behind hdot hdots ih =>
    rw [removeDotSegmentsLoop, if_neg hc, if_neg hdot, if_pos hdots]
    refine (ih (removePrevious_ne_nil h)).trans (Nat.add_le_add (removePrevious_length h)
      ((skipSlash_length _).trans ?_))
    exact (List.dropWhile_suffix _).length_le.trans (Nat.le_succ _)
  | case5 path c rest hc segment behind hdot hdots ih =>
    rw [removeDotSegmentsLoop, if_neg hc, if_neg hdot, if_neg hdots]
    refine (ih (List.append_ne_nil_of_left_ne_nil h _)).trans ?_
    have hsplit : (rest.takeWhile (· ≠ slash)).length + (rest.dropWhile (· ≠ slash)).length =
        rest.length := by
      rw [← List.length_append, List.takeWhile_append_dropWhile]
    change (path ++ c :: rest.takeWhile (· ≠ slash)).length +
      (rest.dropWhile (· ≠ slash)).length ≤ _
    rw [List.length_append, List.length_cons, List.length_cons]
    omega

theorem removeRedirectDotSegments_length {path : Bytes} (h : path.head? = some slash) :
    (removeRedirectDotSegments path).length ≤ path.length := by
  cases path with
  | nil => cases h
  | cons c rest =>
    obtain rfl : c = slash := by simpa using h
    rw [removeRedirectDotSegments, if_neg (List.cons_ne_nil _ _), removeDotSegmentsLoop,
      if_pos rfl]
    have hloop := removeDotSegmentsLoop_length [slash] rest (List.cons_ne_nil _ _)
    rw [List.length_singleton, Nat.add_comm] at hloop
    split
    · exact Nat.succ_le_succ (Nat.zero_le _)
    · exact hloop

namespace RelativeReference

variable {base reference : RelativeReference}

theorem target_head? (h : base.path.head? = some slash) :
    (target base reference).head? = some slash := by
  rw [target]
  split_ifs with hnil hrooted
  · exact h
  · exact hrooted
  · obtain ⟨rest, hbase⟩ := List.head?_eq_some_iff.1 h
    have hmem : slash ∈ base.path := by
      rw [hbase]
      exact List.mem_cons_self
    rw [merge, ← removeLast_append hmem]
    have hrooted : Rooted (removeLast slash base.path) := Rooted.of_prefix (.inr h)
      (removeLast_isPrefix base.path)
    rcases hrooted with hnone | hsome
    · rw [hnone]
      rfl
    · rw [List.append_assoc, List.head?_append, hsome]
      rfl

end RelativeReference

open RelativeReference

theorem base_head? (h : r.path.head? = some slash) :
    r.base.path.head? = some slash := by
  obtain ⟨rest, hrest⟩ := List.head?_eq_some_iff.1 h
  rw [KhRequest.base, hrest, List.takeWhile_cons_of_pos (by decide)]
  rfl

theorem appendPath_eq_ok {base reference : RelativeReference}
    {result : Bytes} (hdestination : destination.length ≤ capacity)
    (hpath : base.path.head? = some slash) :
    (if reference.path = [] then appendRedirectText capacity destination base.path
      else if reference.path.head? = some slash then
        appendRedirectText capacity destination reference.path
      else do
        let baseDirectory := base.path.rdropWhile (· ≠ slash)
        let destination ← appendRedirectText capacity destination
          (if baseDirectory = [] then [slash] else baseDirectory)
        appendRedirectText capacity destination reference.path) = .ok result ↔
      result = destination ++ target base reference ∧
        (destination ++ target base reference).length ≤ capacity := by
  rw [target]
  by_cases hnil : reference.path = []
  · rw [if_pos hnil, if_pos hnil, appendRedirectText_eq_ok hdestination]
  · rw [if_neg hnil, if_neg hnil]
    by_cases hrooted : reference.path.head? = some slash
    · rw [if_pos hrooted, if_pos hrooted, appendRedirectText_eq_ok hdestination]
    · have hne : base.path.rdropWhile (· ≠ slash) ≠ [] := by
        obtain ⟨rest, hbase⟩ := List.head?_eq_some_iff.1 hpath
        have hmem : slash ∈ base.path := by
          rw [hbase]
          exact List.mem_cons_self
        rw [← removeLast_append hmem]
        exact List.append_ne_nil_of_right_ne_nil _ (List.cons_ne_nil _ _)
      rw [if_neg hrooted, if_neg hrooted]
      dsimp only
      rw [if_neg hne, bind_eq_ok_iff, merge, ← List.append_assoc]
      constructor
      · rintro ⟨directory, hdirectory, h⟩
        obtain ⟨rfl, hle⟩ := (appendRedirectText_eq_ok hdestination).1 hdirectory
        exact (appendRedirectText_eq_ok hle).1 h
      · rintro ⟨rfl, hle⟩
        have hdirectory := (List.prefix_append (destination ++ base.path.rdropWhile (· ≠ slash))
          reference.path).length_le.trans hle
        exact ⟨_, (appendRedirectText_eq_ok hdestination).2 ⟨rfl, hdirectory⟩,
          (appendRedirectText_eq_ok hdirectory).2 ⟨rfl, hle⟩⟩

/-- The query of the URL. -/
theorem queryText_eq (r : KhRequest) (location : Bytes) :
    (resolve r.base (parse location)).query.elim [] (question :: ·) =
      if (location.takeWhile (· ≠ hash)).dropWhile (· ≠ question) ≠ [] then
        (location.takeWhile (· ≠ hash)).dropWhile (· ≠ question)
      else if (parse location).path = [] then r.path.dropWhile (· ≠ question) else [] := by
  have hquery := component_eq question (location.takeWhile (· ≠ hash))
  have hnone := component_eq_none_iff question (location.takeWhile (· ≠ hash))
  have hbase := component_eq question r.path
  rw [resolve]
  dsimp only
  by_cases hq : (location.takeWhile (· ≠ hash)).dropWhile (· ≠ question) = []
  · have hquery' : (parse location).query = none := hnone.2 hq
    rw [if_neg (not_not.2 hq)]
    by_cases hp : (parse location).path = []
    · rw [if_pos ⟨hp, hquery'⟩, if_pos hp]
      exact hbase
    · rw [if_neg fun h => hp h.1, if_neg hp, hquery']
      rfl
  · rw [if_pos hq, if_neg fun h => hq (hnone.1 h.2)]
    exact hquery

/-- The fragment of the URL. -/
theorem fragmentText_eq (r : KhRequest) (location : Bytes) :
    (resolve r.base (parse location)).fragment.elim [] (hash :: ·) =
      if location.dropWhile (· ≠ hash) ≠ [] then location.dropWhile (· ≠ hash)
      else baseRequestFragment r := by
  have hfragment := component_eq hash location
  have hnone := component_eq_none_iff hash location
  rw [resolve, parse]
  dsimp only
  split_ifs with hf
  · cases h : component hash location with
    | none => exact absurd (hnone.1 h) hf
    | some fragment => rw [← hfragment, h]; rfl
  · rw [hnone.2 (not_not.1 hf), Option.none_or]
    exact component_eq hash r.url

theorem appendRedirectText_nil (capacity : ℕ) (destination : Bytes) :
    appendRedirectText capacity destination [] = .ok destination := by
  rw [appendRedirectText, List.length_nil, if_neg (Nat.not_lt_zero _), List.append_nil]

theorem appendRedirectPathAndSuffix_eq (capacity : ℕ) (r : KhRequest)
    (location destination : Bytes) :
    appendRedirectPathAndSuffix capacity r location destination =
      (if (parse location).path = [] then appendRedirectText capacity destination r.base.path
        else if (parse location).path.head? = some slash then
          appendRedirectText capacity destination (parse location).path
        else do
          let baseDirectory := r.base.path.rdropWhile (· ≠ slash)
          let destination ← appendRedirectText capacity destination
            (if baseDirectory = [] then [slash] else baseDirectory)
          appendRedirectText capacity destination (parse location).path) >>= fun withPath =>
      appendRedirectText capacity
          (destination ++ removeRedirectDotSegments (withPath.drop destination.length))
          ((resolve r.base (parse location)).query.elim [] (question :: ·)) >>= fun destination =>
        appendRedirectText capacity destination
          ((resolve r.base (parse location)).fragment.elim [] (hash :: ·)) := by
  rw [queryText_eq, fragmentText_eq, appendRedirectPathAndSuffix]
  dsimp only [parse, KhRequest.base]
  have hquery : ∀ withPath : Bytes, _ := fun withPath => appendRedirectText_nil capacity
    (destination ++ removeRedirectDotSegments (withPath.drop destination.length))
  by_cases hq : (location.takeWhile (· ≠ hash)).dropWhile (· ≠ question) = []
  · rw [if_neg (not_not.2 hq)]
    by_cases hp : (location.takeWhile (· ≠ hash)).takeWhile (· ≠ question) = []
    · simp only [hq, hp, ne_eq, not_true_eq_false, if_true, if_false]
    · simp only [hq, hp, ne_eq, not_true_eq_false, if_false, hquery]
      split_ifs
      all_goals first | rfl | rw [bind_assoc]
  · simp only [hq, ne_eq, not_false_eq_true, if_true]
    split_ifs
    all_goals first | rfl | rw [bind_assoc]

theorem appendRedirectPathAndSuffix_eq_ok (hdestination : destination.length ≤ capacity)
    (hpath : r.path.head? = some slash) :
    appendRedirectPathAndSuffix capacity r location destination = .ok url ↔
      url = destination ++ (resolve r.base (parse location)).recompose ∧
        (destination ++ target r.base (parse location)).length ≤ capacity ∧
        (destination ++ (resolve r.base (parse location)).recompose).length ≤ capacity := by
  have hbase := base_head? hpath
  have htarget : (target r.base (parse location)).head? = some slash := target_head? hbase
  have hremove : removeRedirectDotSegments (target r.base (parse location)) =
      (resolve r.base (parse location)).path := removeRedirectDotSegments_eq _ htarget
  have hshorter := removeRedirectDotSegments_length htarget
  rw [hremove] at hshorter
  rw [recompose, appendRedirectPathAndSuffix_eq, bind_eq_ok_iff]
  generalize (resolve r.base (parse location)).query.elim [] (question :: ·) = query
  generalize (resolve r.base (parse location)).fragment.elim [] (hash :: ·) = fragment
  simp only [appendPath_eq_ok hdestination hbase]
  constructor
  · rintro ⟨_, ⟨rfl, hle⟩, h⟩
    rw [List.drop_left, hremove] at h
    have hpathFits : (destination ++ (resolve r.base (parse location)).path).length ≤
        capacity := by
      rw [List.length_append] at hle ⊢
      omega
    obtain ⟨_, hquery, h⟩ := bind_eq_ok h
    obtain ⟨rfl, hqueryFits⟩ := (appendRedirectText_eq_ok hpathFits).1 hquery
    obtain ⟨rfl, hfits⟩ := (appendRedirectText_eq_ok hqueryFits).1 h
    simp only [List.append_assoc] at hfits ⊢
    exact ⟨trivial, hle, hfits⟩
  · rintro ⟨rfl, hle, hfits⟩
    refine ⟨_, ⟨rfl, hle⟩, ?_⟩
    simp only [List.length_append] at hfits
    rw [List.drop_left, hremove, bind_of_ok ((appendRedirectText_eq_ok (by
        rw [List.length_append]
        omega)).2 ⟨rfl, by
        simp only [List.length_append]
        omega⟩)]
    refine (appendRedirectText_eq_ok ?_).2 ⟨?_, ?_⟩
    · simp only [List.length_append]
      omega
    · simp only [List.append_assoc]
    · simp only [List.length_append]
      omega

/-- The URL of a `Location` that is a relative reference. -/
theorem buildRedirectUrl_eq_ok
    (hscheme : r.scheme ≠ []) (hhost : r.host ≠ []) (hpath : r.path.head? = some slash)
    (hlocation : Http1.trimOptionalWhitespace location ≠ [])
    (hnoScheme : ¬ HasScheme (Http1.trimOptionalWhitespace location))
    (hnoAuthority : ¬ [slash, slash] <+: Http1.trimOptionalWhitespace location) :
    buildRedirectUrl capacity r location = .ok url ↔
      url = r.origin ++
          (resolve r.base (parse (Http1.trimOptionalWhitespace location))).recompose ∧
        (r.origin ++ target r.base (parse (Http1.trimOptionalWhitespace location))).length ≤
          capacity ∧ url.length ≤ capacity := by
  rw [buildRedirectUrl]
  generalize Http1.trimOptionalWhitespace location = location at *
  have htarget : (target r.base (parse location)).head? = some slash :=
    target_head? (base_head? hpath)
  have hslashes : location.take 2 ≠ [slash, slash] :=
    fun htake => hnoAuthority (htake ▸ List.take_prefix 2 location)
  rw [if_neg (not_or.2 ⟨hlocation, hscheme⟩),
    if_neg fun h => hnoScheme (hasScheme_of_isAbsolute h),
    if_neg fun h => hnoScheme (hasScheme_of_hasUriScheme h), if_neg hslashes, bind_eq_ok_iff]
  simp only [appendRedirectOrigin_eq_ok hhost]
  constructor
  · rintro ⟨_, ⟨rfl, hlt⟩, h⟩
    obtain ⟨rfl, hle, hfits⟩ := (appendRedirectPathAndSuffix_eq_ok hlt.le hpath).1 h
    exact ⟨rfl, hle, hfits⟩
  · rintro ⟨rfl, hle, hfits⟩
    have hpos : 0 < (target r.base (parse location)).length := by
      rw [List.length_pos_iff]
      rintro hnil
      rw [hnil] at htarget
      cases htarget
    have hlt : r.origin.length < capacity := by
      rw [List.length_append] at hle
      omega
    exact ⟨_, ⟨rfl, hlt⟩, (appendRedirectPathAndSuffix_eq_ok hlt.le hpath).2 ⟨rfl, hle, hfits⟩⟩

/-- **A `Location` without a scheme and an authority is resolved as a relative reference**, where
the URL fits, also with its dot segments; an empty one is refused.  The dot segments are removed in
place, and no octet is written over one that is still to be read. -/
theorem redirectReferences_resolve :
    (∀ (capacity : ℕ) (r : KhRequest) (location url : Bytes), r.scheme ≠ [] → r.host ≠ [] →
      r.path.head? = some slash → Http1.trimOptionalWhitespace location ≠ [] →
      ¬ HasScheme (Http1.trimOptionalWhitespace location) →
      ¬ [slash, slash] <+: Http1.trimOptionalWhitespace location →
        (buildRedirectUrl capacity r location = .ok url ↔
          url = r.origin ++
              (resolve r.base (parse (Http1.trimOptionalWhitespace location))).recompose ∧
            (r.origin ++ target r.base (parse (Http1.trimOptionalWhitespace location))).length ≤
              capacity ∧ url.length ≤ capacity)) ∧
    (∀ (capacity : ℕ) (r : KhRequest) (location : Bytes),
      Http1.trimOptionalWhitespace location = [] →
        buildRedirectUrl capacity r location = .error statusInvalidParameter) ∧
    ∀ (path : ℕ → UInt8) (pathLength : ℕ),
      (Overwriting.read path 0 pathLength).head? = some slash →
        Overwriting.read (removeInPlace path pathLength).path 0
            (removeInPlace path pathLength).write =
          remove slash Tls.dot (Overwriting.read path 0 pathLength) ∧
        ∀ w ∈ (removeInPlace path pathLength).writes, w.first + w.count ≤ w.unread := by
  refine ⟨?_, fun capacity r location hlocation => if_pos (.inl hlocation), ?_⟩
  · intro capacity r location url hscheme hhost hpath hlocation hnoScheme hnoAuthority
    exact buildRedirectUrl_eq_ok hscheme hhost hpath hlocation hnoScheme hnoAuthority
  · intro path pathLength hrooted
    rw [← removeRedirectDotSegments_eq _ hrooted]
    exact removeInPlace_spec path pathLength

/-- A request for `http://h/a/b`. -/
def plainRequest : KhRequest :=
  { khHttpRequestCreate none with
    url := text "http://h/a/b#f"
    scheme := text "http"
    host := text "h"
    path := text "/a/b"
    port := 80 }

theorem redirectReferences_resolve_plain :
    buildRedirectUrl 100 plainRequest (text "../c?q") = .ok (text "http://h/c?q#f") ∧
      buildRedirectUrl 100 plainRequest (text " ") = .error statusInvalidParameter ∧
      Overwriting.read (removeInPlace (fun i => (text "/a/../c").getD i 0) 7).path 0
        (removeInPlace (fun i => (text "/a/../c").getD i 0) 7).write =
          remove slash Tls.dot
            (Overwriting.read (fun i => (text "/a/../c").getD i 0) 0 7) := by
  obtain ⟨hurl, hempty, hremove⟩ := redirectReferences_resolve
  refine ⟨(hurl 100 plainRequest (text "../c?q") (text "http://h/c?q#f") (by decide)
    (by decide) (by decide) (by decide) ?_ (by decide)).2
      ⟨by decide +kernel, by decide +kernel, by decide +kernel⟩,
    hempty 100 plainRequest (text " ") (by decide), (hremove _ 7 (by decide)).1⟩
  rintro ⟨first, scheme, rest, heq, hfirst, -⟩
  obtain rfl : Tls.dot = first := (List.cons.inj heq).1
  cases hfirst

/-- A URL that would fit is refused where it does not fit with its dot segments, and so is an
empty `Location`. -/
theorem buildRedirectUrl_unremoved :
    buildRedirectUrl 16 plainRequest (text "/cccccc/../d") = .error statusBufferTooSmall ∧
      plainRequest.origin ++ (resolve plainRequest.base (parse (text "/cccccc/../d"))).recompose =
        text "http://h/d#f" ∧
      (text "http://h/d#f").length ≤ 16 ∧
      buildRedirectUrl 100 plainRequest [] = .error statusInvalidParameter := by
  decide +kernel

end KernelHttp.Engine
