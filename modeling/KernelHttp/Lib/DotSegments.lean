/-
  Paths whose segments `.` and `..` are removed (RFC 3986, section 5.2.4).

  The algorithm takes a prefix from the input in each turn, and adds it to the output, drops it, or
  drops it with the last segment of the output.
-/
import Mathlib.Data.List.DropRight
import Mathlib.Tactic

namespace DotSegments

variable {α : Type*} [DecidableEq α] (slash dot : α)

/-- The output without its last segment and the `/` in front of it. -/
def removeLast (output : List α) : List α := (output.rdropWhile (· ≠ slash)).dropLast

/-- The algorithm, with the output so far. -/
def removeFrom (output input : List α) : List α :=
  match input with
  | [] => output
  | c :: rest =>
    if [dot, dot, slash] <+: c :: rest then removeFrom output ((c :: rest).drop 3)
    else if [dot, slash] <+: c :: rest then removeFrom output ((c :: rest).drop 2)
    else if _h : [slash, dot, slash] <+: c :: rest then
      removeFrom output (slash :: (c :: rest).drop 3)
    else if _h : c :: rest = [slash, dot] then removeFrom output [slash]
    else if _h : [slash, dot, dot, slash] <+: c :: rest then
      removeFrom (removeLast slash output) (slash :: (c :: rest).drop 4)
    else if _h : c :: rest = [slash, dot, dot] then removeFrom (removeLast slash output) [slash]
    else if c :: rest = [dot] ∨ c :: rest = [dot, dot] then output
    else removeFrom (output ++ c :: rest.takeWhile (· ≠ slash)) (rest.dropWhile (· ≠ slash))
termination_by input.length
decreasing_by
  · rw [List.length_drop, List.length_cons]
    omega
  · rw [List.length_drop, List.length_cons]
    omega
  · have hlength := ‹[slash, dot, slash] <+: c :: rest›.length_le
    simp only [List.length_cons, List.length_nil, List.length_drop] at hlength ⊢
    omega
  · rw [‹c :: rest = [slash, dot]›]
    exact Nat.lt_succ_self 1
  · have hlength := ‹[slash, dot, dot, slash] <+: c :: rest›.length_le
    simp only [List.length_cons, List.length_nil, List.length_drop] at hlength ⊢
    omega
  · rw [‹c :: rest = [slash, dot, dot]›]
    exact Nat.succ_lt_succ (Nat.zero_lt_succ 1)
  · exact Nat.lt_succ_of_le (List.dropWhile_suffix (· ≠ slash)).length_le

def remove (path : List α) : List α := removeFrom slash dot [] path

variable {slash dot}

/-! ## Segments -/

/-- What can stand behind a segment: nothing, or the next one. -/
def Ends (slash : α) (behind : List α) : Prop := behind = [] ∨ ∃ rest, behind = slash :: rest

theorem takeWhile_segment {segment behind : List α} (hsegment : slash ∉ segment)
    (hbehind : Ends slash behind) : (segment ++ behind).takeWhile (· ≠ slash) = segment := by
  rw [List.takeWhile_append_of_pos fun c hc => decide_eq_true (ne_of_mem_of_not_mem hc hsegment)]
  obtain rfl | ⟨rest, rfl⟩ := hbehind
  · rw [List.takeWhile_nil, List.append_nil]
  · rw [List.takeWhile_cons_of_neg (by simp), List.append_nil]

theorem dropWhile_segment {segment behind : List α} (hsegment : slash ∉ segment)
    (hbehind : Ends slash behind) : (segment ++ behind).dropWhile (· ≠ slash) = behind := by
  rw [List.dropWhile_append_of_pos fun c hc => decide_eq_true (ne_of_mem_of_not_mem hc hsegment)]
  obtain rfl | ⟨rest, rfl⟩ := hbehind
  · rfl
  · rw [List.dropWhile_cons_of_neg (by simp)]

theorem ends_dropWhile (slash : α) (rest : List α) :
    Ends slash (rest.dropWhile (· ≠ slash)) := by
  cases h : rest.dropWhile (· ≠ slash) with
  | nil => exact .inl rfl
  | cons c behind =>
    have hhead := List.head_dropWhile_not (fun c : α => decide (c ≠ slash)) (l := rest)
      (by rw [h]; exact List.cons_ne_nil _ _)
    simp only [h, List.head_cons, decide_eq_false_iff_not, not_not] at hhead
    exact .inr ⟨behind, by rw [hhead]⟩

omit [DecidableEq α] in
/-- What holds no `/` is one segment. -/
theorem segment_eq {segment behind l : List α} (h : segment ++ behind = l) (hl : slash ∉ l)
    (hbehind : Ends slash behind) : segment = l := by
  obtain rfl | ⟨rest, rfl⟩ := hbehind
  · rwa [List.append_nil] at h
  · exact absurd (h ▸ List.mem_append_right _ List.mem_cons_self) hl

omit [DecidableEq α] in
theorem dot_prefix_iff {segment behind : List α} (hne : dot ≠ slash) (hsegment : slash ∉ segment)
    (hbehind : Ends slash behind) :
    [dot, slash] <+: segment ++ behind ↔ segment = [dot] ∧ behind ≠ [] := by
  rcases segment with _ | ⟨a, _ | ⟨b, segment⟩⟩
  · obtain rfl | ⟨rest, rfl⟩ := hbehind
    · simp
    · simp [List.cons_prefix_cons, hne]
  · obtain rfl | ⟨rest, rfl⟩ := hbehind
    · simp [List.cons_prefix_cons]
    · simp [List.cons_prefix_cons, eq_comm]
  · have hb : slash ≠ b := fun h => hsegment (by simp [h])
    simp [List.cons_prefix_cons, hb]

omit [DecidableEq α] in
theorem dots_prefix_iff {segment behind : List α} (hne : dot ≠ slash) (hsegment : slash ∉ segment)
    (hbehind : Ends slash behind) :
    [dot, dot, slash] <+: segment ++ behind ↔ segment = [dot, dot] ∧ behind ≠ [] := by
  rcases segment with _ | ⟨a, segment⟩
  · obtain rfl | ⟨rest, rfl⟩ := hbehind
    · simp
    · simp [List.cons_prefix_cons, hne]
  · rw [List.cons_append, List.cons_prefix_cons, dot_prefix_iff hne
      (fun h => hsegment (List.mem_cons_of_mem _ h)) hbehind, List.cons.injEq, and_assoc,
      eq_comm (a := dot)]

/-- **A segment behind a `/`**: it is dropped, it takes the last one with it, or it stays. -/
theorem removeFrom_segment (hne : dot ≠ slash) (output : List α) {segment behind : List α}
    (hsegment : slash ∉ segment) (hbehind : Ends slash behind) :
    removeFrom slash dot output (slash :: (segment ++ behind)) =
      if segment = [dot] then removeFrom slash dot output (slash :: behind.tail)
      else if segment = [dot, dot] then
        removeFrom slash dot (removeLast slash output) (slash :: behind.tail)
      else removeFrom slash dot (output ++ slash :: segment) behind := by
  rw [removeFrom]
  have hfirst : ∀ l, ¬ dot :: l <+: slash :: (segment ++ behind) :=
    fun l h => hne (List.cons_prefix_cons.1 h).1
  have hall : ∀ l, slash :: (segment ++ behind) = slash :: l ↔ segment ++ behind = l :=
    fun l => by rw [List.cons.injEq, and_iff_right rfl]
  have hlast : ¬ (slash :: (segment ++ behind) = [dot] ∨
      slash :: (segment ++ behind) = [dot, dot]) := by
    rintro (h | h)
    · exact hne (List.cons.inj h).1.symm
    · exact hne (List.cons.inj h).1.symm
  rw [if_neg (hfirst _), if_neg (hfirst _), if_neg hlast, takeWhile_segment hsegment hbehind,
    dropWhile_segment hsegment hbehind]
  simp only [List.cons_prefix_cons, true_and, dot_prefix_iff hne hsegment hbehind,
    dots_prefix_iff hne hsegment hbehind, hall]
  by_cases hdot : segment = [dot]
  · obtain rfl := hdot
    obtain rfl | ⟨rest, rfl⟩ := hbehind
    · simp
    · simp
  · by_cases hdots : segment = [dot, dot]
    · obtain rfl := hdots
      obtain rfl | ⟨rest, rfl⟩ := hbehind
      · simp
      · simp
    · have hdot' : segment ++ behind ≠ [dot] :=
        fun h => hdot (segment_eq h (by simp [hne.symm]) hbehind)
      have hdots' : segment ++ behind ≠ [dot, dot] :=
        fun h => hdots (segment_eq h (by simp [hne.symm]) hbehind)
      simp [hdot, hdots, hdot', hdots']

/-- Without a segment, the last `/` is taken over. -/
theorem removeFrom_slash (hne : dot ≠ slash) (output : List α) :
    removeFrom slash dot output [slash] = output ++ [slash] := by
  have h := removeFrom_segment hne output (List.not_mem_nil (a := slash)) (.inl rfl)
  rw [List.nil_append, if_neg (by simp), if_neg (by simp), removeFrom] at h
  exact h

/-! ## The last segment -/

theorem removeLast_isPrefix (output : List α) : removeLast slash output <+: output :=
  (List.dropLast_prefix _).trans (List.rdropWhile_prefix _ _)

/-- No element appears that was not there, but for a `/`. -/
theorem mem_removeFrom {c : α} (output input : List α)
    (h : c ∈ removeFrom slash dot output input) : c ∈ output ∨ c ∈ input ∨ c = slash := by
  have behind : ∀ {l : List α} (n : ℕ), c ∈ slash :: l.drop n ∨ c = slash → c ∈ l ∨ c = slash := by
    rintro l n (h | h)
    · rcases List.mem_cons.1 h with h | h
      · exact .inr h
      · exact .inl (List.mem_of_mem_drop h)
    · exact .inr h
  have slashOnly : ∀ {l : List α}, c ∈ [slash] ∨ c = slash → c ∈ l ∨ c = slash := by
    rintro l (h | h)
    · exact .inr (List.mem_singleton.1 h)
    · exact .inr h
  induction output, input using removeFrom.induct slash dot with
  | case1 output =>
    rw [removeFrom] at h
    exact .inl h
  | case2 output d rest h1 ih =>
    rw [removeFrom, if_pos h1] at h
    exact (ih h).imp_right (.imp_left List.mem_of_mem_drop)
  | case3 output d rest h1 h2 ih =>
    rw [removeFrom, if_neg h1, if_pos h2] at h
    exact (ih h).imp_right (.imp_left List.mem_of_mem_drop)
  | case4 output d rest h1 h2 h3 ih =>
    rw [removeFrom, if_neg h1, if_neg h2, dif_pos h3] at h
    exact (ih h).imp_right (behind 3)
  | case5 output d rest h1 h2 h3 h4 ih =>
    rw [removeFrom, if_neg h1, if_neg h2, dif_neg h3, dif_pos h4] at h
    exact (ih h).imp_right slashOnly
  | case6 output d rest h1 h2 h3 h4 h5 ih =>
    rw [removeFrom, if_neg h1, if_neg h2, dif_neg h3, dif_neg h4, dif_pos h5] at h
    exact (ih h).imp (fun h => (removeLast_isPrefix output).subset h) (behind 4)
  | case7 output d rest h1 h2 h3 h4 h5 h6 ih =>
    rw [removeFrom, if_neg h1, if_neg h2, dif_neg h3, dif_neg h4, dif_neg h5, dif_pos h6] at h
    exact (ih h).imp (fun h => (removeLast_isPrefix output).subset h) slashOnly
  | case8 output d rest h1 h2 h3 h4 h5 h6 h7 =>
    rw [removeFrom, if_neg h1, if_neg h2, dif_neg h3, dif_neg h4, dif_neg h5, dif_neg h6,
      if_pos h7] at h
    exact .inl h
  | case9 output d rest h1 h2 h3 h4 h5 h6 h7 ih =>
    rw [removeFrom, if_neg h1, if_neg h2, dif_neg h3, dif_neg h4, dif_neg h5, dif_neg h6,
      if_neg h7] at h
    rcases ih h with h | h | h
    · rcases List.mem_append.1 h with h | h
      · exact .inl h
      · exact .inr (.inl (List.cons_subset_cons _ (List.takeWhile_subset _) h))
    · exact .inr (.inl (List.mem_cons_of_mem _ ((List.dropWhile_suffix _).subset h)))
    · exact .inr (.inr h)

/-- Behind the last segment, its `/` stays. -/
theorem removeLast_append {output : List α} (h : slash ∈ output) :
    removeLast slash output ++ [slash] = output.rdropWhile (· ≠ slash) := by
  have hne : output.rdropWhile (· ≠ slash) ≠ [] := by
    rw [ne_eq, List.rdropWhile_eq_nil_iff]
    exact fun hall => of_decide_eq_true (hall slash h) rfl
  have hlast : (output.rdropWhile (· ≠ slash)).getLast hne = slash := by
    have := List.rdropWhile_last_not _ _ hne
    simpa using this
  rw [removeLast]
  conv_rhs => rw [← List.dropLast_append_getLast hne, hlast]

end DotSegments
