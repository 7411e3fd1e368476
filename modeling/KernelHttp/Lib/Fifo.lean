/-
  Queues bounded by a total weight.

  A queue is the list of its entries, newest first; `fit w b xs` is what is left of it below `b`.
-/
import Mathlib

namespace Fifo

variable {α : Type*} (w : α → ℕ)

/-- The total weight of a queue. -/
def total (xs : List α) : ℕ := (xs.map w).sum

/-- The longest prefix of weight at most `b`. -/
def fit : ℕ → List α → List α
  | _, [] => []
  | b, x :: xs => if w x ≤ b then x :: fit (b - w x) xs else []

variable {w}

@[simp] theorem total_nil : total w [] = 0 := rfl

@[simp] theorem total_cons (x : α) (xs : List α) : total w (x :: xs) = w x + total w xs := by
  simp [total]

@[simp] theorem total_append (xs ys : List α) : total w (xs ++ ys) = total w xs + total w ys := by
  simp [total]

@[simp] theorem fit_nil (b : ℕ) : fit w b [] = [] := rfl

variable {bs : List ℕ} {b : ℕ}

theorem fit_cons_of_le {x : α} (h : w x ≤ b) (xs : List α) :
    fit w b (x :: xs) = x :: fit w (b - w x) xs := if_pos h

theorem fit_cons_of_lt {x : α} (h : b < w x) (xs : List α) : fit w b (x :: xs) = [] :=
  if_neg (by omega)

/-- A smaller bound cuts off what a larger one has cut off. -/
theorem fit_fit {b' : ℕ} (h : b ≤ b') (xs : List α) : fit w b (fit w b' xs) = fit w b xs := by
  induction xs generalizing b b' with
  | nil => rfl
  | cons x xs ih =>
    rcases Nat.lt_or_ge b (w x) with hlt | hle
    · rw [fit_cons_of_lt hlt]
      rcases Nat.lt_or_ge b' (w x) with hlt' | hle'
      · rw [fit_cons_of_lt hlt', fit_nil]
      · rw [fit_cons_of_le hle', fit_cons_of_lt hlt]
    · rw [fit_cons_of_le (hle.trans h), fit_cons_of_le hle, fit_cons_of_le hle, ih (by omega)]

/-- A queue that is cut off and takes one more is one that takes it and is cut off. -/
theorem fit_cons_fit (x : α) (xs : List α) : fit w b (x :: fit w b xs) = fit w b (x :: xs) := by
  rcases Nat.lt_or_ge b (w x) with hlt | hle
  · rw [fit_cons_of_lt hlt, fit_cons_of_lt hlt]
  · rw [fit_cons_of_le hle, fit_cons_of_le hle, fit_fit (Nat.sub_le b (w x))]

theorem total_fit_le (b : ℕ) (xs : List α) : total w (fit w b xs) ≤ b := by
  induction xs generalizing b with
  | nil => simp
  | cons x xs ih =>
    by_cases h : w x ≤ b
    · have := ih (b - w x)
      rw [fit_cons_of_le h, total_cons]; omega
    · rw [fit_cons_of_lt (by omega), total_nil]; omega

theorem fit_eq_self {xs : List α} (h : total w xs ≤ b) : fit w b xs = xs := by
  induction xs generalizing b with
  | nil => rfl
  | cons x xs ih =>
    rw [total_cons] at h
    rw [fit_cons_of_le (by omega), ih (by omega)]

theorem fit_isPrefix (b : ℕ) (xs : List α) : fit w b xs <+: xs := by
  induction xs generalizing b with
  | nil => exact List.prefix_rfl
  | cons x xs ih =>
    by_cases h : w x ≤ b
    · rw [fit_cons_of_le h]; exact (List.prefix_cons_inj x).2 (ih _)
    · rw [fit_cons_of_lt (by omega)]; exact List.nil_prefix

/-- Dropping the oldest entry of a queue that does not fit changes nothing. -/
theorem fit_dropLast {xs : List α} (h : b < total w xs) :
    fit w b xs.dropLast = fit w b xs := by
  induction xs generalizing b with
  | nil => rfl
  | cons x xs ih =>
    rw [total_cons] at h
    by_cases hx : w x ≤ b
    · cases xs with
      | nil => simp at h; omega
      | cons y ys =>
        rw [List.dropLast_cons_cons, fit_cons_of_le hx, fit_cons_of_le hx, ih (by omega)]
    · rw [fit_cons_of_lt (by omega)]
      cases xs with
      | nil => rfl
      | cons y ys => rw [List.dropLast_cons_cons, fit_cons_of_lt (by omega)]

/-- A prefix of a queue keeps a prefix of what the queue keeps. -/
theorem prefix_fit {xs ys : List α} (h : xs <+: ys) (b : ℕ) : fit w b xs <+: fit w b ys := by
  induction xs generalizing ys b with
  | nil => exact List.nil_prefix
  | cons x xs ih =>
    obtain ⟨zs, rfl⟩ := h
    rw [List.cons_append]
    by_cases hx : w x ≤ b
    · rw [fit_cons_of_le hx, fit_cons_of_le hx]
      exact (List.prefix_cons_inj x).2 (ih (List.prefix_append _ _) _)
    · rw [fit_cons_of_lt (by omega), fit_cons_of_lt (by omega)]

theorem total_le_of_isPrefix {xs ys : List α} (h : xs <+: ys) : total w xs ≤ total w ys := by
  obtain ⟨zs, rfl⟩ := h
  rw [total_append]; omega

theorem isPrefix_fit {xs ys : List α} (h : xs <+: ys) (hb : total w xs ≤ b) :
    xs <+: fit w b ys := by
  have := prefix_fit (w := w) h b
  rwa [fit_eq_self hb] at this

/-- Lowering and raising the bound in steps. -/
theorem foldl_fit_isPrefix (bs : List ℕ) (xs : List α) :
    bs.foldl (fun xs b => fit w b xs) xs <+: xs := by
  induction bs generalizing xs with
  | nil => exact List.prefix_rfl
  | cons b bs ih => exact (ih _).trans (fit_isPrefix b xs)

theorem total_foldl_fit_le (hb : b ∈ bs) (xs : List α) :
    total w (bs.foldl (fun xs b => fit w b xs) xs) ≤ b := by
  induction bs generalizing xs with
  | nil => simp at hb
  | cons a bs ih =>
    rcases List.mem_cons.1 hb with rfl | hb
    · exact (total_le_of_isPrefix (foldl_fit_isPrefix bs _)).trans (total_fit_le _ xs)
    · exact ih hb _

theorem isPrefix_foldl_fit {xs ys : List α} (h : xs <+: ys)
    (hb : ∀ b ∈ bs, total w xs ≤ b) : xs <+: bs.foldl (fun xs b => fit w b xs) ys := by
  induction bs generalizing ys with
  | nil => exact h
  | cons b bs ih =>
    exact ih (isPrefix_fit h (hb b (by simp))) fun b' hb' => hb b' (by simp [hb'])

/-- A bound in steps keeps what the last of them alone would keep iff that fits
    all of them. -/
theorem foldl_fit_eq_iff {last : ℕ} {xs : List α}
    (hlast : total w (bs.foldl (fun xs b => fit w b xs) xs) ≤ last) :
    bs.foldl (fun xs b => fit w b xs) xs = fit w last xs ↔
      ∀ b ∈ bs, total w (fit w last xs) ≤ b := by
  constructor
  · intro heq b hb
    rw [← heq]
    exact total_foldl_fit_le hb xs
  · intro hall
    have h1 := isPrefix_fit (foldl_fit_isPrefix bs xs) hlast
    have h2 := isPrefix_foldl_fit (fit_isPrefix last xs) hall
    exact h1.eq_of_length (Nat.le_antisymm h1.length_le h2.length_le)

/-! ## Queues under use -/

/-- What happens to a queue. -/
inductive Op (α : Type*) where
  | push (x : α)
  | setBound (n : ℕ)

/-- A queue and its bound. -/
structure Queue (α : Type*) where
  items : List α
  bound : ℕ

/-- An element is pushed and the oldest ones are dropped, or the bound is set. -/
def Queue.step (w : α → ℕ) (q : Queue α) : Op α → Queue α
  | .push x => { q with items := fit w q.bound (x :: q.items) }
  | .setBound n => { items := fit w n q.items, bound := n }

/-- An empty queue of bound `b` after the operations `ops`. -/
def run (w : α → ℕ) (b : ℕ) (ops : List (Op α)) : Queue α := ops.foldl (Queue.step w) ⟨[], b⟩

def boundAfter (b : ℕ) : List (Op α) → ℕ
  | [] => b
  | .push _ :: ops => boundAfter b ops
  | .setBound n :: ops => boundAfter n ops

/-- How many elements the operations push. -/
def pushes : List (Op α) → ℕ
  | [] => 0
  | .push _ :: ops => pushes ops + 1
  | .setBound _ :: ops => pushes ops

/-- The elements pushed since the last one that was larger than the bound it
    met, newest first. -/
def pushedSince (w : α → ℕ) (b : ℕ) (ops : List (Op α)) : List α :=
  (ops.foldl (fun (s : List α × ℕ) op => match op with
    | .push x => (if w x ≤ s.2 then x :: s.1 else [], s.2)
    | .setBound n => (s.1, n)) ([], b)).1

/-- The newest elements `xs` fitted every bound applied: after each part `pre` of
    the operations those of them that had been pushed by then did. -/
def FitsBounds (w : α → ℕ) (b : ℕ) (ops : List (Op α)) (xs : List α) : Prop :=
  ∀ pre post, ops = pre ++ post → total w (xs.drop (pushes post)) ≤ boundAfter b pre

/-- The longest run of the newest elements that fitted every bound applied. -/
structure IsLongest (w : α → ℕ) (b : ℕ) (ops : List (Op α)) (xs : List α) : Prop where
  newest : xs <+: pushedSince w b ops
  fits : FitsBounds w b ops xs
  longest : ∀ ys, ys <+: pushedSince w b ops → FitsBounds w b ops ys → ys.length ≤ xs.length

@[simp] theorem boundAfter_append (b : ℕ) (ops ops' : List (Op α)) :
    boundAfter b (ops ++ ops') = boundAfter (boundAfter b ops) ops' := by
  induction ops generalizing b with
  | nil => rfl
  | cons op ops ih => cases op <;> exact ih _

@[simp] theorem pushes_append (ops ops' : List (Op α)) :
    pushes (ops ++ ops') = pushes ops + pushes ops' := by
  induction ops with
  | nil => simp [pushes]
  | cons op ops ih =>
    cases op with
    | push x => simp only [List.cons_append, pushes, ih]; omega
    | setBound n => exact ih

theorem run_bound (b : ℕ) (ops : List (Op α)) : (run w b ops).bound = boundAfter b ops := by
  unfold run
  generalize ([] : List α) = xs
  induction ops generalizing b xs with
  | nil => rfl
  | cons op ops ih => cases op <;> exact ih _ _

theorem pushedSince_snoc (b : ℕ) (ops : List (Op α)) (op : Op α) :
    pushedSince w b (ops ++ [op]) = match op with
      | .push x => if w x ≤ boundAfter b ops then x :: pushedSince w b ops else []
      | .setBound _ => pushedSince w b ops := by
  have hbound : ∀ (xs : List α) b, (ops.foldl (fun (s : List α × ℕ) op => match op with
      | .push x => (if w x ≤ s.2 then x :: s.1 else [], s.2)
      | .setBound n => (s.1, n)) (xs, b)).2 = boundAfter b ops := by
    induction ops with
    | nil => intros; rfl
    | cons op ops ih => cases op <;> exact fun xs b => ih _ _
  unfold pushedSince
  rw [List.foldl_append, List.foldl_cons, List.foldl_nil]
  cases op with
  | push x => simp only [hbound]
  | setBound n => rfl

/-- One more operation has to be looked at on its own. -/
theorem fitsBounds_snoc {ops : List (Op α)} {op : Op α} {xs : List α} :
    FitsBounds w b (ops ++ [op]) xs ↔
      FitsBounds w b ops (xs.drop (pushes [op])) ∧ total w xs ≤ boundAfter b (ops ++ [op]) := by
  constructor
  · intro h
    refine ⟨fun pre post hsplit => ?_, h (ops ++ [op]) [] (by simp)⟩
    have := h pre (post ++ [op]) (by rw [hsplit, List.append_assoc])
    rwa [pushes_append, Nat.add_comm, ← List.drop_drop] at this
  · rintro ⟨hops, hall⟩ pre post hsplit
    rcases List.eq_nil_or_concat post with rfl | ⟨post, op', rfl⟩
    · rw [List.append_nil] at hsplit
      simpa [pushes, ← hsplit] using hall
    · rw [List.concat_eq_append, ← List.append_assoc] at hsplit
      obtain ⟨hpre, hop⟩ := List.append_inj' hsplit rfl
      obtain rfl : op = op' := by simpa using hop
      rw [List.concat_eq_append, pushes_append, Nat.add_comm, ← List.drop_drop]
      exact hops pre post hpre

theorem fitsBounds_of_isPrefix {ops : List (Op α)} {xs ys : List α} (h : xs <+: ys)
    (hys : FitsBounds w b ops ys) : FitsBounds w b ops xs := by
  intro pre post hsplit
  have hdrop : xs.drop (pushes post) <+: ys.drop (pushes post) := by
    obtain ⟨zs, rfl⟩ := h
    rw [List.drop_append]
    exact List.prefix_append _ _
  exact (total_le_of_isPrefix hdrop).trans (hys pre post hsplit)

/-- **What a queue holds**: the longest run of the elements pushed last that
    fitted every bound applied since. -/
theorem run_isLongest (b : ℕ) (ops : List (Op α)) :
    IsLongest w b ops (run w b ops).items := by
  induction ops using List.reverseRecOn with
  | nil =>
    refine ⟨List.prefix_rfl, fun pre post _ => by simp [run], fun ys hys _ => ?_⟩
    simpa [pushedSince, run] using hys
  | append_singleton ops op ih =>
    have hrun : run w b (ops ++ [op]) = (run w b ops).step w op := by simp [run]
    have hlast := run_bound (w := w) b ops
    cases op with
    | setBound n =>
      have hitems : (run w b (ops ++ [Op.setBound n])).items = fit w n (run w b ops).items := by
        rw [hrun]; rfl
      have hnew := pushedSince_snoc (w := w) b ops (.setBound n)
      refine ⟨?_, fitsBounds_snoc.2 ⟨?_, ?_⟩, fun ys hys hfit => ?_⟩
      · rw [hitems, hnew]
        exact (fit_isPrefix _ _).trans ih.newest
      · rw [hitems]
        exact fitsBounds_of_isPrefix (fit_isPrefix _ _) ih.fits
      · rw [hitems, boundAfter_append]
        exact total_fit_le _ _
      · rw [hnew] at hys
        obtain ⟨hops, hall⟩ := fitsBounds_snoc.1 hfit
        rw [boundAfter_append] at hall
        have hlen := ih.longest ys hys hops
        have hprefix := List.prefix_of_prefix_length_le hys ih.newest hlen
        rw [hitems]
        exact (isPrefix_fit hprefix hall).length_le
    | push x =>
      have hitems : (run w b (ops ++ [Op.push x])).items =
          fit w (boundAfter b ops) (x :: (run w b ops).items) := by
        rw [hrun, ← hlast]; rfl
      have hnew := pushedSince_snoc (w := w) b ops (.push x)
      simp only at hnew
      rw [hitems]
      by_cases hx : w x ≤ boundAfter b ops
      · rw [if_pos hx] at hnew
        refine ⟨?_, fitsBounds_snoc.2 ⟨?_, ?_⟩, fun ys hys hfit => ?_⟩
        · rw [hnew]
          exact (fit_isPrefix _ _).trans ((List.prefix_cons_inj x).2 ih.newest)
        · rw [fit_cons_of_le hx]
          exact fitsBounds_of_isPrefix (fit_isPrefix _ _) ih.fits
        · rw [boundAfter_append]
          exact total_fit_le _ _
        · rw [hnew] at hys
          obtain ⟨hops, hall⟩ := fitsBounds_snoc.1 hfit
          rw [boundAfter_append] at hall
          cases ys with
          | nil => exact Nat.zero_le _
          | cons y ys =>
            obtain ⟨rfl, htail⟩ := List.cons_prefix_cons.1 hys
            have hlen := ih.longest ys htail hops
            have hprefix := List.prefix_of_prefix_length_le htail ih.newest hlen
            exact (isPrefix_fit ((List.prefix_cons_inj y).2 hprefix) hall).length_le
      · rw [if_neg hx] at hnew
        rw [fit_cons_of_lt (by omega)]
        refine ⟨List.nil_prefix, fun pre post _ => by simp, fun ys hys _ => ?_⟩
        rw [hnew] at hys
        exact hys.length_le

end Fifo
