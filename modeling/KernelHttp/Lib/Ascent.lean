/-
  Paths from an element to its parents.

  A path goes from each element to a parent, without repetition, as far as it can.
-/
import Mathlib

namespace Ascent

variable {α : Type*} {parent : α → α → Prop} {root : α → Prop} {S : Set α}

variable (parent root S) in
/-- A path to parents that ends at a root, or where every parent is on it already. -/
structure Maximal (path : List α) : Prop where
  mem : ∀ a ∈ path, a ∈ S
  chain : path.IsChain fun a b => ¬ root a ∧ parent a b
  nodup : path.Nodup
  ends : ∀ a, path.getLast? = some a → root a ∨ ∀ b ∈ S, parent a b → b ∈ path

/-- The step from an element that is not the last one. -/
theorem Maximal.step {front back : List α} {a b : α}
    (h : Maximal parent root S (front ++ a :: b :: back)) : ¬ root a ∧ parent a b :=
  (List.isChain_cons_cons.1 (List.isChain_append.1 h.chain).2.1).1

theorem Maximal.notMem {front back : List α} {a b : α}
    (h : Maximal parent root S (front ++ a :: b :: back)) : b ∉ front ++ [a] := by
  have hnodup : ((front ++ [a]) ++ b :: back).Nodup := by
    have := h.nodup
    rwa [← List.singleton_append (l := b :: back), ← List.append_assoc] at this
  exact fun hb => (List.nodup_append.1 hnodup).2.2 b hb b List.mem_cons_self rfl

/-- A path does not end where another one goes on. -/
theorem Maximal.not_longer {front back : List α} {a b : α}
    (h : Maximal parent root S (front ++ [a]))
    (h' : Maximal parent root S (front ++ a :: b :: back)) : False := by
  obtain ⟨hroot, hparent⟩ := h'.step
  have hb : b ∈ S := h'.mem b (by simp)
  rcases h.ends a (by simp) with hends | hends
  · exact hroot hends
  · exact h'.notMem (hends b hb hparent)

theorem Maximal.unique_behind
    (hunique : ∀ a b c, b ∈ S → c ∈ S → parent a b → parent a c → b = c) {rest rest' : List α} :
    ∀ (front : List α) (a : α), Maximal parent root S (front ++ a :: rest) →
      Maximal parent root S (front ++ a :: rest') → rest = rest' := by
  induction rest generalizing rest' with
  | nil =>
    intro front a h h'
    cases rest' with
    | nil => rfl
    | cons b rest' => exact (h.not_longer h').elim
  | cons b rest ih =>
    intro front a h h'
    cases rest' with
    | nil => exact (h'.not_longer h).elim
    | cons c rest' =>
      obtain rfl : b = c :=
        hunique a b c (h.mem b (by simp)) (h'.mem c (by simp)) h.step.2 h'.step.2
      have hrest : rest = rest' := by
        refine ih (front ++ [a]) b ?_ ?_
        · simpa using h
        · simpa using h'
      rw [hrest]

/-- **The path is determined by its first element.** -/
theorem Maximal.unique (hunique : ∀ a b c, b ∈ S → c ∈ S → parent a b → parent a c → b = c)
    {a : α} {rest rest' : List α} (h : Maximal parent root S (a :: rest))
    (h' : Maximal parent root S (a :: rest')) : rest = rest' :=
  Maximal.unique_behind hunique [] a h h'

end Ascent
