/-
  Parsers of a growing input.

  Who parses what has arrived and tries again with more needs that an answer is final.
-/
import Mathlib

namespace Incremental

universe u

variable {β ε : Type*} {α γ : Type u} {more : ε}

/-- A computation that succeeds, peeled apart. -/
theorem bind_eq_ok {x : Except ε α} {f : α → Except ε γ} {r : γ} (h : (x >>= f) = .ok r) :
    ∃ a, x = .ok a ∧ f a = .ok r := by
  cases x with
  | error e => cases h
  | ok a => exact ⟨a, rfl, h⟩

/-- A computation whose first part is known to succeed. -/
theorem bind_of_ok {x : Except ε α} {a : α} (h : x = .ok a) (f : α → Except ε γ) :
    (x >>= f) = f a := by
  rw [h]
  rfl

theorem forM_cons_eq {ι : Type*} (f : ι → Except ε PUnit) (a : ι) (l : List ι) :
    (a :: l).forM f = f a >>= fun _ => l.forM f := rfl

/-- A loop of checks succeeds if every check does. -/
theorem forM_eq_ok {ι : Type*} {f : ι → Except ε PUnit} {l : List ι} :
    l.forM f = .ok ⟨⟩ ↔ ∀ a ∈ l, f a = .ok ⟨⟩ := by
  induction l with
  | nil => exact ⟨fun _ => nofun, fun _ => rfl⟩
  | cons a l ih =>
    rw [forM_cons_eq, List.forall_mem_cons, ← ih]
    cases f a with
    | error status => exact ⟨nofun, fun h => absurd h.1 nofun⟩
    | ok u => exact ⟨fun h => ⟨rfl, h⟩, fun h => h.2⟩

/-- Answers other than `more` are final. -/
def Stable (more : ε) (f : List β → Except ε α) : Prop :=
  ∀ p s, f p ≠ .error more → f (p ++ s) = f p

theorem Stable.const (r : Except ε α) : Stable more fun _ : List β => r := fun _ _ _ => rfl

theorem Stable.ite {c : Prop} [Decidable c] {f g : List β → Except ε α} (hf : Stable more f)
    (hg : Stable more g) : Stable more fun p => if c then f p else g p := by
  intro p s h
  by_cases hc : c
  · simp only [hc, if_true] at h ⊢; exact hf p s h
  · simp only [hc, if_false] at h ⊢; exact hg p s h

/-- Going on with `g` on the same input. -/
theorem Stable.bind {f : List β → Except ε α} {g : α → List β → Except ε γ} (hf : Stable more f)
    (hg : ∀ a, Stable more (g a)) : Stable more fun p => f p >>= fun a => g a p := by
  intro p s h
  have hfp : f p ≠ .error more := by
    intro hm
    exact h (by simp only [hm]; rfl)
  simp only [hf p s hfp]
  cases hp : f p with
  | error e => rfl
  | ok a =>
    simp only [hp] at h
    exact hg a p s h

/-- Going on with `g` behind what `f` consumed. -/
theorem Stable.bindDrop {f : List β → Except ε α} {g : α → List β → Except ε γ} {pos : α → ℕ}
    (hf : Stable more f) (hpos : ∀ p a, f p = .ok a → pos a ≤ p.length)
    (hg : ∀ a, Stable more (g a)) : Stable more fun p => f p >>= fun a => g a (p.drop (pos a)) := by
  intro p s h
  have hfp : f p ≠ .error more := by
    intro hm
    exact h (by simp only [hm]; rfl)
  simp only [hf p s hfp]
  cases hp : f p with
  | error e => rfl
  | ok a =>
    simp only [hp] at h
    change g a ((p ++ s).drop (pos a)) = g a (p.drop (pos a))
    rw [List.drop_append_of_le_length (hpos p a hp)]
    exact hg a _ s h

/-- Waiting for `n` elements, and looking at nothing behind them. -/
theorem Stable.waitFor (n : ℕ) (g : List β → Except ε α) :
    Stable more fun p => if n > p.length then .error more else g (p.take n) := by
  intro p s h
  by_cases hn : n > p.length
  · simp only [hn, if_true, ne_eq, not_true_eq_false] at h
  · have hle : n ≤ p.length := by omega
    simp only [hn, if_false, List.length_append, show ¬ n > p.length + s.length by omega,
      List.take_append_of_le_length hle]

end Incremental
