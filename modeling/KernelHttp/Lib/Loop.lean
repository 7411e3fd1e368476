/-
  Loops that end when their input is used up.
-/
import Mathlib

namespace Loop

universe u v

variable {σ : Type u} {ρ : Type v}

/-- The outcome of a turn. -/
inductive Turn (σ : Type u) (ρ : Type v) where
  | done (result : ρ)
  | again (state : σ)

/-- At most `n` turns. -/
def run (turn : σ → Turn σ ρ) (out : σ → ρ) : ℕ → σ → ρ
  | 0, s => out s
  | n + 1, s =>
    match turn s with
    | .done r => r
    | .again s => run turn out n s

variable {turn : σ → Turn σ ρ} {out : σ → ρ}

variable {n : ℕ}

theorem run_done {s : σ} {r : ρ} (h : turn s = .done r) : run turn out (n + 1) s = r := by
  rw [run, h]

theorem run_again {s s' : σ} (h : turn s = .again s') :
    run turn out (n + 1) s = run turn out n s' := by
  rw [run, h]

/-- What holds at the start and is kept by every turn holds of the result. -/
theorem run_induct {I : σ → Prop} {Q : ρ → Prop} (hout : ∀ s, I s → Q (out s))
    (hdone : ∀ s r, I s → turn s = .done r → Q r)
    (hagain : ∀ s s', I s → turn s = .again s' → I s') :
    ∀ (n : ℕ) (s : σ), I s → Q (run turn out n s)
  | 0, s, h => hout s h
  | n + 1, s, h => by
    cases ht : turn s with
    | done r => rw [run_done ht]; exact hdone s r h ht
    | again s' => rw [run_again ht]; exact run_induct hout hdone hagain n s' (hagain s s' h ht)

/-- The number of turns that go on, of at most `n`. -/
def turns (turn : σ → Turn σ ρ) : ℕ → σ → ℕ
  | 0, _ => 0
  | n + 1, s =>
    match turn s with
    | .done _ => 0
    | .again s => turns turn n s + 1

theorem turns_done {s : σ} {r : ρ} (h : turn s = .done r) : turns turn (n + 1) s = 0 := by
  rw [turns, h]

theorem turns_again {s s' : σ} (h : turn s = .again s') :
    turns turn (n + 1) s = turns turn n s' + 1 := by
  rw [turns, h]

/-- The states that a loop comes to. -/
inductive Reaches (turn : σ → Turn σ ρ) : σ → σ → Prop
  | here {s : σ} : Reaches turn s s
  | again {s s' s'' : σ} (h : turn s = .again s') (hr : Reaches turn s' s'') : Reaches turn s s''

/-! ## Enough turns -/

section

variable {P Q : ℕ → Prop}

/-- From some number of turns on. -/
def Settles (P : ℕ → Prop) : Prop := ∃ N, ∀ n ≥ N, P n

theorem Settles.of_succ (h : ∀ n, P (n + 1)) : Settles P := by
  refine ⟨1, fun n hn => ?_⟩
  obtain ⟨m, rfl⟩ := Nat.exists_eq_add_of_le' hn
  exact h m

/-- One turn in front. -/
theorem Settles.succ (h : Settles Q) (hPQ : ∀ n, Q n → P (n + 1)) : Settles P := by
  obtain ⟨N, hN⟩ := h
  refine ⟨N + 1, fun n hn => ?_⟩
  obtain ⟨m, rfl⟩ := Nat.exists_eq_add_of_le' (show 1 ≤ n by omega)
  exact hPQ m (hN m (by omega))

theorem Settles.mono (h : Settles Q) (hPQ : ∀ n, Q n → P n) : Settles P := by
  obtain ⟨N, hN⟩ := h
  exact ⟨N, fun n hn => hPQ n (hN n hn)⟩

/-- What holds from some number of turns on is not refuted by what holds from another on. -/
theorem Settles.and_exists (h : Settles P) (h' : Settles Q) : ∃ n, P n ∧ Q n := by
  obtain ⟨N, hN⟩ := h
  obtain ⟨M, hM⟩ := h'
  exact ⟨max N M, hN _ (Nat.le_max_left N M), hM _ (Nat.le_max_right N M)⟩

end

end Loop
