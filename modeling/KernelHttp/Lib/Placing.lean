/-
  Computations that need room for their results.

  A computation is given capacities and stores results one after another; `place k x`
  says whether a result has room, or the error it fails with.
-/
import Mathlib

namespace Placing

variable {κ ω ε α β : Type} (place : κ → ω → Except ε Unit)

/-- Results are stored in order. -/
def store (k : κ) : List ω → Except ε Unit
  | [] => .ok ()
  | x :: xs => place k x >>= fun _ => store k xs

/-- `f` stores `results` and returns `a`. -/
def Gives (f : κ → Except ε α) (a : α) (results : List ω) : Prop :=
  ∀ k, f k = store place k results >>= fun _ => .ok a

/-- What `f` returns for some capacities, `g` gives; `g` may check more than `f`. -/
def Sized (f g : κ → Except ε α) : Prop :=
  ∀ k a, f k = .ok a → ∃ results, Gives place g a results

variable {place}

theorem store_append {k : κ} {xs ys : List ω} :
    store place k (xs ++ ys) = store place k xs >>= fun _ => store place k ys := by
  induction xs with
  | nil => rfl
  | cons x xs ih =>
    rw [List.cons_append, store, store, ih]
    cases place k x <;> rfl

theorem store_eq_ok {k : κ} {xs : List ω} :
    store place k xs = .ok () ↔ ∀ x ∈ xs, place k x = .ok () := by
  induction xs with
  | nil => exact ⟨fun _ x hx => absurd hx List.not_mem_nil, fun _ => rfl⟩
  | cons x xs ih =>
    rw [List.forall_mem_cons, store, ← ih]
    cases hx : place k x with
    | error e => exact ⟨nofun, fun h => nomatch h.1⟩
    | ok u => exact ⟨fun h => ⟨rfl, h⟩, fun h => h.2⟩

/-- A failure is that of a result. -/
theorem store_eq_error {k : κ} {xs : List ω} {e : ε} (h : store place k xs = .error e) :
    ∃ x ∈ xs, place k x = .error e := by
  induction xs with
  | nil => cases h
  | cons x xs ih =>
    rw [store] at h
    cases hx : place k x with
    | error e' =>
      rw [hx] at h
      cases h
      exact ⟨x, List.mem_cons_self, hx⟩
    | ok u =>
      rw [hx] at h
      obtain ⟨y, hy, hye⟩ := ih h
      exact ⟨y, List.mem_cons_of_mem x hy, hye⟩

namespace Gives

variable {f : κ → Except ε α} {g : α → κ → Except ε β} {a : α} {b : β} {xs ys : List ω}

theorem ok_iff (h : Gives place f a xs) {k : κ} {a' : α} :
    f k = .ok a' ↔ a' = a ∧ store place k xs = .ok () := by
  rw [h k]
  cases store place k xs with
  | error e => exact ⟨nofun, fun h => nomatch h.2⟩
  | ok u =>
    refine ⟨fun h => ⟨(Except.ok.inj h).symm, rfl⟩, fun h => ?_⟩
    rw [h.1]
    rfl

theorem error_iff (h : Gives place f a xs) {k : κ} {e : ε} :
    f k = .error e ↔ store place k xs = .error e := by
  rw [h k]
  cases store place k xs with
  | error e' => exact ⟨fun h => congrArg _ (Except.error.inj h), fun h => congrArg _ (Except.error.inj h)⟩
  | ok u => exact ⟨nofun, nofun⟩

theorem pure (a : α) : Gives place (fun _ => .ok a) a [] := fun _ => rfl

theorem bind (hf : Gives place f a xs) (hg : Gives place (g a) b ys) :
    Gives place (fun k => f k >>= fun a => g a k) b (xs ++ ys) := by
  intro k
  simp only [hf k, store_append]
  cases store place k xs with
  | error e => rfl
  | ok u => exact hg k

end Gives

namespace Sized

variable {f g : κ → Except ε α} {f' g' : α → κ → Except ε β}

/-- A computation that does not look at the capacities. -/
theorem const (x : Except ε α) : Sized place (fun _ => x) fun _ => x := by
  intro k a h
  subst h
  exact ⟨[], .pure a⟩

theorem bind (h : Sized place f g) (h' : ∀ a, Sized place (f' a) (g' a)) :
    Sized place (fun k => f k >>= fun a => f' a k) fun k => g k >>= fun a => g' a k := by
  intro k b hb
  dsimp only at hb
  cases ha : f k with
  | error e =>
    rw [ha] at hb
    cases hb
  | ok a =>
    rw [ha] at hb
    obtain ⟨xs, hxs⟩ := h k a ha
    obtain ⟨ys, hys⟩ := h' a k b hb
    exact ⟨xs ++ ys, hxs.bind hys⟩

theorem ite {c : Prop} {_ : Decidable c} {f₂ g₂ : κ → Except ε α} (h : c → Sized place f g)
    (h₂ : ¬ c → Sized place f₂ g₂) :
    Sized place (fun k => if c then f k else f₂ k) fun k => if c then g k else g₂ k := by
  by_cases hc : c
  · simp only [hc, if_true]
    exact h hc
  · simp only [hc, if_false]
    exact h₂ hc

theorem foldlM {γ : Type} {step step' : κ → α → γ → Except ε α}
    (hstep : ∀ a c, Sized place (fun k => step k a c) fun k => step' k a c) :
    ∀ (l : List γ) (a : α), Sized place (fun k => l.foldlM (step k) a) fun k => l.foldlM (step' k) a
  | [], a => const (.ok a)
  | c :: l, a => by
    simp only [List.foldlM_cons]
    exact (hstep a c).bind fun a' => foldlM hstep l a'

end Sized

end Placing
