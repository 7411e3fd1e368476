/-
  Changes of state that a program neither sees nor makes.

  `Commutes g p`: running `p` from a changed state is running it and changing what it leaves.
-/
import KernelHttp.Lib.Program

namespace Program

variable {ε σ α β : Type} {g : σ → σ}

def mapState (g : σ → σ) : EStateM.Result ε σ α → EStateM.Result ε σ α
  | .ok a s => .ok a (g s)
  | .error e s => .error e (g s)

/-- The program neither sees nor makes the change. -/
def Commutes (g : σ → σ) (p : EStateM ε σ α) : Prop := ∀ s, p (g s) = mapState g (p s)

namespace Commutes

variable {p : EStateM ε σ α}

theorem ok (h : Commutes g p) {s t : σ} {a : α} (hp : p s = .ok a t) : p (g s) = .ok a (g t) := by
  rw [h s, hp]
  rfl

theorem error (h : Commutes g p) {s t : σ} {e : ε} (hp : p s = .error e t) :
    p (g s) = .error e (g t) := by
  rw [h s, hp]
  rfl

/-- A change that does not show in the state before does not show in the state behind. -/
theorem ok_fixed (h : Commutes g p) {s t : σ} {a : α} (hp : p s = .ok a t) (hs : g s = s) :
    g t = t := by
  have hg := h.ok hp
  rw [hs, hp] at hg
  exact (EStateM.Result.ok.inj hg).2.symm

theorem pure (a : α) : Commutes g (Pure.pure a : EStateM ε σ α) := fun _ => rfl

theorem throw (e : ε) : Commutes g (throw e : EStateM ε σ α) := fun _ => rfl

theorem ofExcept (x : Except ε α) : Commutes g (ofExcept x : EStateM ε σ α) := by
  intro s
  cases x with
  | ok a => rfl
  | error e => rfl

theorem bind {f : α → EStateM ε σ β} (hp : Commutes g p) (hf : ∀ a, Commutes g (f a)) :
    Commutes g (p >>= f) := by
  intro s
  rw [bind_apply, bind_apply, hp s]
  cases p s with
  | ok a t => exact hf a t
  | error e t => rfl

/-- What is read is looked at only where the change does not show. -/
theorem read {f : σ → EStateM ε σ α} (hread : ∀ s, f (g s) (g s) = f s (g s))
    (hf : ∀ s, Commutes g (f s)) : Commutes g (get >>= f) :=
  fun s => (hread s).trans (hf s s)

/-- A state that is computed from the one before, and what follows. -/
theorem update {u : σ → σ} {f : σ → EStateM ε σ α} (hu : ∀ s, u (g s) = g (u s))
    (hread : ∀ s, f (g s) = f s) (hf : ∀ s, Commutes g (f s)) :
    Commutes g (do let s ← get; set (u s); f s) := by
  intro s
  have h := hf s (u s)
  rw [← hu s] at h
  exact (congrFun (hread s) _).trans h

theorem get_bind {f : σ → EStateM ε σ α} (h : ∀ s, f (g s) (g s) = mapState g (f s s)) :
    Commutes g (get >>= f) := h

theorem modify {f : σ → σ} (h : ∀ s, f (g s) = g (f s)) :
    Commutes g (modify f : EStateM ε σ PUnit) := by
  intro s
  exact congrArg (EStateM.Result.ok PUnit.unit) (h s)

theorem ite {c : Prop} [Decidable c] {q : EStateM ε σ α} (hp : Commutes g p)
    (hq : Commutes g q) : Commutes g (if c then p else q) := by
  split_ifs
  · exact hp
  · exact hq

theorem require {c : Prop} [Decidable c] (e : ε) : Commutes g (require c e : EStateM ε σ Unit) :=
  ite (pure ()) (throw e)

theorem when {c : Prop} [Decidable c] {p : EStateM ε σ Unit} (h : Commutes g p) :
    Commutes g (when c p) := ite h (pure ())

end Commutes

end Program
