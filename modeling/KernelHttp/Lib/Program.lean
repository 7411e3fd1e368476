/-
  Programs that read and write a state and may fail, as `EStateM`.

  A program that fails leaves the state as it was at that point.
-/
import Mathlib

namespace Program

variable {ε σ α β : Type}

/-- A condition that is checked. -/
def require (c : Prop) [Decidable c] (e : ε) : EStateM ε σ Unit := if c then pure () else throw e

/-- A part that is only run under a condition. -/
def when (c : Prop) [Decidable c] (p : EStateM ε σ Unit) : EStateM ε σ Unit :=
  if c then p else pure ()

/-- A part whose failure is looked at; the state stays as the part has left it. -/
def attempt (p : EStateM ε σ α) : EStateM ε σ (Except ε α) := fun s =>
  match p s with
  | .ok a s' => .ok (.ok a) s'
  | .error e s' => .ok (.error e) s'

/-- Whether a program returns. -/
def returns (p : EStateM ε σ α) (s : σ) : Bool :=
  match p s with
  | .ok _ _ => true
  | .error _ _ => false

/-- The state in which a program ends, whether it returns or fails. -/
def after (p : EStateM ε σ α) (s : σ) : σ :=
  match p s with
  | .ok _ s' => s'
  | .error _ s' => s'

theorem after_of_ok {p : EStateM ε σ α} {s s' : σ} {a : α} (h : p s = .ok a s') :
    after p s = s' := by
  rw [after, h]

theorem eq_ok_of_returns {p : EStateM ε σ Unit} {s : σ} (h : returns p s = true) :
    p s = .ok () (after p s) := by
  rw [returns] at h
  rw [after]
  cases hp : p s with
  | ok a s' => rfl
  | error e s' =>
    rw [hp] at h
    cases h

/-! ## Sequences -/

theorem bind_apply (p : EStateM ε σ α) (f : α → EStateM ε σ β) (s : σ) :
    (p >>= f) s = match p s with
      | .ok a s' => f a s'
      | .error e s' => .error e s' := rfl

theorem bind_of_ok {p : EStateM ε σ α} {s s' : σ} {a : α} (h : p s = .ok a s')
    (f : α → EStateM ε σ β) : (p >>= f) s = f a s' := by
  rw [bind_apply, h]

theorem bind_of_error {p : EStateM ε σ α} {s s' : σ} {e : ε} (h : p s = .error e s')
    (f : α → EStateM ε σ β) : (p >>= f) s = .error e s' := by
  rw [bind_apply, h]

theorem bind_eq_ok {p : EStateM ε σ α} {f : α → EStateM ε σ β} {s s' : σ} {b : β}
    (h : (p >>= f) s = .ok b s') : ∃ a t, p s = .ok a t ∧ f a t = .ok b s' := by
  rw [bind_apply] at h
  cases hp : p s with
  | ok a t =>
    rw [hp] at h
    exact ⟨a, t, rfl, h⟩
  | error e t =>
    rw [hp] at h
    cases h

theorem bind_eq_error {p : EStateM ε σ α} {f : α → EStateM ε σ β} {s s' : σ} {e : ε}
    (h : (p >>= f) s = .error e s') :
    p s = .error e s' ∨ ∃ a t, p s = .ok a t ∧ f a t = .error e s' := by
  rw [bind_apply] at h
  cases hp : p s with
  | ok a t =>
    rw [hp] at h
    exact .inr ⟨a, t, rfl, h⟩
  | error e' t =>
    rw [hp] at h
    cases h
    exact .inl rfl

@[simp] theorem ofExcept_ok (a : α) (s : σ) :
    (ofExcept (.ok a : Except ε α) : EStateM ε σ α) s = .ok a s := rfl

@[simp] theorem ofExcept_error (e : ε) (s : σ) :
    (ofExcept (.error e : Except ε α) : EStateM ε σ α) s = .error e s := rfl

theorem ofExcept_eq_ok {x : Except ε α} {a : α} {s s' : σ}
    (h : (ofExcept x : EStateM ε σ α) s = .ok a s') : x = .ok a ∧ s = s' := by
  cases x with
  | ok b =>
    cases h
    exact ⟨rfl, rfl⟩
  | error e => cases h

theorem ofExcept_eq_error {x : Except ε α} {e : ε} {s s' : σ}
    (h : (ofExcept x : EStateM ε σ α) s = .error e s') : x = .error e ∧ s = s' := by
  cases x with
  | ok b => cases h
  | error e' =>
    cases h
    exact ⟨rfl, rfl⟩

variable {u : Unit}

theorem require_eq_ok {c : Prop} [Decidable c] {e : ε} {s s' : σ}
    (h : (require c e : EStateM ε σ Unit) s = .ok u s') : c ∧ s = s' := by
  rw [require] at h
  split at h
  · cases h
    exact ⟨‹c›, rfl⟩
  · cases h

theorem require_of {c : Prop} [Decidable c] (h : c) (e : ε) (s : σ) :
    (require c e : EStateM ε σ Unit) s = .ok () s := by
  rw [require, if_pos h]
  rfl

theorem require_of_not {c : Prop} [Decidable c] (h : ¬ c) (e : ε) (s : σ) :
    (require c e : EStateM ε σ Unit) s = .error e s := by
  rw [require, if_neg h]
  rfl

theorem when_of {c : Prop} [Decidable c] (h : c) (p : EStateM ε σ Unit) : when c p = p := if_pos h

theorem when_of_not {c : Prop} [Decidable c] (h : ¬ c) (p : EStateM ε σ Unit) :
    when c p = pure () := if_neg h

theorem when_eq_ok {c : Prop} [Decidable c] {p : EStateM ε σ Unit} {s s' : σ}
    (h : when c p s = .ok u s') : c ∧ p s = .ok u s' ∨ ¬ c ∧ s = s' := by
  rw [when] at h
  split at h
  · exact .inl ⟨‹c›, h⟩
  · cases h
    exact .inr ⟨‹¬ c›, rfl⟩

/-! ## How a program ends -/

/-- From `s`, the program returns with `Q`, or fails with `e` and `R e`. -/
def EndsAt (Q : σ → σ → Prop) (R : ε → σ → σ → Prop) (s : σ) (p : EStateM ε σ α) : Prop :=
  match p s with
  | .ok _ s' => Q s s'
  | .error e s' => R e s s'

/-- When `p` returns, `Q` holds between the states before and after it, and when it fails with `e`,
`R e` does. -/
def Ends (Q : σ → σ → Prop) (R : ε → σ → σ → Prop) (p : EStateM ε σ α) : Prop :=
  ∀ s, EndsAt Q R s p

/-- What holds of the parts of a sequence one after the other holds of the sequence. -/
structure Composes (Q : σ → σ → Prop) (R : ε → σ → σ → Prop) : Prop where
  refl : ∀ s, Q s s
  trans : ∀ {s t u}, Q s t → Q t u → Q s u
  fails : ∀ {s t u e}, Q s t → R e t u → R e s u

variable {Q : σ → σ → Prop} {R : ε → σ → σ → Prop} {s : σ}

theorem endsAt_iff {p : EStateM ε σ α} : EndsAt Q R s p ↔
    (∀ a s', p s = .ok a s' → Q s s') ∧ ∀ e s', p s = .error e s' → R e s s' := by
  rw [EndsAt]
  cases p s with
  | ok a s' => simp
  | error e s' => simp

theorem EndsAt.ok {p : EStateM ε σ α} (h : EndsAt Q R s p) {s' : σ} {a : α}
    (hp : p s = .ok a s') : Q s s' := (endsAt_iff.1 h).1 a s' hp

theorem EndsAt.error {p : EStateM ε σ α} (h : EndsAt Q R s p) {s' : σ} {e : ε}
    (hp : p s = .error e s') : R e s s' := (endsAt_iff.1 h).2 e s' hp

theorem EndsAt.mono {Q' : σ → σ → Prop} {R' : ε → σ → σ → Prop} {p : EStateM ε σ α}
    (h : EndsAt Q R s p) (hQ : ∀ s', Q s s' → Q' s s') (hR : ∀ e s', R e s s' → R' e s s') :
    EndsAt Q' R' s p :=
  endsAt_iff.2 ⟨fun _ s' hp => hQ s' (h.ok hp), fun e s' hp => hR e s' (h.error hp)⟩

/-- What a sequence does, by what its second part does from where the first has ended. -/
theorem EndsAt.bind {p : EStateM ε σ α} {f : α → EStateM ε σ β}
    (hp : ∀ e s', p s = .error e s' → R e s s')
    (hf : ∀ a t, p s = .ok a t → EndsAt (fun _ => Q s) (fun e _ => R e s) t (f a)) :
    EndsAt Q R s (p >>= f) := by
  rw [endsAt_iff]
  constructor
  · intro b s' h
    obtain ⟨a, t, hpt, hft⟩ := bind_eq_ok h
    exact (hf a t hpt).ok hft
  · intro e s' h
    obtain hpe | ⟨a, t, hpt, hft⟩ := bind_eq_error h
    · exact hp e s' hpe
    · exact (hf a t hpt).error hft

/-- A program that continues as another one from another state. -/
theorem EndsAt.of_eq {p q : EStateM ε σ α} {t : σ} (h : p s = q t)
    (hq : EndsAt (fun _ => Q s) (fun e _ => R e s) t q) : EndsAt Q R s p := by
  rw [EndsAt, h]
  exact hq

theorem EndsAt.modify {f : σ → σ} (h : Q s (f s)) :
    EndsAt Q R s (modify f : EStateM ε σ PUnit) := h

theorem EndsAt.set {t : σ} (h : Q s t) : EndsAt Q R s (set t : EStateM ε σ PUnit) := h

theorem EndsAt.throw {e : ε} (h : R e s s) : EndsAt Q R s (throw e : EStateM ε σ α) := h

theorem EndsAt.get_bind {f : σ → EStateM ε σ α} (h : EndsAt Q R s (f s)) :
    EndsAt Q R s (get >>= f) := h

theorem EndsAt.ite {c : Prop} [Decidable c] {p q : EStateM ε σ α} (hp : c → EndsAt Q R s p)
    (hq : ¬ c → EndsAt Q R s q) : EndsAt Q R s (if c then p else q) := by
  split
  · exact hp ‹c›
  · exact hq ‹¬ c›

section

variable (hC : Composes Q R)
include hC

theorem Composes.bind {p : EStateM ε σ α} {f : α → EStateM ε σ β} (hp : EndsAt Q R s p)
    (hf : ∀ a t, p s = .ok a t → EndsAt Q R t (f a)) : EndsAt Q R s (p >>= f) :=
  EndsAt.bind (fun _ _ hpe => hp.error hpe) fun a t hpt =>
    (hf a t hpt).mono (fun _ => hC.trans (hp.ok hpt)) fun _ _ => hC.fails (hp.ok hpt)

theorem Composes.pure (a : α) : EndsAt Q R s (pure a : EStateM ε σ α) := hC.refl s

theorem Composes.ofExcept {x : Except ε α} (h : ∀ e, x = .error e → R e s s) :
    EndsAt Q R s (ofExcept x : EStateM ε σ α) := by
  cases x with
  | ok a => exact hC.refl s
  | error e => exact h e rfl

theorem Composes.require {c : Prop} [Decidable c] {e : ε} (h : R e s s) :
    EndsAt Q R s (require c e : EStateM ε σ Unit) :=
  EndsAt.ite (fun _ => hC.refl s) fun _ => h

theorem Composes.when {c : Prop} [Decidable c] {p : EStateM ε σ Unit}
    (h : c → EndsAt Q R s p) : EndsAt Q R s (when c p) :=
  EndsAt.ite h fun _ => hC.refl s

end

/-! ## Programs that make steps -/

open Relation

variable {κ : Type}

/-- Seen through `view`, the program makes steps, whether it returns or fails. -/
def Makes (view : σ → κ) (step : κ → κ → Prop) (p : EStateM ε σ α) : Prop :=
  Ends (fun s t => ReflTransGen step (view s) (view t))
    (fun _ s t => ReflTransGen step (view s) (view t)) p

namespace Makes

variable {view : σ → κ} {step step' : κ → κ → Prop} {p : EStateM ε σ α}

theorem composes : Composes (fun s t => ReflTransGen step (view s) (view t))
    fun (_ : ε) s t => ReflTransGen step (view s) (view t) where
  refl _ := .refl
  trans := .trans
  fails := .trans

theorem bind {f : α → EStateM ε σ β} (hp : Makes view step p) (hf : ∀ a, Makes view step (f a)) :
    Makes view step (p >>= f) := fun s => composes.bind (hp s) fun a t _ => hf a t

/-- What follows a state that is read may use that it is the state. -/
theorem get_bind {f : σ → EStateM ε σ α}
    (h : ∀ s, EndsAt (fun s t => ReflTransGen step (view s) (view t))
      (fun _ s t => ReflTransGen step (view s) (view t)) s (f s)) :
    Makes view step (get >>= f) := h

theorem read {f : σ → EStateM ε σ α} (h : ∀ s, Makes view step (f s)) :
    Makes view step (get >>= f) := fun s => h s s

/-- The rest of a program from where a computed value has been stored. -/
theorem set_bind {s t : σ} (h : ReflTransGen step (view s) (view t)) (hp : Makes view step p) :
    EndsAt (fun s t => ReflTransGen step (view s) (view t))
      (fun _ s t => ReflTransGen step (view s) (view t)) s (set t >>= fun _ => p) :=
  composes.bind (EndsAt.set h) fun _ t' _ => hp t'

theorem ofExcept_bind {s : σ} {x : Except ε α} {f : α → EStateM ε σ β}
    (h : ∀ a, x = .ok a → EndsAt (fun s t => ReflTransGen step (view s) (view t))
      (fun _ s t => ReflTransGen step (view s) (view t)) s (f a)) :
    EndsAt (fun s t => ReflTransGen step (view s) (view t))
      (fun _ s t => ReflTransGen step (view s) (view t)) s (ofExcept x >>= f) :=
  composes.bind (composes.ofExcept fun _ _ => .refl) fun a t ht => by
    obtain ⟨hx, rfl⟩ := ofExcept_eq_ok ht
    exact h a hx

theorem pure (a : α) : Makes view step (Pure.pure a : EStateM ε σ α) :=
  fun _ => composes.pure a

theorem throw (e : ε) : Makes view step (throw e : EStateM ε σ α) := fun _ => EndsAt.throw .refl

theorem ofExcept (x : Except ε α) : Makes view step (ofExcept x : EStateM ε σ α) :=
  fun _ => composes.ofExcept fun _ _ => .refl

theorem require {c : Prop} [Decidable c] (e : ε) :
    Makes view step (require c e : EStateM ε σ Unit) := fun _ => composes.require .refl

theorem when {c : Prop} [Decidable c] {p : EStateM ε σ Unit} (h : Makes view step p) :
    Makes view step (when c p) := fun s => composes.when fun _ => h s

theorem ite {c : Prop} [Decidable c] {q : EStateM ε σ α} (hp : Makes view step p)
    (hq : Makes view step q) : Makes view step (if c then p else q) :=
  fun s => EndsAt.ite (fun _ => hp s) fun _ => hq s

/-- A change that the view does not show. -/
theorem modify_aside {f : σ → σ} (h : ∀ s, view (f s) = view s) :
    Makes view step (modify f : EStateM ε σ PUnit) := fun s =>
  EndsAt.modify (by rw [h s])

theorem modify {f : σ → σ} (h : ∀ s, step (view s) (view (f s))) :
    Makes view step (modify f : EStateM ε σ PUnit) := fun s => EndsAt.modify (.single (h s))

/-- A program that continues as another one from another state. -/
theorem of_eq {s t : σ} {q : EStateM ε σ α} (h : p s = q t)
    (hst : ReflTransGen step (view s) (view t)) (hq : Makes view step q) :
    EndsAt (fun s t => ReflTransGen step (view s) (view t))
      (fun _ s t => ReflTransGen step (view s) (view t)) s p :=
  EndsAt.of_eq h ((hq t).mono (fun _ => hst.trans) fun _ _ => hst.trans)

theorem mono (h : Makes view step p) (hstep : ∀ s t, step s t → step' s t) :
    Makes view step' p :=
  fun s => (h s).mono (fun _ => ReflTransGen.mono hstep _ _) fun _ _ => ReflTransGen.mono hstep _ _

end Makes

/-! ## Programs that keep an invariant -/

/-- The program keeps `I`, whether it returns or fails. -/
def Keeps (I : σ → Prop) (p : EStateM ε σ α) : Prop :=
  Ends (fun s t => I s → I t) (fun _ s t => I s → I t) p

namespace Keeps

variable {I : σ → Prop} {p : EStateM ε σ α}

theorem composes : Composes (fun s t => I s → I t) fun (_ : ε) s t => I s → I t where
  refl _ := id
  trans h h' := h' ∘ h
  fails h h' := h' ∘ h

theorem bind {f : α → EStateM ε σ β} (hp : Keeps I p) (hf : ∀ a, Keeps I (f a)) :
    Keeps I (p >>= f) := fun s => composes.bind (hp s) fun a t _ => hf a t

/-- What follows a state that is read may use that it has the invariant. -/
theorem get_bind {f : σ → EStateM ε σ α}
    (h : ∀ s, I s → EndsAt (fun _ => I) (fun _ _ => I) s (f s)) : Keeps I (get >>= f) :=
  fun s => endsAt_iff.2
    ⟨fun _ _ hp hs => (h s hs).ok hp, fun _ _ hp hs => (h s hs).error hp⟩

theorem endsAt (h : Keeps I p) {s : σ} (hs : I s) : EndsAt (fun _ => I) (fun _ _ => I) s p :=
  (h s).mono (fun _ ht => ht hs) fun _ _ ht => ht hs

theorem throw (e : ε) : Keeps I (throw e : EStateM ε σ α) := fun _ => EndsAt.throw id

theorem ite {c : Prop} [Decidable c] {q : EStateM ε σ α} (hp : Keeps I p) (hq : Keeps I q) :
    Keeps I (if c then p else q) := fun s => EndsAt.ite (fun _ => hp s) fun _ => hq s

theorem after (h : Keeps I p) {s : σ} (hs : I s) : I (after p s) := by
  rw [Program.after]
  cases hp : p s with
  | ok a t => exact (h s).ok hp hs
  | error e t => exact (h s).error hp hs

end Keeps

/-- What every step keeps, a run keeps. -/
theorem invariant_of_steps {step : κ → κ → Prop} {I : κ → Prop}
    (hstep : ∀ s t, step s t → I s → I t) {s t : κ} (h : ReflTransGen step s t) (hs : I s) :
    I t := by
  induction h with
  | refl => exact hs
  | tail _ ht ih => exact hstep _ _ ht ih

end Program
