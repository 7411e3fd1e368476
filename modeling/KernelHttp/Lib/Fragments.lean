/-
  Messages sent in fragments.

  A fragment begins a message or goes on with the one that is open; the last one ends it.
-/
import Mathlib

namespace Fragments

variable {κ α : Type*}

/-- A fragment: the kind of the message that it begins, or none for a continuation. -/
structure Fragment (κ α : Type*) where
  kind : Option κ
  final : Bool
  payload : List α
deriving DecidableEq

/-- The messages that are finished, and the message that is open. -/
structure Assembly (κ α : Type*) where
  messages : List (κ × List α) := []
  opening : Option (κ × List α) := none

/-- A message with its last fragment, or with one more fragment. -/
def Assembly.extend (a : Assembly κ α) (k : κ) (p : List α) (final : Bool) : Assembly κ α :=
  if final then ⟨a.messages ++ [(k, p)], none⟩ else ⟨a.messages, some (k, p)⟩

def step (a : Assembly κ α) (f : Fragment κ α) : Option (Assembly κ α) :=
  match f.kind, a.opening with
  | some k, none => some (a.extend k f.payload f.final)
  | none, some (k, p) => some (a.extend k (p ++ f.payload) f.final)
  | _, _ => none

def assemble (a : Assembly κ α) (fs : List (Fragment κ α)) : Option (Assembly κ α) :=
  fs.foldlM step a

@[simp] theorem assemble_nil (a : Assembly κ α) : assemble a [] = some a := rfl

theorem assemble_cons (a : Assembly κ α) (f : Fragment κ α) (fs : List (Fragment κ α)) :
    assemble a (f :: fs) = (step a f).bind fun a => assemble a fs := by
  rw [assemble, List.foldlM_cons]
  rfl

@[simp] theorem assemble_singleton (a : Assembly κ α) (f : Fragment κ α) :
    assemble a [f] = step a f := by
  rw [assemble_cons]
  cases step a f <;> rfl

theorem assemble_append (a : Assembly κ α) (fs gs : List (Fragment κ α)) :
    assemble a (fs ++ gs) = (assemble a fs).bind fun a => assemble a gs := by
  rw [assemble, List.foldlM_append]
  rfl

/-- The message that a fragment belongs to, and its payload up to the end of the fragment. -/
def Fragment.target (f : Fragment κ α) (opening : Option (κ × List α)) : Option (κ × List α) :=
  match f.kind, opening with
  | some k, none => some (k, f.payload)
  | none, some (k, p) => some (k, p ++ f.payload)
  | _, _ => none

theorem step_target (a : Assembly κ α) (f : Fragment κ α) :
    step a f = (f.target a.opening).map fun kp => a.extend kp.1 kp.2 f.final := by
  obtain ⟨kind, final, payload⟩ := f
  obtain ⟨m, o⟩ := a
  cases kind <;> cases o <;> rfl

/-- A fragment that is not the last of its message leaves the finished messages. -/
theorem step_messages {a b : Assembly κ α} {f : Fragment κ α} (h : step a f = some b)
    (hf : f.final = false) : b.messages = a.messages := by
  rw [step_target] at h
  obtain ⟨kp, -, rfl⟩ := Option.map_eq_some_iff.1 h
  rw [hf]
  rfl

theorem assemble_messages {fs : List (Fragment κ α)} (hf : ∀ f ∈ fs, f.final = false) :
    ∀ {a b : Assembly κ α}, assemble a fs = some b → b.messages = a.messages := by
  induction fs with
  | nil =>
    intro a b h
    rw [assemble_nil, Option.some.injEq] at h
    rw [h]
  | cons f fs ih =>
    intro a b h
    rw [assemble_cons] at h
    obtain ⟨c, hc, h⟩ := Option.bind_eq_some_iff.1 h
    rw [ih (fun g hg => hf g (List.mem_cons_of_mem f hg)) h,
      step_messages hc (hf f List.mem_cons_self)]

/-- What begins a run of fragments that can be read can be read. -/
theorem assemble_of_append {a b : Assembly κ α} {fs gs : List (Fragment κ α)}
    (h : assemble a (fs ++ gs) = some b) : ∃ c, assemble a fs = some c := by
  rw [assemble_append] at h
  obtain ⟨c, hc, -⟩ := Option.bind_eq_some_iff.1 h
  exact ⟨c, hc⟩

/-- A fragment cut in two. -/
theorem step_split (a : Assembly κ α) (kind : Option κ) (final : Bool) (p q : List α) :
    (step a ⟨kind, false, p⟩).bind (fun a => step a ⟨none, final, q⟩) =
      step a ⟨kind, final, p ++ q⟩ := by
  obtain ⟨m, o⟩ := a
  cases kind with
  | none =>
    cases o with
    | none => rfl
    | some kp =>
      simp only [step, Option.bind_some, Assembly.extend, List.append_assoc, Bool.false_eq_true,
        if_false]
  | some k =>
    cases o with
    | none => rfl
    | some kp => rfl

/-- The pieces of a fragment, the last of them with its end. -/
def pieces (kind : Option κ) (final : Bool) : List (List α) → List (Fragment κ α)
  | [] => []
  | [p] => [⟨kind, final, p⟩]
  | p :: q :: ps => ⟨kind, false, p⟩ :: pieces none final (q :: ps)

theorem pieces_ne_nil {kind : Option κ} {final : Bool} {ps : List (List α)} (h : ps ≠ []) :
    pieces kind final ps ≠ [] := by
  match ps with
  | [] => exact absurd rfl h
  | [_] => exact List.cons_ne_nil _ _
  | _ :: _ :: _ => exact List.cons_ne_nil _ _

/-- Only the last piece ends the fragment. -/
theorem final_of_mem_pieces (final : Bool) :
    ∀ {kind : Option κ} {ps : List (List α)} {done left : List (Fragment κ α)},
      pieces kind final ps = done ++ left → left ≠ [] → ∀ f ∈ done, f.final = false
  | _, [], done, left, h, _ => by
    rw [pieces] at h
    rw [(List.append_eq_nil_iff.1 h.symm).1]
    exact fun f hf => absurd hf List.not_mem_nil
  | _, [p], done, left, h, hl => by
    rw [pieces] at h
    rcases List.append_eq_singleton_iff.1 h.symm with ⟨rfl, -⟩ | ⟨-, rfl⟩
    · exact fun f hf => absurd hf List.not_mem_nil
    · exact absurd rfl hl
  | _, p :: q :: ps, [], left, h, _ => fun f hf => absurd hf List.not_mem_nil
  | _, p :: q :: ps, d :: done, left, h, hl => by
    rw [pieces, List.cons_append, List.cons.injEq] at h
    obtain ⟨rfl, h⟩ := h
    rintro f (_ | ⟨_, hf⟩)
    · rfl
    · exact final_of_mem_pieces final h hl f hf

/-- A fragment may be cut into pieces. -/
theorem assemble_split (kind : Option κ) (final : Bool) :
    ∀ (a : Assembly κ α) (ps : List (List α)), ps ≠ [] →
      assemble a (pieces kind final ps) = step a ⟨kind, final, ps.flatten⟩
  | _, [], h => absurd rfl h
  | a, [p], _ => by
    rw [pieces, assemble_singleton, List.flatten_cons, List.flatten_nil, List.append_nil]
  | a, p :: q :: ps, _ => by
    rw [pieces, assemble_cons, List.flatten_cons, ← step_split]
    congr 1
    funext b
    exact assemble_split none final b (q :: ps) (List.cons_ne_nil _ _)

end Fragments
