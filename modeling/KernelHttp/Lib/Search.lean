/-
  Searches that end at the first hit.

  `List.anyM` in `Except` tests the entries one after the other, until a test holds or fails.
-/
import KernelHttp.Lib.Incremental

namespace Search

open Incremental

variable {α ε : Type*} {p : α → Except ε Bool} {l l' : List α}

variable {b : Bool}

theorem anyM_cons_of_ok {a : α} (h : p a = .ok b) :
    (a :: l).anyM p = if b then .ok true else l.anyM p := by
  rw [List.anyM, bind_of_ok h]
  cases b <;> rfl

theorem anyM_cons_of_error {a : α} {e : ε} (h : p a = .error e) : (a :: l).anyM p = .error e := by
  rw [List.anyM, h]
  rfl

/-- **A search goes on where nothing was hit.** -/
theorem anyM_append (l l' : List α) :
    (l ++ l').anyM p = l.anyM p >>= fun b => if b then .ok true else l'.anyM p := by
  induction l with
  | nil => rfl
  | cons a l ih =>
    rw [List.cons_append]
    cases h : p a with
    | error e =>
      rw [anyM_cons_of_error h, anyM_cons_of_error h]
      rfl
    | ok b =>
      rw [anyM_cons_of_ok h, anyM_cons_of_ok h, ih]
      cases b <;> rfl

theorem anyM_of_ok {q : α → Bool} (h : ∀ a ∈ l, p a = .ok (q a)) : l.anyM p = .ok (l.any q) := by
  induction l with
  | nil => rfl
  | cons a l ih =>
    obtain ⟨ha, hl⟩ := List.forall_mem_cons.1 h
    rw [anyM_cons_of_ok ha, ih hl, List.any_cons]
    cases q a <;> rfl

/-- **Without failing tests the order does not matter.** -/
theorem anyM_perm (hperm : l.Perm l') (h : ∀ a ∈ l, ∃ b, p a = .ok b) : l.anyM p = l'.anyM p := by
  choose! q hq using h
  rw [anyM_of_ok hq, anyM_of_ok fun a ha => hq a (hperm.mem_iff.2 ha), hperm.any_eq]

/-- **A failing test among others**: it decides unless there was a hit before it. -/
theorem anyM_insert_error {a : α} {e : ε} (ha : p a = .error e) (h : (l ++ l').anyM p = .ok b) :
    (l.anyM p = .ok true ∧ b = true ∧ (l ++ a :: l').anyM p = .ok true) ∨
      (l.anyM p = .ok false ∧ (l ++ a :: l').anyM p = .error e) := by
  rw [anyM_append] at h ⊢
  obtain ⟨hit, hl, h⟩ := bind_eq_ok h
  rw [hl, bind_of_ok rfl, anyM_cons_of_error ha]
  cases hit with
  | true => exact .inl ⟨rfl, (Except.ok.inj h).symm, rfl⟩
  | false => exact .inr ⟨rfl, rfl⟩

end Search
