/-
  Procedures that read one region of a memory and write another.

  A procedure reads its source and works on its target; in a memory, both are regions.
-/
import Mathlib.Data.List.Basic
import Mathlib.Logic.Function.Basic
import Mathlib.Tactic

namespace Regions

variable {ρ β α : Type}

/-- A procedure with cells in `β` and results in `α`. -/
inductive Procedure (β α : Type) where
  | done (result : α)
  | readSource (i : ℕ) (next : β → Procedure β α)
  | readTarget (i : ℕ) (next : β → Procedure β α)
  | write (i : ℕ) (b : β) (next : Procedure β α)

/-- The first cells of a region. -/
def cells (f : ℕ → β) (n : ℕ) : List β := (List.range n).map f

@[simp] theorem length_cells (f : ℕ → β) (n : ℕ) : (cells f n).length = n := by
  rw [cells, List.length_map, List.length_range]

theorem cells_congr {f g : ℕ → β} {n : ℕ} (h : ∀ i, i < n → f i = g i) : cells f n = cells g n :=
  List.map_congr_left fun i hi => h i (List.mem_range.1 hi)

theorem cells_getD (l : List β) (b : β) : cells (fun i => l.getD i b) l.length = l := by
  refine List.ext_getElem (by simp) fun i hi hi' => ?_
  simp [cells, List.getElem?_eq_getElem hi']

namespace Procedure

/-- A procedure on a source of its own: its result and its target. -/
def alone (source : ℕ → β) : Procedure β α → (ℕ → β) → α × (ℕ → β)
  | done result, target => (result, target)
  | readSource i next, target => alone source (next (source i)) target
  | readTarget i next, target => alone source (next (target i)) target
  | write i b next, target => alone source next (Function.update target i b)

section Memory

variable [DecidableEq ρ]

/-- A procedure on two regions of a memory. -/
def run (src dst : ρ) : Procedure β α → (ρ → ℕ → β) → α × (ρ → ℕ → β)
  | done result, m => (result, m)
  | readSource i next, m => run src dst (next (m src i)) m
  | readTarget i next, m => run src dst (next (m dst i)) m
  | write i b next, m => run src dst next (Function.update m dst (Function.update (m dst) i b))

/-- **What a procedure writes is not what it reads.** -/
theorem run_eq {src dst : ρ} (h : src ≠ dst) (p : Procedure β α) : ∀ m : ρ → ℕ → β,
    p.run src dst m = ((p.alone (m src) (m dst)).1,
      Function.update m dst (p.alone (m src) (m dst)).2) := by
  induction p with
  | done result =>
    intro m
    rw [run, alone, Function.update_eq_self]
  | readSource i next ih => exact fun m => ih (m src i) m
  | readTarget i next ih => exact fun m => ih (m dst i) m
  | write i b next ih =>
    intro m
    rw [run, ih, alone, Function.update_of_ne h, Function.update_self, Function.update_idem]

end Memory

/-- Copying cells from `i` on, one after the other. -/
def copyFrom (i : ℕ) : ℕ → Procedure β Unit
  | 0 => done ()
  | n + 1 => readSource i fun b => write i b (copyFrom (i + 1) n)

theorem alone_copyFrom (source : ℕ → β) (n : ℕ) : ∀ (i : ℕ) (target : ℕ → β),
    ((copyFrom i n).alone source target).2 =
      fun j => if i ≤ j ∧ j < i + n then source j else target j := by
  induction n with
  | zero =>
    intro i target
    funext j
    rw [copyFrom, alone, if_neg (by omega)]
  | succ n ih =>
    intro i target
    rw [copyFrom, alone, alone, ih]
    funext j
    by_cases hij : j = i
    · subst hij
      rw [if_neg (by omega), if_pos (by omega), Function.update_self]
    · rw [Function.update_of_ne hij]
      by_cases h : i ≤ j ∧ j < i + (n + 1)
      · rw [if_pos h, if_pos (by omega)]
      · rw [if_neg h, if_neg (by omega)]

/-- A copy has the cells of its source. -/
theorem cells_copy (source target : ℕ → β) (n : ℕ) :
    cells ((copyFrom 0 n).alone source target).2 n = cells source n := by
  rw [alone_copyFrom]
  exact cells_congr fun i hi => if_pos ⟨Nat.zero_le i, by omega⟩

/-- Writing cells from `i` on, and the end. -/
def writeAll (result : α) (i : ℕ) : List β → Procedure β α
  | [] => done result
  | b :: bs => write i b (writeAll result (i + 1) bs)

/-- Reading `n` cells of the source from `i` on. -/
def readAll (i : ℕ) : ℕ → (List β → Procedure β α) → Procedure β α
  | 0, next => next []
  | n + 1, next => readSource i fun b => readAll (i + 1) n fun bs => next (b :: bs)

/-- A function of the source: reading everything, then writing. -/
def ofFunction (n : ℕ) (f : List β → α × List β) : Procedure β α :=
  readAll 0 n fun bs => writeAll (f bs).1 0 (f bs).2

theorem alone_readAll (source : ℕ → β) (n : ℕ) : ∀ (i : ℕ) (next : List β → Procedure β α)
    (target : ℕ → β), (readAll i n next).alone source target =
      (next ((List.range n).map fun j => source (i + j))).alone source target := by
  induction n with
  | zero => exact fun _ _ _ => rfl
  | succ n ih =>
    intro i next target
    rw [readAll, alone, ih, List.range_succ_eq_map, List.map_cons, List.map_map, Nat.add_zero]
    congr 3
    refine List.map_congr_left fun j _ => ?_
    rw [Function.comp_apply, Nat.succ_eq_add_one, Nat.add_right_comm, Nat.add_assoc]

theorem alone_writeAll (source : ℕ → β) (result : α) (bs : List β) : ∀ (i : ℕ) (target : ℕ → β),
    ((writeAll result i bs).alone source target).1 = result ∧
      (∀ j, j < i → ((writeAll result i bs).alone source target).2 j = target j) ∧
      (List.range bs.length).map
        (fun j => ((writeAll result i bs).alone source target).2 (i + j)) = bs := by
  induction bs with
  | nil => exact fun i target => ⟨rfl, fun _ _ => rfl, rfl⟩
  | cons b bs ih =>
    intro i target
    obtain ⟨hresult, hbefore, hcells⟩ := ih (i + 1) (Function.update target i b)
    rw [writeAll, alone]
    refine ⟨hresult, fun j hj => ?_, ?_⟩
    · rw [hbefore j (by omega), Function.update_of_ne (by omega)]
    · have hfirst : ((writeAll result (i + 1) bs).alone source
          (Function.update target i b)).2 (i + 0) = b := by
        rw [hbefore (i + 0) (by omega), Nat.add_zero, Function.update_self]
      rw [List.length_cons, List.range_succ_eq_map, List.map_cons, List.map_map, hfirst]
      congr 1
      conv_rhs => rw [← hcells]
      refine List.map_congr_left fun j _ => ?_
      rw [Function.comp_apply, Nat.succ_eq_add_one, Nat.add_right_comm, Nat.add_assoc]

/-- A function of the source is computed. -/
theorem alone_ofFunction (n : ℕ) (f : List β → α × List β) (source target : ℕ → β) :
    ((ofFunction n f).alone source target).1 = (f (cells source n)).1 ∧
      cells ((ofFunction n f).alone source target).2 (f (cells source n)).2.length =
        (f (cells source n)).2 := by
  have hread : (ofFunction n f).alone source target =
      (writeAll (f (cells source n)).1 0 (f (cells source n)).2).alone source target := by
    rw [ofFunction, alone_readAll]
    simp only [Nat.zero_add]
    rfl
  obtain ⟨hresult, -, hcells⟩ := alone_writeAll source (f (cells source n)).1
    (f (cells source n)).2 0 target
  rw [hread]
  simp only [Nat.zero_add] at hcells
  exact ⟨hresult, hcells⟩

end Procedure

end Regions
