/-
  A memory that is written and read in pieces.
-/
import Mathlib.Data.List.Basic
import Mathlib.Tactic

namespace Overwriting

variable {β : Type}

/-- The memory with `data` from cell `i` on. -/
def write (m : ℕ → β) (i : ℕ) (data : List β) : ℕ → β := fun j =>
  if i ≤ j then (data[j - i]?).getD (m j) else m j

/-- The `n` cells from cell `i` on. -/
def read (m : ℕ → β) (i n : ℕ) : List β := (List.range n).map fun j => m (i + j)

/-- Two pieces that have no cell in common. -/
def Apart (i n j k : ℕ) : Prop := i + n ≤ j ∨ j + k ≤ i

instance (i n j k : ℕ) : Decidable (Apart i n j k) := inferInstanceAs (Decidable (_ ∨ _))

variable {m m' : ℕ → β} {i j n k : ℕ} {data : List β}

@[simp] theorem length_read : (read m i n).length = n := by
  rw [read, List.length_map, List.length_range]

theorem read_congr (h : ∀ j, i ≤ j → j < i + n → m j = m' j) : read m i n = read m' i n := by
  refine List.map_congr_left fun j hj => h _ (Nat.le_add_right i j) ?_
  exact Nat.add_lt_add_left (List.mem_range.1 hj) i

theorem read_add : read m i (n + k) = read m i n ++ read m (i + n) k := by
  rw [read, List.range_add, List.map_append, List.map_map]
  congr 1
  refine List.map_congr_left fun j _ => ?_
  rw [Function.comp_apply, Nat.add_assoc]

/-- A part of a piece. -/
theorem read_drop_take (h : j + k ≤ n) : ((read m i n).drop j).take k = read m (i + j) k := by
  obtain ⟨l, rfl⟩ := Nat.exists_eq_add_of_le h
  rw [Nat.add_assoc, read_add, read_add, List.drop_left' length_read, List.take_left' length_read]

theorem write_of_apart (h : j < i ∨ i + data.length ≤ j) : write m i data j = m j := by
  rw [write]
  split
  · rw [List.getElem?_eq_none (by omega), Option.getD_none]
  · rfl

/-- **What a write does not touch stays.** -/
theorem read_write_of_apart (h : Apart i data.length j k) :
    read (write m i data) j k = read m j k := by
  refine read_congr fun l hl hlt => write_of_apart ?_
  rcases h with h | h
  · exact .inr (h.trans hl)
  · exact .inl (hlt.trans_le h)

theorem read_write_self : read (write m i data) i data.length = data := by
  refine List.ext_getElem length_read fun l hl hlt => ?_
  rw [length_read] at hl
  simp [read, write, List.getElem?_eq_getElem hlt]

/-- From cell `i` on, the memory holds `data`. -/
def Holds (m : ℕ → β) (i : ℕ) (data : List β) : Prop := read m i data.length = data

theorem Holds.nil : Holds m i [] := rfl

/-- What is written behind held data is held with it. -/
theorem Holds.write_append (h : Holds m i data) (more : List β) :
    Holds (write m (i + data.length) more) i (data ++ more) := by
  have hdata : read (write m (i + data.length) more) i data.length = data :=
    (read_write_of_apart (.inr le_rfl)).trans h
  rw [Holds, List.length_append, read_add, hdata, read_write_self]

theorem Holds.write_self (data : List β) : Holds (write m i data) i data := read_write_self

/-- Held data holds its parts. -/
theorem Holds.read_part (h : Holds m i data) (hle : j + k ≤ data.length) :
    read m (i + j) k = (data.drop j).take k := by
  rw [← read_drop_take hle, h]

end Overwriting
