/-
  Ring buffers.

  Element `i` of a ring of `count` elements sits at `(head + i) % buf.length`.
-/
import Mathlib

namespace Ring

variable {α : Type*} [Inhabited α]

/-- The element `i` of a ring that starts at `head`. -/
def get (buf : List α) (head i : ℕ) : α := buf[(head + i) % buf.length]?.getD default

/-- The first `count` elements of a ring. -/
def toList (buf : List α) (head count : ℕ) : List α := (List.range count).map (get buf head)

@[simp] theorem length_toList (buf : List α) (head count : ℕ) :
    (toList buf head count).length = count := by
  simp [toList]

@[simp] theorem toList_zero (buf : List α) (head : ℕ) : toList buf head 0 = [] := rfl

variable {count head i n : ℕ}

theorem getElem?_toList {buf : List α} (hi : i < count) :
    (toList buf head count)[i]? = some (get buf head i) := by
  simp [toList, List.getElem?_range hi]

theorem toList_succ (buf : List α) (head count : ℕ) :
    toList buf head (count + 1) = toList buf head count ++ [get buf head count] := by
  simp [toList, List.range_succ]

/-- The index in front of `head` in a ring of `n` places. -/
def before (n head : ℕ) : ℕ := if head = 0 then n - 1 else head - 1

theorem before_lt (h : head < n) : before n head < n := by
  unfold before; split_ifs <;> omega

/-- One place further behind the index in front of `head`. -/
theorem before_add (h : head < n) (i : ℕ) :
    (before n head + (i + 1)) % n = (head + i) % n := by
  unfold before
  split_ifs with h0
  · subst h0
    rw [show n - 1 + (i + 1) = 0 + i + n by omega, Nat.add_mod_right]
  · congr 1; omega

/-- Two positions of a ring differ if their distance is below the capacity. -/
theorem index_ne {j : ℕ} (head : ℕ) (hij : i < j) (hj : j < i + n) :
    (head + i) % n ≠ (head + j) % n := by
  intro h
  have hdvd : n ∣ (head + j) - (head + i) := (Nat.modEq_iff_dvd' (by omega)).1 h
  have := Nat.le_of_dvd (by omega) hdvd
  omega

/-- Storing an element in front. -/
theorem toList_pushFront {buf : List α} (h : head < buf.length) (hc : count < buf.length) (x : α) :
    toList (buf.set (before buf.length head) x) (before buf.length head) (count + 1) =
      x :: toList buf head count := by
  have hb := before_lt h
  unfold toList
  rw [List.range_succ_eq_map, List.map_cons, List.map_map]
  congr 1
  · simp [get, Nat.mod_eq_of_lt hb, hb]
  · refine List.map_congr_left fun i hi => ?_
    have hi := List.mem_range.1 hi
    have hne : before buf.length head ≠ (head + i) % buf.length := by
      rw [← before_add h]
      have := index_ne (before buf.length head) (show 0 < i + 1 by omega)
        (show i + 1 < 0 + buf.length by omega)
      rwa [Nat.add_zero, Nat.mod_eq_of_lt hb] at this
    simp only [get, Function.comp, List.length_set, before_add h, List.getElem?_set_ne hne]

/-- Overwriting an element. -/
theorem toList_set {buf : List α} (head : ℕ) (hi : i < count) (hc : count ≤ buf.length) (x : α) :
    toList (buf.set ((head + i) % buf.length) x) head count = (toList buf head count).set i x := by
  apply List.ext_getElem?
  intro j
  have hlt : (head + i) % buf.length < buf.length := Nat.mod_lt _ (by omega)
  rcases Nat.lt_or_ge j count with hj | hj
  · rw [getElem?_toList hj]
    rcases eq_or_ne i j with rfl | hij
    · simp [get, hlt, hi]
    · rw [List.getElem?_set_ne hij, getElem?_toList hj]
      have hne : (head + i) % buf.length ≠ (head + j) % buf.length := by
        rcases Nat.lt_or_gt_of_ne hij with h | h
        · exact index_ne head h (by omega)
        · exact (index_ne head h (by omega)).symm
      simp only [get, List.length_set, List.getElem?_set_ne hne]
  · rw [List.getElem?_eq_none (by simpa using hj), List.getElem?_eq_none (by simpa using hj)]

/-- Copying the contents to the start of a longer array. -/
theorem toList_copy {buf : List α} (pad : List α) :
    toList (toList buf head count ++ pad) 0 count = toList buf head count := by
  apply List.ext_getElem?
  intro j
  rcases Nat.lt_or_ge j count with hj | hj
  · rw [getElem?_toList hj, getElem?_toList hj, get, Nat.zero_add,
      Nat.mod_eq_of_lt (by simp; omega), List.getElem?_append_left (by simpa using hj),
      getElem?_toList hj, Option.getD_some]
  · rw [List.getElem?_eq_none (by simpa using hj), List.getElem?_eq_none (by simpa using hj)]

end Ring
