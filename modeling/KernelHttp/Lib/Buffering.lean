/-
  Writing through a buffer of bounded size.

  An item that does not fit behind those in the buffer has the buffer sent first.
-/
import Mathlib

namespace Buffering

variable {α : Type*}

/-- The batches that were sent, and the items in the buffer. -/
structure Writer (α : Type*) where
  sent : List (List α) := []
  buffer : List α := []

/-- An item goes behind those in the buffer, or into an empty buffer. -/
def put (size : α → ℕ) (capacity : ℕ) (w : Writer α) (a : α) : Writer α :=
  if (w.buffer.map size).sum + size a > capacity then ⟨w.sent ++ [w.buffer], [a]⟩
  else ⟨w.sent, w.buffer ++ [a]⟩

def write (size : α → ℕ) (capacity : ℕ) (w : Writer α) (items : List α) : Writer α :=
  items.foldl (put size capacity) w

variable {size : α → ℕ} {capacity : ℕ}

@[simp] theorem write_nil (w : Writer α) : write size capacity w [] = w := rfl

theorem write_append (w : Writer α) (as bs : List α) :
    write size capacity w (as ++ bs) = write size capacity (write size capacity w as) bs :=
  List.foldl_append

theorem write_concat (w : Writer α) (as : List α) (a : α) :
    write size capacity w (as ++ [a]) = put size capacity (write size capacity w as) a := by
  rw [write_append]
  rfl

theorem put_flatten (w : Writer α) (a : α) :
    (put size capacity w a).sent.flatten ++ (put size capacity w a).buffer =
      w.sent.flatten ++ w.buffer ++ [a] := by
  unfold put
  split_ifs <;> simp

/-- **No item is lost or repeated.** -/
theorem write_flatten (w : Writer α) (items : List α) :
    (write size capacity w items).sent.flatten ++ (write size capacity w items).buffer =
      w.sent.flatten ++ w.buffer ++ items := by
  induction items using List.reverseRecOn with
  | nil => simp
  | append_singleton items a ih => rw [write_concat, put_flatten, ih, List.append_assoc]

theorem sent_le_put (w : Writer α) (a : α) : w.sent <+: (put size capacity w a).sent := by
  unfold put
  split_ifs
  · exact List.prefix_append _ _
  · exact List.prefix_rfl

theorem sent_le_write (w : Writer α) (items : List α) :
    w.sent <+: (write size capacity w items).sent := by
  induction items using List.reverseRecOn with
  | nil => exact List.prefix_rfl
  | append_singleton items a ih =>
    rw [write_concat]
    exact ih.trans (sent_le_put _ a)

/-- The last item written is in the buffer. -/
theorem mem_buffer_put (w : Writer α) (a : α) : a ∈ (put size capacity w a).buffer := by
  unfold put
  split_ifs <;> simp

/-! ## Pieces -/

/-- Pieces of length `m`, and a shorter one for what is left. -/
def cut (m n : ℕ) : List ℕ :=
  List.replicate (n / m) m ++ if n % m = 0 then [] else [n % m]

@[simp] theorem cut_zero (m : ℕ) : cut m 0 = [] := by simp [cut]

/-- The first piece. -/
theorem cut_of_pos {m n : ℕ} (hm : 0 < m) (hn : 0 < n) : cut m n = min n m :: cut m (n - m) := by
  unfold cut
  rcases Nat.lt_or_ge n m with hlt | hle
  · rw [Nat.div_eq_of_lt hlt, Nat.mod_eq_of_lt hlt, if_neg hn.ne', Nat.min_eq_left hlt.le,
      Nat.sub_eq_zero_of_le hlt.le]
    simp
  · rw [Nat.div_eq_sub_div hm hle, Nat.mod_eq_sub_mod hle, Nat.min_eq_right hle,
      List.replicate_succ, List.cons_append]

theorem pos_of_mem_cut {m n x : ℕ} (hm : 0 < m) (h : x ∈ cut m n) : 0 < x := by
  unfold cut at h
  rcases List.mem_append.1 h with h | h
  · rw [List.eq_of_mem_replicate h]
    exact hm
  · split_ifs at h with hz
    · exact absurd h List.not_mem_nil
    · rw [List.mem_singleton.1 h]
      omega

end Buffering
