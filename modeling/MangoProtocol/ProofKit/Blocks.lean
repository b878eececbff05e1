import Mathlib.Algebra.Order.Floor.Div
import Mathlib.Tactic

/-! A list cut into blocks of one capacity, of which only the last may be shorter. -/

namespace ProofKit.Blocks

variable {α : Type}

/-- The block at an index. -/
def block (capacity : Nat) (l : List α) (index : Nat) : List α :=
  (l.take (min (index * capacity + capacity) l.length)).drop (index * capacity)

theorem lt_ceilDiv_iff {n capacity index : Nat} (h : 0 < capacity) :
    index < n ⌈/⌉ capacity ↔ index * capacity < n := by
  rw [← not_le, ceilDiv_le_iff_le_smul h, smul_eq_mul, not_le, Nat.mul_comm]

theorem block_eq_take_drop (capacity : Nat) (l : List α) (index : Nat) :
    block capacity l index = (l.drop (index * capacity)).take capacity := by
  rw [block, List.drop_take, List.take_eq_take_iff, List.length_drop]
  omega

theorem length_block (capacity : Nat) (l : List α) (index : Nat) :
    (block capacity l index).length = min capacity (l.length - index * capacity) := by
  rw [block_eq_take_drop, List.length_take, List.length_drop]

theorem flatten_blocks (capacity : Nat) (l : List α) (count : Nat) :
    ((List.range count).map (block capacity l)).flatten = l.take (count * capacity) := by
  induction count with
  | zero => simp
  | succ count ih =>
    rw [List.range_succ, List.map_append, List.flatten_append, ih, Nat.succ_mul, List.take_add,
      List.map_singleton, List.flatten_singleton, block_eq_take_drop]

end ProofKit.Blocks
