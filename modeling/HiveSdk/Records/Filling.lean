import Mathlib.Data.List.Basic

/-!
# Filling a block from the front

A block of memory into which pieces are written one behind the other. What is left of the block is always the pieces followed by the cells that have not been reached, so a block that has taken `xs` is determined by `xs`, however it was cut into pieces.
-/

namespace Filling

variable {α : Type}

/-- The block after `xs` has been written to its front. -/
def filled (block xs : List α) : List α := xs ++ block.drop xs.length

@[simp] theorem filled_nil (block : List α) : filled block [] = block := rfl

theorem length_filled {block xs : List α} (h : xs.length ≤ block.length) :
    (filled block xs).length = block.length := by
  rw [filled, List.length_append, List.length_drop]
  omega

@[simp] theorem take_filled (block xs : List α) : (filled block xs).take xs.length = xs :=
  List.take_left' rfl

@[simp] theorem drop_filled (block xs : List α) :
    (filled block xs).drop xs.length = block.drop xs.length := List.drop_left' rfl

/-- The cells behind the pieces are as they were. -/
theorem drop_filled_of_le {block xs : List α} {n : Nat} (h : xs.length ≤ n) :
    (filled block xs).drop n = block.drop n := by
  obtain ⟨k, rfl⟩ := Nat.exists_eq_add_of_le h
  rw [← List.drop_drop, drop_filled, List.drop_drop]

/-- The next piece is written behind the last one. -/
theorem filled_append (block xs ys : List α) :
    (filled block xs).take xs.length ++ ys ++ (filled block xs).drop (xs.length + ys.length)
      = filled block (xs ++ ys) := by
  have hdrop : (filled block xs).drop (xs.length + ys.length)
      = block.drop (xs ++ ys).length := by
    rw [drop_filled_of_le (Nat.le_add_right _ _), List.length_append]
  rw [hdrop, take_filled]
  rfl

end Filling
