import Mathlib.Data.Prod.Lex

/-!
# Pairs column by column

Columns and rows are counted from one.  Their pairs, column by column with the rows ascending, are
in strictly ascending order, and counting them through splits a number into its quotient and its
remainder by the length of a column.
-/

namespace FlowCalibration

/-- Order of pairs by column and, within a column, by row. -/
abbrev Precedes : Nat × Nat → Nat × Nat → Prop :=
  Prod.Lex (· < ·) (· < ·)

/-- The pairs of a column and a row, column by column. -/
def columnwise (columns rows : Nat) : List (Nat × Nat) :=
  (List.range' 1 columns).flatMap fun column => (List.range' 1 rows).map (Prod.mk column)

theorem mem_columnwise {columns rows column row : Nat} :
    (column, row) ∈ columnwise columns rows ↔
      (1 ≤ column ∧ column ≤ columns) ∧ 1 ≤ row ∧ row ≤ rows := by
  simp only [columnwise, List.mem_flatMap, List.mem_map, List.mem_range'_1, Prod.mk.injEq,
    Nat.add_comm 1, Nat.lt_add_one_iff]
  constructor
  · rintro ⟨_, column_inside, _, row_inside, rfl, rfl⟩
    exact ⟨column_inside, row_inside⟩
  · rintro ⟨column_inside, row_inside⟩
    exact ⟨column, column_inside, row, row_inside, rfl, rfl⟩

/-- Every pair stands behind those of earlier columns and behind those of its column with earlier
rows. -/
theorem pairwise_columnwise (columns rows : Nat) :
    (columnwise columns rows).Pairwise Precedes := by
  have ascending (count : Nat) : (List.range' 1 count).Pairwise (· < ·) := List.pairwise_lt_range' 1
  rw [columnwise, List.pairwise_flatMap]
  constructor
  · intro column _
    rw [List.pairwise_map]
    exact (ascending rows).imp (Prod.Lex.right column)
  · refine (ascending columns).imp fun {left right} earlier => ?_
    intro first first_mem second second_mem
    obtain ⟨_, _, rfl⟩ := List.mem_map.mp first_mem
    obtain ⟨_, _, rfl⟩ := List.mem_map.mp second_mem
    exact .left _ _ earlier

theorem columnwise_succ (columns rows : Nat) :
    columnwise (columns + 1) rows =
      columnwise columns rows ++ (List.range' 1 rows).map (Prod.mk (columns + 1)) := by
  rw [columnwise, List.range'_1_concat, List.flatMap_append, List.flatMap_singleton,
    Nat.add_comm 1, ← columnwise]

/-- Counting from zero, the quotient by the length of a column tells the column and the remainder
the row. -/
theorem columnwise_eq_map_range (columns rows : Nat) :
    columnwise columns rows =
      (List.range (rows * columns)).map fun index => (index / rows + 1, index % rows + 1) := by
  induction columns with
  | zero => rfl
  | succ columns induction =>
      rw [columnwise_succ, induction, Nat.mul_succ, List.range_add, List.map_append,
        List.range'_eq_map_range, List.map_map, List.map_map]
      congr 1
      refine List.map_congr_left fun row inside => ?_
      have row_lt : row < rows := List.mem_range.mp inside
      have rows_pos : 0 < rows := Nat.zero_lt_of_lt row_lt
      rw [Function.comp_apply, Function.comp_apply, Nat.mul_add_div rows_pos,
        Nat.div_eq_of_lt row_lt, Nat.mul_add_mod, Nat.mod_eq_of_lt row_lt, Nat.add_comm 1]

end FlowCalibration
