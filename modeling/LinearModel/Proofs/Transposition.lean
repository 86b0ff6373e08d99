import Mathlib
import LinearModel.Proofs.Ascending
import LinearModel.Proofs.Coherence
import LinearModel.Proofs.Insertion
import LinearModel.Proofs.Order

/-!
# Transposition

The stored cells of a matrix are listed row by row, no place twice, so inserting them with row and
column exchanged overwrites nothing and fills every row of the result from left to right
(`SparseMatrix.entries_line_transpose`). A place of the result therefore holds exactly what the
opposite place held (`SparseMatrix.find?_line_transpose`), and all that is lost is the order within
the rows: transposing twice sorts them, and from the first time on nothing changes any more
(`SparseMatrix.transpose_moves_and_sorts`).
-/

namespace LinearModel

namespace SparseMatrix

variable {α : Type}

open MatrixParts (Precedes)

theorem mem_nonZeros_iff (m : SparseMatrix α) (e : Entry α) :
    e ∈ m.nonZeros ↔ (m.line e.row).find? e.col = some e.value := by
  simp only [nonZeros, List.mem_flatMap, Prod.exists, List.mem_zipIdx_iff_getElem?, List.mem_map]
  constructor
  · rintro ⟨line, i, hline, a, b, hcell, rfl⟩
    rw [SparseMatrix.line, List.getD_eq_getElem?_getD, hline]
    exact (line.find?_eq_some_iff a b).2 hcell
  · intro hfind
    rcases Nat.lt_or_ge e.row m.lines.length with hi | hi
    · refine ⟨m.line e.row, e.row, ?_, e.col, e.value, ?_, rfl⟩
      · rw [line, List.getD_eq_getElem _ _ hi, List.getElem?_eq_getElem hi]
      · exact ((m.line e.row).find?_eq_some_iff e.col e.value).1 hfind
    · rw [m.line_of_le hi] at hfind
      cases hfind

theorem pairwise_nonZeros (m : SparseMatrix α) : m.nonZeros.Pairwise Precedes :=
  m.nonZeros_parts ▸ m.coherent_parts.pairwise_nonZeros

theorem nodup_places_transposed (m : SparseMatrix α) :
    ((m.nonZeros.map Entry.transposed).map Entry.place).Nodup := by
  rw [List.map_map, List.Nodup, List.pairwise_map]
  refine m.pairwise_nonZeros.imp fun hprecedes heq => ?_
  obtain ⟨hcol, hrow⟩ := Prod.ext_iff.1 heq
  rcases hprecedes with hlt | ⟨-, hne⟩
  · exact Nat.ne_of_lt hlt hrow
  · exact hne hcol

/-- A row of the transposed matrix stores what a column stored, row by row. -/
theorem entries_line_transpose (m : SparseMatrix α) (j : Nat) :
    (m.transpose.line j).entries =
      (m.nonZeros.filter fun e => e.col = j).map fun e => (e.row, e.value) := by
  have hinside : ∀ e ∈ m.nonZeros.map Entry.transposed, e.row < m.cols ∧ e.col < m.rows := by
    intro e he
    obtain ⟨f, hf, rfl⟩ := List.mem_map.1 he
    exact (m.inside_of_mem_nonZeros hf).symm
  rw [transpose, entries_line_insertAll_empty hinside m.nodup_places_transposed, List.filter_map,
    List.map_map]
  rfl

theorem pairwise_lt_transpose (m : SparseMatrix α) (j : Nat) :
    (m.transpose.line j).entries.Pairwise (·.1 < ·.1) := by
  rw [entries_line_transpose, List.pairwise_map, List.pairwise_filter]
  refine m.pairwise_nonZeros.imp fun hprecedes he hf => ?_
  rcases hprecedes with hlt | ⟨-, hne⟩
  · exact hlt
  · exact absurd ((of_decide_eq_true he).trans (of_decide_eq_true hf).symm) hne

/-- Every stored cell is found at the opposite place, and nothing else is. -/
theorem find?_line_transpose (m : SparseMatrix α) (i j : Nat) :
    (m.transpose.line j).find? i = (m.line i).find? j := by
  apply Option.ext
  intro x
  rw [Cells.find?_eq_some_iff, entries_line_transpose, List.mem_map]
  constructor
  · rintro ⟨⟨_, _, _⟩, he, heq⟩
    cases heq
    obtain ⟨hmem, hcol⟩ := List.mem_filter.1 he
    exact of_decide_eq_true hcol ▸ (m.mem_nonZeros_iff _).1 hmem
  · intro hfind
    exact ⟨⟨i, j, x⟩, List.mem_filter.2 ⟨(m.mem_nonZeros_iff _).2 hfind, decide_eq_true rfl⟩, rfl⟩

theorem cell_transpose [Zero α] (m : SparseMatrix α) (i j : Nat) :
    m.transpose.cell j i = m.cell i j := by
  rw [cell, cell, Cells.get, Cells.get, find?_line_transpose]

theorem nodup_nonZeros (m : SparseMatrix α) : m.nonZeros.Nodup :=
  m.nodup_places_transposed.of_map.of_map

theorem nonZeros_transpose_perm (m : SparseMatrix α) :
    m.transpose.nonZeros.Perm (m.nonZeros.map Entry.transposed) := by
  rw [List.perm_ext_iff_of_nodup m.transpose.nodup_nonZeros m.nodup_places_transposed.of_map]
  intro e
  rw [mem_nonZeros_iff, find?_line_transpose, List.mem_map]
  constructor
  · intro hfind
    exact ⟨e.transposed, (m.mem_nonZeros_iff _).2 hfind, rfl⟩
  · rintro ⟨f, hf, rfl⟩
    exact (m.mem_nonZeros_iff f).1 hf

theorem occupied_eq_length (m : SparseMatrix α) : m.occupied = m.nonZeros.length := by
  rw [← m.occupied_parts, m.coherent_parts.occupied_eq_length, m.nonZeros_parts]

theorem occupied_transpose (m : SparseMatrix α) : m.transpose.occupied = m.occupied := by
  rw [occupied_eq_length, occupied_eq_length, m.nonZeros_transpose_perm.length_eq, List.length_map]

/-- Transposing twice sorts every row. -/
theorem entries_line_transpose_transpose (m : SparseMatrix α) (i : Nat) :
    (m.transpose.transpose.line i).entries =
      (m.line i).entries.mergeSort fun e f => e.1 ≤ f.1 := by
  have hperm : (m.transpose.transpose.line i).entries.Perm (m.line i).entries := by
    rw [List.perm_ext_iff_of_nodup (Cells.nodup_map_fst_entries _).of_map
      (Cells.nodup_map_fst_entries _).of_map]
    rintro ⟨j, x⟩
    rw [← Cells.find?_eq_some_iff, ← Cells.find?_eq_some_iff, find?_line_transpose,
      find?_line_transpose]
  exact eq_mergeSort_of_perm (Cells.nodup_map_fst_entries _) hperm
    ((m.transpose.pairwise_lt_transpose i).imp Nat.le_of_lt)

theorem transpose_transpose_transpose (m : SparseMatrix α) :
    m.transpose.transpose.transpose = m.transpose := by
  refine ext_of_entries (by simp) (by simp) fun j _ => ?_
  rw [entries_line_transpose_transpose]
  apply List.mergeSort_of_pairwise
  exact (m.pairwise_lt_transpose j).imp fun hlt => decide_eq_true (Nat.le_of_lt hlt)

section Equality

variable [Number α] [OrderedNumber α]

theorem beq_self_of_isNaN_eq_false {x : α} (h : Number.isNaN x = false) : (x == x) = true := by
  have hne : Number.exact x ≠ .nan := Number.isNaN_eq_false_iff.1 h
  rw [OrderedNumber.beq_eq]
  cases hx : Number.exact x with
  | nan => exact absurd hx hne
  | finite q => exact decide_eq_true rfl
  | negInf => rfl
  | posInf => rfl

theorem isNaN_cell_eq_false {m : SparseMatrix α}
    (hnan : ∀ e ∈ m.nonZeros, Number.isNaN e.value = false) (i j : Nat) :
    Number.isNaN (m.cell i j) = false := by
  rw [cell, Cells.get]
  cases hfind : (m.line i).find? j with
  | none =>
      rw [Option.getD_none, Number.isNaN_eq_false_iff, LawfulNumber.exact_zero]
      exact fun h => by cases h
  | some x => exact hnan ⟨i, j, x⟩ ((m.mem_nonZeros_iff _).2 hfind)

theorem beq_transpose_transpose {m : SparseMatrix α}
    (hnan : ∀ e ∈ m.nonZeros, Number.isNaN e.value = false) :
    (m.transpose.transpose == m) = true := by
  have hcell (i j : Nat) : m.transpose.transpose.cell i j = m.cell i j := by
    rw [cell_transpose, cell_transpose]
  refine beq_of_cell_eq (by simp) (by simp) (fun i _ j _ => hcell i j) fun i _ j _ => ?_
  rw [hcell]
  exact beq_self_of_isNaN_eq_false (isNaN_cell_eq_false hnan i j)

/-- Transposing exchanges the two sides of the shape and moves every stored cell, each once and with
its value as it is, to the opposite place; the rows of the result are in ascending order. Hence
transposing twice sorts the rows of a matrix and changes nothing else, so that the outcome is equal
to the matrix unless that holds a value that is no number, and transposing three times is
transposing once, the storage included. -/
theorem transpose_moves_and_sorts (m : SparseMatrix α) :
    m.transpose.shape = m.shape.transposed ∧
    (∀ i < m.rows, ∀ j < m.cols, ∃ x, m.get i j = .ok x ∧ m.transpose.get j i = .ok x) ∧
    m.transpose.nonZeros.Perm (m.nonZeros.map Entry.transposed) ∧
    m.transpose.occupied = m.occupied ∧
    (∀ j, (m.transpose.line j).indices.Pairwise (· < ·)) ∧
    m.transpose.transpose.shape = m.shape ∧
    (∀ i, (m.transpose.transpose.line i).entries =
      (m.line i).entries.mergeSort fun e f => e.1 ≤ f.1) ∧
    ((∀ e ∈ m.nonZeros, Number.isNaN e.value = false) →
      (m.transpose.transpose == m) = true) ∧
    m.transpose.transpose.transpose = m.transpose := by
  refine ⟨m.shape_transpose, fun i hi j hj => ?_, m.nonZeros_transpose_perm, m.occupied_transpose,
    fun j => ?_, by simp, m.entries_line_transpose_transpose, beq_transpose_transpose,
    m.transpose_transpose_transpose⟩
  · refine ⟨m.cell i j, m.get_eq_ok hi hj, ?_⟩
    rw [m.transpose.get_eq_ok (m.rows_transpose.symm ▸ hj) (m.cols_transpose.symm ▸ hi),
      cell_transpose]
  · rw [← Cells.map_fst_entries, List.pairwise_map]
    exact m.pairwise_lt_transpose j

end Equality

/-- The first row is written from the right, the second holds a zero. -/
def scattered : SparseMatrix Float :=
  (empty 2 3).insertAll [⟨0, 2, 5⟩, ⟨0, 0, 7⟩, ⟨1, 1, 0⟩]

theorem transpose_scattered :
    (∀ e ∈ scattered.nonZeros, Number.isNaN e.value = false) ∧
    (scattered.transpose.transpose == scattered) = true ∧
    scattered.transpose.transpose.transpose = scattered.transpose := by
  obtain ⟨-, -, -, -, -, -, -, hbeq, hthrice⟩ := transpose_moves_and_sorts scattered
  have hnan : ∀ e ∈ scattered.nonZeros, Number.isNaN e.value = false := by decide +kernel
  exact ⟨hnan, hbeq hnan, hthrice⟩

end SparseMatrix

end LinearModel
