import Mathlib
import LinearModel.Proofs.Product

/-!
# Equality of dense values

Vectors and matrices are compared by their dense values, place by place
(`SparseMatrix.beq_iff_cell`). Having the same values makes them equal if each value equals itself,
which one that is no number does not (`SparseVector.beq_of_get_eq`, `SparseMatrix.beq_of_cell_eq`);
over the rationals it is all there is to it (`SparseMatrix.beq_iff`). Being one and the same matrix
takes more, the stored cells and their order (`SparseMatrix.ext_of_entries`).
-/

namespace LinearModel

variable {α : Type}

/-- Two mappings of a list are equal when they are at every member. -/
theorem map_beq_map_iff {β γ : Type} [BEq β] {f g : γ → β} {xs : List γ} :
    (xs.map f == xs.map g) = true ↔ ∀ x ∈ xs, (f x == g x) = true := by
  induction xs with
  | nil => simp
  | cons x xs ih =>
      rw [List.map_cons, List.map_cons, List.cons_beq_cons, Bool.and_eq_true, ih,
        List.forall_mem_cons]

/-- Axes of one length are equal when their places are. -/
theorem Cells.toDense_beq_iff [Zero α] [BEq α] {n k : Nat} {c : Cells α n} {d : Cells α k}
    (h : n = k) :
    (c.toDense == d.toDense) = true ↔ ∀ i < n, (c.get i == d.get i) = true := by
  subst h
  rw [toDense_eq_map_range, toDense_eq_map_range, map_beq_map_iff]
  simp only [List.mem_range]

/-- Vectors with the same dense values are equal, if these equal themselves. -/
theorem SparseVector.beq_of_get_eq [Scalar α] {v w : SparseVector α} (hsize : v.size = w.size)
    (hget : ∀ i < v.size, v.cells.get i = w.cells.get i)
    (hself : ∀ i < v.size, (v.cells.get i == v.cells.get i) = true) : (v == w) = true := by
  show (v.size == w.size && v.toDense == w.toDense) = true
  rw [Bool.and_eq_true, beq_iff_eq]
  refine ⟨hsize, (Cells.toDense_beq_iff hsize).2 fun i hi => ?_⟩
  rw [← hget i hi]
  exact hself i hi

namespace SparseMatrix

variable {m k : SparseMatrix α}

theorem line_of_le (m : SparseMatrix α) {i : Nat} (hi : m.rows ≤ i) : m.line i = Cells.empty := by
  rw [line, List.getD_eq_default _ _ hi]

/-- Matrices of one shape that store the same cells in the same order are one matrix. -/
theorem ext_of_entries (hrows : m.rows = k.rows) (hcols : m.cols = k.cols)
    (hentries : ∀ i < m.rows, (m.line i).entries = (k.line i).entries) : m = k := by
  obtain ⟨cols, lines⟩ := m
  obtain ⟨cols', lines'⟩ := k
  cases hcols
  congr 1
  apply List.ext_getElem hrows
  intro i hi hi'
  have hentry := hentries i hi
  rw [line, line, List.getD_eq_getElem _ _ hi, List.getD_eq_getElem _ _ hi'] at hentry
  exact Cells.ext hentry

theorem toDense_eq_map_line [Scalar α] (m : SparseMatrix α) :
    m.toDense = (List.range m.rows).map fun i => (m.line i).toDense := by
  apply List.ext_getElem
  · simp [toDense, rows]
  · intro i hi hi'
    have hlt : i < m.lines.length := by simpa [toDense] using hi
    simp [toDense, line, hlt]

/-- Matrices are equal when they have one shape and their places are equal. -/
theorem beq_iff_cell [Scalar α] : (m == k) = true ↔ m.rows = k.rows ∧ m.cols = k.cols ∧
    ∀ i < m.rows, ∀ j < m.cols, (m.cell i j == k.cell i j) = true := by
  show (m.rows == k.rows && m.cols == k.cols && m.toDense == k.toDense) = true ↔ _
  rw [Bool.and_eq_true, Bool.and_eq_true, beq_iff_eq, beq_iff_eq, and_assoc]
  refine and_congr_right fun hrows => and_congr_right fun hcols => ?_
  rw [toDense_eq_map_line, toDense_eq_map_line, ← hrows, map_beq_map_iff]
  simp only [List.mem_range, Cells.toDense_beq_iff hcols]
  rfl

/-- Matrices with the same dense values are equal, if these equal themselves. -/
theorem beq_of_cell_eq [Scalar α] (hrows : m.rows = k.rows) (hcols : m.cols = k.cols)
    (hcell : ∀ i < m.rows, ∀ j < m.cols, m.cell i j = k.cell i j)
    (hself : ∀ i < m.rows, ∀ j < m.cols, (m.cell i j == m.cell i j) = true) :
    (m == k) = true := by
  refine beq_iff_cell.2 ⟨hrows, hcols, fun i hi j hj => ?_⟩
  rw [← hcell i hi j hj]
  exact hself i hi j hj

/-- The dense lists hold at each place the dense reading of that place, and nothing past their
ends. -/
theorem getD_toDense [Scalar α] (m : SparseMatrix α) (i j : Nat) :
    (m.toDense.getD i []).getD j 0 = m.cell i j := by
  rw [cell]
  by_cases hi : i < m.lines.length
  · have hline : m.toDense.getD i [] = (m.line i).toDense := by
      rw [toDense, line, List.getD_eq_getElem _ _ hi,
        List.getD_eq_getElem _ _ (by simpa using hi), List.getElem_map]
    rw [hline, (m.line i).getD_toDense]
  · have hlength : m.toDense.length ≤ i := by simpa [toDense] using hi
    rw [List.getD_eq_default _ _ hlength, m.line_of_le (Nat.le_of_not_lt hi)]
    rfl

theorem beq_iff {m k : SparseMatrix Rat} : (m == k) = true ↔
    m.rows = k.rows ∧ m.cols = k.cols ∧ ∀ i j, m.cell i j = k.cell i j := by
  constructor
  · intro h
    obtain ⟨hshape, hdense⟩ := Bool.and_eq_true_iff.1 h
    obtain ⟨hrows, hcols⟩ := Bool.and_eq_true_iff.1 hshape
    refine ⟨beq_iff_eq.1 hrows, beq_iff_eq.1 hcols, fun i j => ?_⟩
    rw [← getD_toDense, beq_iff_eq.1 hdense, getD_toDense]
  · rintro ⟨hrows, hcols, hcell⟩
    exact beq_of_cell_eq hrows hcols (fun i _ j _ => hcell i j) fun i _ j _ => beq_self_eq_true _

end SparseMatrix

end LinearModel
