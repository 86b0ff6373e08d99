import Mathlib
import LinearModel.Proofs.DenseArithmetic
import LinearModel.Proofs.Transposition

/-!
# Ways to a product

Two vectors are multiplied by one inner product or place by place, a matrix and a vector by turning
the vector into a matrix, and two matrices along the stored cells of both. Over the rationals all of
these are one product: that of vectors is the product of their matrices (`SparseVector.exists_mul`),
a matrix times a vector has the inner products of its rows, a vector times a matrix those of its
columns, and transposing exchanges the operands (`SparseVector.products_agree`).
-/

namespace LinearModel

theorem SparseMatrix.row_eq_ok {α : Type} (m : SparseMatrix α) {i : Nat} (hi : i < m.rows) :
    m.row i = .ok (m.rowVector i) := by
  rw [row, requireIndex_eq_ok_iff.2 hi]
  rfl

theorem SparseMatrix.get_product (m k : SparseMatrix Rat) {i j : Nat} (hi : i < m.rows)
    (hj : j < k.cols) :
    (m.product k).get i j = .ok (∑ l ∈ Finset.range m.cols, m.cell i l * k.cell l j) := by
  rw [(m.product k).get_eq_ok ((rows_product m k).symm ▸ hi) hj, cell_product m k hi]

/-- A matrix has the shape and the values of the dense product of two others. -/
structure SparseMatrix.IsProduct (m k p : SparseMatrix Rat) : Prop where
  rows_eq : p.rows = m.rows
  cols_eq : p.cols = k.cols
  cell_eq : ∀ i < m.rows, ∀ j < k.cols,
    p.cell i j = ∑ l ∈ Finset.range m.cols, m.cell i l * k.cell l j

namespace SparseMatrix.IsProduct

variable {m k p q : SparseMatrix Rat}

theorem product (m k : SparseMatrix Rat) : m.IsProduct k (m.product k) where
  rows_eq := rows_product m k
  cols_eq := cols_product m k
  cell_eq _ hi j _ := cell_product m k hi j

theorem beq (hp : m.IsProduct k p) (hq : m.IsProduct k q) : (p == q) = true := by
  refine beq_of_cell_eq (hp.rows_eq.trans hq.rows_eq.symm) (hp.cols_eq.trans hq.cols_eq.symm)
    (fun i hi j hj => ?_) fun i _ j _ => beq_self_eq_true _
  rw [hp.rows_eq] at hi
  rw [hp.cols_eq] at hj
  rw [hp.cell_eq i hi j hj, hq.cell_eq i hi j hj]

/-- Transposed products are products of transposed operands, in the other order. -/
theorem transpose (h : m.cols = k.rows) (hp : m.IsProduct k p) :
    k.transpose.IsProduct m.transpose p.transpose where
  rows_eq := by rw [rows_transpose, rows_transpose, hp.cols_eq]
  cols_eq := by rw [cols_transpose, cols_transpose, hp.rows_eq]
  cell_eq j hj i hi := by
    rw [rows_transpose] at hj
    rw [cols_transpose] at hi
    rw [cell_transpose, hp.cell_eq i hi j hj, cols_transpose, ← h]
    refine Finset.sum_congr rfl fun l _ => ?_
    rw [cell_transpose, cell_transpose, mul_comm]

/-- Only the shapes and the values of the operands count. -/
theorem congr {m' k' : SparseMatrix Rat} (hm : (m == m') = true) (hk : (k == k') = true)
    (hp : m.IsProduct k p) : m'.IsProduct k' p := by
  obtain ⟨hrows, hcols, hcell⟩ := beq_iff.1 hm
  obtain ⟨-, hcols', hcell'⟩ := beq_iff.1 hk
  refine ⟨hp.rows_eq.trans hrows, hp.cols_eq.trans hcols', fun i hi j hj => ?_⟩
  rw [hp.cell_eq i (hrows ▸ hi) j (hcols' ▸ hj), hcols]
  exact Finset.sum_congr rfl fun l _ => by rw [hcell, hcell']

end SparseMatrix.IsProduct

namespace SparseVector

variable {α : Type}

section ToMatrix

variable (v : SparseVector α)

@[simp] theorem rows_toMatrix : v.toMatrix.rows = v.shape.rows := by
  rw [toMatrix, SparseMatrix.rows_insertAll, SparseMatrix.rows_empty]

@[simp] theorem cols_toMatrix : v.toMatrix.cols = v.shape.cols := by
  rw [toMatrix, SparseMatrix.cols_insertAll, SparseMatrix.cols_empty]

theorem shape_toMatrix : v.toMatrix.shape = v.shape := by
  rw [SparseMatrix.shape, rows_toMatrix, cols_toMatrix]

theorem nodup_places_nonZeros : (v.nonZeros.map Entry.place).Nodup := by
  rw [nonZeros, List.map_map, List.Nodup, List.pairwise_map]
  refine (List.pairwise_map.1 v.cells.nodup_map_fst_entries).imp fun hne heq => hne ?_
  rw [Function.comp_apply, Function.comp_apply, entryOf, entryOf] at heq
  cases horientation : v.orientation with
  | row => simpa [horientation, Entry.place] using heq
  | column => simpa [horientation, Entry.place] using heq

theorem find?_line_toMatrix (i j : Nat) (x : α) :
    (v.toMatrix.line i).find? j = some x ↔ ⟨i, j, x⟩ ∈ v.nonZeros :=
  SparseMatrix.find?_line_insertAll_empty (fun _ => v.inside_of_mem_nonZeros)
    v.nodup_places_nonZeros i j x

variable {v}

theorem cell_toMatrix_of_row [Zero α] (h : v.orientation = .row) (j : Nat) :
    v.toMatrix.cell 0 j = v.cells.get j := by
  have hfind : (v.toMatrix.line 0).find? j = v.cells.find? j := by
    apply Option.ext
    intro x
    rw [find?_line_toMatrix, Cells.find?_eq_some_iff, nonZeros, List.mem_map]
    simp [entryOf, h]
  rw [SparseMatrix.cell, Cells.get, hfind, Cells.get]

theorem cell_toMatrix_of_column [Zero α] (h : v.orientation = .column) (i : Nat) :
    v.toMatrix.cell i 0 = v.cells.get i := by
  have hfind : (v.toMatrix.line i).find? 0 = v.cells.find? i := by
    apply Option.ext
    intro x
    rw [find?_line_toMatrix, Cells.find?_eq_some_iff, nonZeros, List.mem_map]
    simp [entryOf, h]
  rw [SparseMatrix.cell, Cells.get, hfind, Cells.get]

/-- The matrix of a vector turned around is the matrix turned around. -/
theorem cell_toMatrix_transpose [Zero α] (v : SparseVector α) {i j : Nat} (hi : i < v.shape.rows)
    (hj : j < v.shape.cols) : v.transpose.toMatrix.cell j i = v.toMatrix.cell i j := by
  cases h : v.orientation with
  | row =>
      have hrow : i = 0 := by simpa [shape, Orientation.shape, h] using hi
      have hflipped : v.transpose.orientation = .column := by
        rw [transpose, orient, h, Orientation.flipped]
      rw [hrow, cell_toMatrix_of_row h, cell_toMatrix_of_column hflipped]
      rfl
  | column =>
      have hcol : j = 0 := by simpa [shape, Orientation.shape, h] using hj
      have hflipped : v.transpose.orientation = .row := by
        rw [transpose, orient, h, Orientation.flipped]
      rw [hcol, cell_toMatrix_of_column h, cell_toMatrix_of_row hflipped]
      rfl

@[simp] theorem shape_transpose (v : SparseVector α) : v.transpose.shape = v.shape.transposed :=
  Orientation.shape_flipped v.orientation v.size

end ToMatrix

section Outer

variable [Scalar α] (v w : SparseVector α)

theorem find?_line_outer (i j : Nat) :
    ((v.outer w).line i).find? j =
      (v.cells.find? i).bind fun a => (w.cells.find? j).map (a * ·) := by
  have hinside : ∀ e ∈ v.cells.entries.flatMap fun e =>
      w.cells.entries.map fun f => (⟨e.1, f.1, e.2 * f.2⟩ : Entry α),
      e.row < v.size ∧ e.col < w.size := by
    intro e he
    obtain ⟨cell, hcell, he⟩ := List.mem_flatMap.1 he
    obtain ⟨other, hother, rfl⟩ := List.mem_map.1 he
    exact ⟨v.cells.lt_of_mem_entries hcell, w.cells.lt_of_mem_entries hother⟩
  have hplaces : ((v.cells.entries.flatMap fun e =>
      w.cells.entries.map fun f => (⟨e.1, f.1, e.2 * f.2⟩ : Entry α)).map Entry.place).Nodup := by
    have hproduct : (v.cells.indices.flatMap fun i => w.cells.indices.map (Prod.mk i)).Nodup :=
      v.cells.nodup_indices.product w.cells.nodup_indices
    rw [← v.cells.map_fst_entries, ← w.cells.map_fst_entries, List.flatMap_map] at hproduct
    simpa [List.map_flatMap, Function.comp_def, Entry.place] using hproduct
  apply Option.ext
  intro x
  rw [outer, SparseMatrix.find?_line_insertAll_empty hinside hplaces]
  simp only [List.mem_flatMap, List.mem_map, Option.bind_eq_some_iff, Option.map_eq_some_iff,
    Cells.find?_eq_some_iff]
  constructor
  · rintro ⟨e, he, f, hf, heq⟩
    cases heq
    exact ⟨e.2, he, f.2, hf, rfl⟩
  · rintro ⟨a, ha, b, hb, rfl⟩
    exact ⟨(i, a), ha, (j, b), hb, rfl⟩

end Outer

theorem cell_outer (v w : SparseVector Rat) (i j : Nat) :
    (v.outer w).cell i j = v.cells.get i * w.cells.get j := by
  rw [SparseMatrix.cell, Cells.get, find?_line_outer, Cells.get, Cells.get]
  cases v.cells.find? i with
  | none => exact (zero_mul _).symm
  | some a =>
      cases w.cells.find? j with
      | none => exact (mul_zero a).symm
      | some b => rfl

section Shapes

theorem shape_of_row {v : SparseVector α} (h : v.orientation = .row) : v.shape = ⟨1, v.size⟩ := by
  rw [shape, h, Orientation.shape]

theorem shape_of_column {v : SparseVector α} (h : v.orientation = .column) :
    v.shape = ⟨v.size, 1⟩ := by
  rw [shape, h, Orientation.shape]

theorem opposite_cases {v w : SparseVector α} (h : v.orientation ≠ w.orientation) :
    v.orientation = .row ∧ w.orientation = .column ∨
      v.orientation = .column ∧ w.orientation = .row := by
  cases hv : v.orientation <;> cases hw : w.orientation <;> simp_all

end Shapes

variable {v w : SparseVector Rat}

theorem mul_of_row_column (hv : v.orientation = .row) (hw : w.orientation = .column)
    (hsize : v.size = w.size) : ∃ p, v.mul w = .ok p ∧ v.toMatrix.IsProduct w.toMatrix p := by
  have hdot : v.mul w = .ok ((SparseMatrix.empty 1 1).insert 0 0
      (∑ i ∈ Finset.range v.size, v.cells.get i * w.cells.get i)) := by
    rw [mul, hv, hw]
    show (if v.size = w.size then _ else _) = _
    rw [if_pos hsize, dot_eq_ok hsize]
    rfl
  refine ⟨_, hdot, ?_, ?_, fun i hi j hj => ?_⟩
  · rw [SparseMatrix.rows_insert, SparseMatrix.rows_empty, rows_toMatrix, shape_of_row hv]
  · rw [SparseMatrix.cols_insert, SparseMatrix.cols_empty, cols_toMatrix, shape_of_column hw]
  · rw [rows_toMatrix, shape_of_row hv] at hi
    rw [cols_toMatrix, shape_of_column hw] at hj
    obtain rfl : i = 0 := Nat.lt_one_iff.1 hi
    obtain rfl : j = 0 := Nat.lt_one_iff.1 hj
    rw [cols_toMatrix, shape_of_row hv]
    simp only [cell_toMatrix_of_row hv, cell_toMatrix_of_column hw]
    rfl

theorem mul_of_column_row (hv : v.orientation = .column) (hw : w.orientation = .row) :
    ∃ p, v.mul w = .ok p ∧ v.toMatrix.IsProduct w.toMatrix p := by
  refine ⟨v.outer w, by rw [mul, hv, hw], ?_, ?_, fun i hi j hj => ?_⟩
  · rw [outer, SparseMatrix.rows_insertAll, SparseMatrix.rows_empty, rows_toMatrix,
      shape_of_column hv]
  · rw [outer, SparseMatrix.cols_insertAll, SparseMatrix.cols_empty, cols_toMatrix,
      shape_of_row hw]
  · rw [cell_outer, cols_toMatrix, shape_of_column hv, Finset.sum_range_one,
      cell_toMatrix_of_column hv, cell_toMatrix_of_row hw]

/-- Two vectors of opposite orientations that fit have a product, which has the values of the
product of their matrices. -/
theorem exists_mul (horientation : v.orientation ≠ w.orientation)
    (h : v.shape.cols = w.shape.rows) :
    ∃ p, v.mul w = .ok p ∧ v.toMatrix.IsProduct w.toMatrix p := by
  rcases opposite_cases horientation with ⟨hv, hw⟩ | ⟨hv, hw⟩
  · rw [shape_of_row hv, shape_of_column hw] at h
    exact mul_of_row_column hv hw h
  · exact mul_of_column_row hv hw

theorem mul_eq_error (horientation : v.orientation ≠ w.orientation)
    (h : v.shape.cols ≠ w.shape.rows) :
    v.mul w = .error (.dimensionMismatch .multiply v.shape w.shape) := by
  rcases opposite_cases horientation with ⟨hv, hw⟩ | ⟨hv, hw⟩
  · rw [shape_of_row hv, shape_of_column hw] at h
    rw [mul, hv, hw]
    exact if_neg h
  · rw [shape_of_column hv, shape_of_row hw] at h
    exact absurd rfl h

theorem beq_toMatrix_transpose (v : SparseVector Rat) :
    (v.transpose.toMatrix == v.toMatrix.transpose) = true := by
  refine SparseMatrix.beq_of_cell_eq ?_ ?_ (fun j hj i hi => ?_) fun i _ j _ => beq_self_eq_true _
  · rw [rows_toMatrix, SparseMatrix.rows_transpose, cols_toMatrix, shape_transpose]
    rfl
  · rw [cols_toMatrix, SparseMatrix.cols_transpose, rows_toMatrix, shape_transpose]
    rfl
  · rw [rows_toMatrix, shape_transpose] at hj
    rw [cols_toMatrix, shape_transpose] at hi
    rw [v.cell_toMatrix_transpose hi hj, SparseMatrix.cell_transpose]

/-- The product of two vectors is that of their matrices, and its transpose is the product of the
vectors turned around. -/
theorem mul_agrees (horientation : v.orientation ≠ w.orientation)
    (h : v.shape.cols = w.shape.rows) :
    ∃ p q, v.mul w = .ok p ∧ v.toMatrix.mul w.toMatrix = .ok q ∧ (p == q) = true ∧
      ∃ r, w.transpose.mul v.transpose = .ok r ∧ (p.transpose == r) = true := by
  have hmatrices : v.toMatrix.cols = w.toMatrix.rows := by rwa [cols_toMatrix, rows_toMatrix]
  have hflipped : w.transpose.orientation ≠ v.transpose.orientation := fun heq =>
    horientation (Function.Involutive.injective Orientation.flipped_flipped heq).symm
  have hfit : w.transpose.shape.cols = v.transpose.shape.rows := by
    rw [shape_transpose, shape_transpose]
    exact h.symm
  obtain ⟨p, hp, hproduct⟩ := exists_mul horientation h
  obtain ⟨r, hr, hturned⟩ := exists_mul hflipped hfit
  refine ⟨p, _, hp, SparseMatrix.mul_eq_ok hmatrices, hproduct.beq (.product _ _), r, hr, ?_⟩
  exact (hproduct.transpose hmatrices).beq
    (hturned.congr w.beq_toMatrix_transpose v.beq_toMatrix_transpose)

/-- A matrix times a column has the inner products of its rows with the column. -/
theorem mulVector_agrees (m : SparseMatrix Rat) (hv : v.orientation = .column)
    (h : m.cols = v.size) :
    ∃ p, m.mulVector v = .ok p ∧ p.shape = ⟨m.rows, 1⟩ ∧
      ∀ i < m.rows, ∃ row a, m.row i = .ok row ∧ row.dot v = .ok a ∧ p.get i 0 = .ok a := by
  have hshape : v.toMatrix.shape = ⟨v.size, 1⟩ := v.shape_toMatrix.trans (shape_of_column hv)
  have hrows : v.toMatrix.rows = v.size := congrArg Shape.rows hshape
  have hcols : v.toMatrix.cols = 1 := congrArg Shape.cols hshape
  refine ⟨_, SparseMatrix.mul_eq_ok (h.trans hrows.symm), ?_, fun i hi => ?_⟩
  · rw [SparseMatrix.shape, SparseMatrix.rows_product, SparseMatrix.cols_product, hcols]
  · refine ⟨m.rowVector i, _, m.row_eq_ok hi, dot_eq_ok h, ?_⟩
    rw [SparseMatrix.get_product m v.toMatrix hi (hcols ▸ Nat.one_pos)]
    simp only [cell_toMatrix_of_column hv]
    rfl

/-- A row times a matrix has the inner products of the row with the columns of the matrix. -/
theorem mulMatrix_agrees (m : SparseMatrix Rat) (hv : v.orientation = .row)
    (h : v.size = m.rows) :
    ∃ p, v.mulMatrix m = .ok p ∧ p.shape = ⟨1, m.cols⟩ ∧
      ∀ j < m.cols, ∃ row a, m.transpose.row j = .ok row ∧ row.dot v = .ok a ∧
        p.get 0 j = .ok a := by
  have hshape : v.toMatrix.shape = ⟨1, v.size⟩ := v.shape_toMatrix.trans (shape_of_row hv)
  have hrows : v.toMatrix.rows = 1 := congrArg Shape.rows hshape
  have hcols : v.toMatrix.cols = v.size := congrArg Shape.cols hshape
  refine ⟨_, SparseMatrix.mul_eq_ok (hcols.trans h), ?_, fun j hj => ?_⟩
  · rw [SparseMatrix.shape, SparseMatrix.rows_product, SparseMatrix.cols_product, hrows]
  · have hsize : (m.transpose.rowVector j).size = v.size := m.cols_transpose.trans h.symm
    refine ⟨m.transpose.rowVector j, _, m.transpose.row_eq_ok (m.rows_transpose.symm ▸ hj),
      (dot_comm hsize).trans (dot_eq_ok hsize.symm), ?_⟩
    rw [SparseMatrix.get_product v.toMatrix m (hrows ▸ Nat.one_pos) hj, hcols]
    simp only [cell_toMatrix_of_row hv, ← SparseMatrix.cell_transpose m]
    rfl

/-- All products agree. Two vectors of opposite orientations have a product exactly when their
matrices have one, and it is the same; it is refused with the same error, and transposing it
exchanges and turns the operands. A matrix and a column have a product exactly when the column fits
the rows, and it holds the inner products with these; a row and a matrix exactly when the row fits
the columns, with the inner products with those. -/
theorem products_agree (v w : SparseVector Rat) (m : SparseMatrix Rat) :
    (v.orientation ≠ w.orientation →
      (v.shape.cols ≠ w.shape.rows →
        v.mul w = .error (.dimensionMismatch .multiply v.shape w.shape) ∧
        v.toMatrix.mul w.toMatrix = .error (.dimensionMismatch .multiply v.shape w.shape)) ∧
      (v.shape.cols = w.shape.rows →
        ∃ p q, v.mul w = .ok p ∧ v.toMatrix.mul w.toMatrix = .ok q ∧ (p == q) = true ∧
          ∃ r, w.transpose.mul v.transpose = .ok r ∧ (p.transpose == r) = true)) ∧
    (v.orientation = .column →
      (m.cols ≠ v.size → m.mulVector v = .error (.dimensionMismatch .multiply m.shape v.shape)) ∧
      (m.cols = v.size →
        ∃ p, m.mulVector v = .ok p ∧ p.shape = ⟨m.rows, 1⟩ ∧
          ∀ i < m.rows, ∃ row a, m.row i = .ok row ∧ row.dot v = .ok a ∧ p.get i 0 = .ok a)) ∧
    (v.orientation = .row →
      (v.size ≠ m.rows → v.mulMatrix m = .error (.dimensionMismatch .multiply v.shape m.shape)) ∧
      (v.size = m.rows →
        ∃ p, v.mulMatrix m = .ok p ∧ p.shape = ⟨1, m.cols⟩ ∧
          ∀ j < m.cols, ∃ row a, m.transpose.row j = .ok row ∧ row.dot v = .ok a ∧
            p.get 0 j = .ok a)) ∧
    (v.transpose.toMatrix == v.toMatrix.transpose) = true := by
  refine ⟨fun horientation => ⟨fun h => ⟨mul_eq_error horientation h, ?_⟩,
    mul_agrees horientation⟩, fun hv => ⟨fun h => ?_, mulVector_agrees m hv⟩,
    fun hv => ⟨fun h => ?_, mulMatrix_agrees m hv⟩, v.beq_toMatrix_transpose⟩
  · rw [SparseMatrix.mul_eq_error (by rwa [cols_toMatrix, rows_toMatrix]), shape_toMatrix,
      shape_toMatrix]
  · have hne : m.cols ≠ v.toMatrix.rows := by rwa [rows_toMatrix, shape_of_column hv]
    rw [SparseMatrix.mulVector, SparseMatrix.mul_eq_error hne, shape_toMatrix]
  · have hne : v.toMatrix.cols ≠ m.rows := by rwa [cols_toMatrix, shape_of_row hv]
    rw [mulMatrix, SparseMatrix.mul_eq_error hne, shape_toMatrix]

end SparseVector

end LinearModel
