import Mathlib
import LinearModel.Proofs.First
import LinearModel.Proofs.Transposition

/-!
# Dense rows

A matrix is made from dense rows by storing their nonzero values, each row from left to right
(`SparseMatrix.entries_line_compact`), and is read back as dense rows with zeros where nothing is
stored. The two undo each other up to what dense values do not show. The sign of a zero is lost on
the way into the matrix (`plusZero`); on the way out the order of the stored cells is, and which of
the zeros were stored. A matrix that was made from dense rows has nothing left to lose
(`SparseMatrix.ofDense_toDense_of_eq_ok`).
-/

namespace LinearModel

variable {α : Type}

section Stored

variable [Scalar α]

/-- The nonzero values of a dense row with their places, from left to right. -/
def storedCells (row : List α) : List (Nat × α) :=
  (row.zipIdx.filter fun e => !(e.1 == 0)).map Prod.swap

/-- A number as it is read back when zeros are not stored: any zero becomes plus zero. -/
def plusZero (x : α) : α := if x == 0 then 0 else x

theorem mem_storedCells_iff {row : List α} {j : Nat} {x : α} :
    (j, x) ∈ storedCells row ↔ row[j]? = some x ∧ (x == 0) = false := by
  rw [← List.mem_zipIdx_iff_getElem? (x := (x, j)), storedCells]
  simp

theorem pairwise_storedCells (row : List α) : (storedCells row).Pairwise (·.1 < ·.1) := by
  have hplaces : row.zipIdx.Pairwise (·.2 < ·.2) := by
    rw [← List.pairwise_map (f := Prod.snd), List.zipIdx_map_snd]
    exact List.pairwise_lt_range'
  exact List.pairwise_map.2 (hplaces.filter _)

theorem nodup_map_fst_storedCells (row : List α) : ((storedCells row).map Prod.fst).Nodup :=
  List.pairwise_map.2 ((pairwise_storedCells row).imp Nat.ne_of_lt)

theorem length_storedCells (row : List α) :
    (storedCells row).length = row.countP fun x => !(x == 0) := by
  rw [storedCells, List.length_map, ← List.countP_eq_length_filter]
  conv_rhs => rw [← row.zipIdx_map_fst 0, List.countP_map]
  rfl

end Stored

namespace Cells

variable [Scalar α] {n : Nat} {c : Cells α n} {row : List α}

theorem find?_of_storedCells (h : c.entries = storedCells row) (j : Nat) :
    c.find? j = row[j]?.filter fun x => !(x == 0) := by
  apply Option.ext
  intro x
  rw [find?_eq_some_iff, h, mem_storedCells_iff, Option.filter_eq_some_iff, Bool.not_eq_true']

theorem get_of_storedCells (h : c.entries = storedCells row) (j : Nat) :
    c.get j = plusZero (row.getD j 0) := by
  rw [get, find?_of_storedCells h, List.getD_eq_getElem?_getD, plusZero]
  cases row[j]? with
  | none => exact (ite_self _).symm
  | some x =>
      rw [Option.filter_some, Option.getD_some]
      cases x == 0 <;> rfl

/-- A row that stores the nonzero values of a dense row is read back as that row. -/
theorem toDense_of_storedCells (h : c.entries = storedCells row) (hlength : row.length = n) :
    c.toDense = row.map plusZero := by
  subst hlength
  rw [toDense_eq_map_range]
  apply List.ext_getElem
  · simp
  · intro j hj hj'
    rw [List.length_map] at hj'
    rw [List.getElem_map, List.getElem_map, List.getElem_range, get_of_storedCells h,
      List.getD_eq_getElem _ _ hj']

theorem occupied_of_storedCells (h : c.entries = storedCells row) :
    c.occupied = row.countP fun x => !(x == 0) := by
  rw [← length_storedCells, ← h, ← List.length_map (f := Prod.fst), c.map_fst_entries]
  rfl

end Cells

namespace SparseMatrix

section Lengths

variable {rows : List (List α)} {cols : Nat}

/-- The length of the first row, which the others must have. -/
def width (rows : List (List α)) : Nat := (rows.head?.map List.length).getD 0

theorem width_map (f : α → α) (rows : List (List α)) :
    width (rows.map (List.map f)) = width rows := by
  cases rows <;> simp [width]

theorem firstOther_eq_some_iff {length : Nat} :
    firstOther cols (rows.map List.length) = some length ↔
      ∃ i row, FirstAt (fun row => row.length ≠ cols) rows i row ∧ row.length = length := by
  simp only [firstOther, List.find?_map, Option.map_eq_some_iff, find?_eq_some_iff_firstAt,
    Function.comp_apply, bne_iff_ne]
  constructor
  · rintro ⟨row, ⟨i, hi⟩, hrow⟩
    exact ⟨i, row, hi, hrow⟩
  · rintro ⟨i, row, hi, hrow⟩
    exact ⟨row, ⟨i, hi⟩, hrow⟩

theorem firstOther_eq_none_iff :
    firstOther cols (rows.map List.length) = none ↔ ∀ row ∈ rows, row.length = cols := by
  simp [firstOther]

theorem occupied_eq_sum (m : SparseMatrix α) : m.occupied = (m.lines.map Cells.occupied).sum := by
  rw [occupied, List.sum_eq_foldl, List.foldl_map]

end Lengths

section Scalars

variable [Scalar α] {rows : List (List α)} {k : SparseMatrix α}

/-- The matrix that stores the nonzero values of dense rows. -/
def compact (rows : List (List α)) : SparseMatrix α :=
  (empty rows.length (width rows)).insertAll (denseEntries rows)

theorem ofDense_eq_error_iff {e : AlgebraError} : ofDense rows = .error e ↔
    ∃ i row, FirstAt (fun row => row.length ≠ width rows) rows i row ∧
      e = .dimensionMismatch .denseRows ⟨1, width rows⟩ ⟨1, row.length⟩ := by
  have hother : ofDense rows = .error e ↔
      ∃ length, firstOther (width rows) (rows.map List.length) = some length ∧
        e = .dimensionMismatch .denseRows ⟨1, width rows⟩ ⟨1, length⟩ := by
    rw [ofDense, width]
    cases firstOther ((rows.head?.map List.length).getD 0) (rows.map List.length) <;>
      simp [eq_comm]
  rw [hother]
  constructor
  · rintro ⟨length, hlength, rfl⟩
    obtain ⟨i, row, hi, rfl⟩ := firstOther_eq_some_iff.1 hlength
    exact ⟨i, row, hi, rfl⟩
  · rintro ⟨i, row, hi, rfl⟩
    exact ⟨row.length, firstOther_eq_some_iff.2 ⟨i, row, hi, rfl⟩, rfl⟩

theorem ofDense_eq_ok_iff : ofDense rows = .ok k ↔
    (∀ row ∈ rows, row.length = width rows) ∧ compact rows = k := by
  rw [← firstOther_eq_none_iff, ofDense, compact, width]
  cases firstOther ((rows.head?.map List.length).getD 0) (rows.map List.length) <;> simp

section Compact

theorem filter_denseEntries (i : Nat) :
    ((denseEntries rows).filter fun e => e.row = i).map (fun e => (e.col, e.value)) =
      rows[i]?.elim [] storedCells := by
  have hfilter := filter_flatMap_zipIdx Entry.row
    (f := fun e : List α × Nat => e.1.zipIdx.filterMap fun c =>
      if c.1 == 0 then none else some (⟨e.2, c.2, c.1⟩ : Entry α))
    (fun e y hy => by
      obtain ⟨c, -, hc⟩ := List.mem_filterMap.1 hy
      obtain ⟨-, heq⟩ := Option.ite_none_left_eq_some.1 hc
      cases heq
      rfl) rows 0 i
  rw [Nat.zero_add] at hfilter
  show (List.filter _ ((rows.zipIdx 0).flatMap _)).map _ = _
  rw [hfilter]
  cases rows[i]? with
  | none => rfl
  | some row =>
      rw [Option.elim_some, Option.elim_some, List.map_filterMap, storedCells,
        ← List.filterMap_eq_filter, List.map_filterMap]
      apply List.filterMap_congr
      rintro ⟨x, j⟩ _
      by_cases hx : (x == 0) = true <;> simp [Option.guard, hx]

@[simp] theorem rows_compact (rows : List (List α)) : (compact rows).rows = rows.length := by
  rw [compact, rows_insertAll, rows_empty]

@[simp] theorem cols_compact (rows : List (List α)) : (compact rows).cols = width rows := by
  rw [compact, cols_insertAll, cols_empty]

variable (hrows : ∀ row ∈ rows, row.length = width rows)

include hrows

theorem entries_line_compact {i : Nat} {row : List α} (hrow : rows[i]? = some row) :
    ((compact rows).line i).entries = storedCells row := by
  obtain ⟨hi, -⟩ := List.getElem?_eq_some_iff.1 hrow
  have hlt : ∀ e ∈ storedCells row, e.1 < width rows := by
    rintro ⟨j, x⟩ he
    obtain ⟨hj, -⟩ := List.getElem?_eq_some_iff.1 (mem_storedCells_iff.1 he).1
    exact hrows row (List.mem_of_getElem? hrow) ▸ hj
  rw [compact, entries_line_insertAll _ ((rows_empty rows.length (width rows)).symm ▸ hi),
    line_empty, filter_denseEntries, hrow]
  exact Cells.entries_putAll (Cells.empty : Cells α (width rows)) hlt
    (nodup_map_fst_storedCells row)

/-- The rows of the matrix are the dense rows, each with its nonzero values stored. -/
theorem forall₂_compact : List.Forall₂
    (fun line row => line.entries = storedCells row ∧ row.length = (compact rows).cols)
    (compact rows).lines rows := by
  refine List.forall₂_iff_get.2 ⟨rows_compact rows, fun i hi hi' => ?_⟩
  have hrow : rows[i]? = some rows[i] := List.getElem?_eq_getElem hi'
  have hentries := entries_line_compact hrows hrow
  rw [line, List.getD_eq_getElem _ _ hi] at hentries
  exact ⟨hentries, (hrows _ (List.getElem_mem hi')).trans (cols_compact rows).symm⟩

theorem toDense_compact : (compact rows).toDense = rows.map (List.map plusZero) := by
  rw [toDense, ← List.forall₂_eq_eq_eq, List.forall₂_map_left_iff, List.forall₂_map_right_iff]
  exact (forall₂_compact hrows).imp fun line row h => Cells.toDense_of_storedCells h.1 h.2

theorem occupied_compact :
    (compact rows).occupied = rows.flatten.countP fun x => !(x == 0) := by
  have hmap : (compact rows).lines.map Cells.occupied =
      rows.map (List.countP fun x => !(x == 0)) := by
    rw [← List.forall₂_eq_eq_eq, List.forall₂_map_left_iff, List.forall₂_map_right_iff]
    exact (forall₂_compact hrows).imp fun line row h => Cells.occupied_of_storedCells h.1
  rw [occupied_eq_sum, hmap, List.countP_flatten]

theorem occupies_compact_iff {i : Nat} {row : List α} (hrow : rows[i]? = some row) (j : Nat) :
    (compact rows).Occupies i j ↔ ∃ x, row[j]? = some x ∧ (x == 0) = false := by
  rw [Occupies, ← Cells.exists_mem_entries_iff, entries_line_compact hrows hrow]
  simp only [← mem_storedCells_iff]
  constructor
  · rintro ⟨⟨_, x⟩, he, rfl⟩
    exact ⟨x, he⟩
  · rintro ⟨x, hx⟩
    exact ⟨(j, x), hx, rfl⟩

theorem pairwise_indices_compact (i : Nat) :
    ((compact rows).line i).indices.Pairwise (· < ·) := by
  rw [← Cells.map_fst_entries, List.pairwise_map]
  rcases hrow : rows[i]? with _ | row
  · rw [line_of_le _ (by simpa using hrow)]
    exact .nil
  · rw [entries_line_compact hrows hrow]
    exact pairwise_storedCells row

theorem cell_compact (i j : Nat) :
    (compact rows).cell i j = plusZero ((rows.getD i []).getD j 0) := by
  have hzero : plusZero (0 : α) = 0 := ite_self 0
  have hrow : (rows.map (List.map plusZero)).getD i [] = (rows.getD i []).map plusZero :=
    List.getD_map rows [] (List.map plusZero)
  rw [← getD_toDense, toDense_compact hrows, hrow, ← hzero, List.getD_map, hzero]

end Compact

section RoundTrip

/-- What is read back is stored as before. -/
theorem storedCells_map_plusZero (hzero : ((0 : α) == 0) = true) (row : List α) :
    storedCells (row.map plusZero) = storedCells row := by
  have hbeq (x : α) : (plusZero x == 0) = (x == 0) := by
    rw [plusZero]
    by_cases hx : (x == 0) = true <;> simp [hx, hzero]
  rw [storedCells, storedCells, List.zipIdx_map, List.filter_map, List.map_map]
  simp only [Function.comp_def, Prod.map_fst, hbeq]
  refine List.map_congr_left fun e he => ?_
  have hne : (e.1 == 0) = false := by simpa using List.of_mem_filter he
  rw [Prod.swap, Prod.swap, Prod.map_fst, Prod.map_snd, plusZero, hne]
  rfl

theorem ofDense_toDense_of_eq_ok (hzero : ((0 : α) == 0) = true) (h : ofDense rows = .ok k) :
    ofDense k.toDense = .ok k := by
  obtain ⟨hrows, rfl⟩ := ofDense_eq_ok_iff.1 h
  have hrows' : ∀ row ∈ rows.map (List.map plusZero),
      row.length = width (rows.map (List.map plusZero)) := by
    intro row hrow
    obtain ⟨other, hother, rfl⟩ := List.mem_map.1 hrow
    rw [List.length_map, width_map, hrows other hother]
  rw [toDense_compact hrows, ofDense_eq_ok_iff]
  refine ⟨hrows', ext_of_entries (by simp) (by simp [width_map]) fun i hi => ?_⟩
  have hi' : i < rows.length := by simpa using hi
  have hrow : rows[i]? = some rows[i] := List.getElem?_eq_getElem hi'
  have hrow' : (rows.map (List.map plusZero))[i]? = some (rows[i].map plusZero) := by
    rw [List.getElem?_map, hrow]
    rfl
  rw [entries_line_compact hrows' hrow', entries_line_compact hrows hrow,
    storedCells_map_plusZero hzero]

theorem width_toDense {m : SparseMatrix α} (h : 0 < m.rows) : width m.toDense = m.cols := by
  obtain ⟨cols, lines⟩ := m
  cases lines with
  | nil => exact absurd h (Nat.lt_irrefl 0)
  | cons line lines => exact line.length_toDense

theorem length_of_mem_toDense {m : SparseMatrix α} {row : List α} (h : row ∈ m.toDense) :
    row.length = m.cols := by
  obtain ⟨line, -, rfl⟩ := List.mem_map.1 h
  exact line.length_toDense

theorem countP_toDense_le (m : SparseMatrix α) {p : α → Bool} (hzero : p 0 = false) :
    m.toDense.flatten.countP p ≤ m.occupied := by
  rw [List.countP_flatten, occupied_eq_sum, toDense, List.map_map]
  exact List.sum_le_sum fun line _ => line.countP_toDense_le hzero

end RoundTrip

end Scalars

section Numbers

variable [Number α] [OrderedNumber α]

theorem zero_beq_zero : ((0 : α) == 0) = true :=
  (LawfulNumber.beq_zero_iff _).2 LawfulNumber.exact_zero

theorem plusZero_beq {x : α} (h : Number.isNaN x = false) : (plusZero x == x) = true := by
  rw [plusZero]
  by_cases hx : (x == 0) = true
  · rw [if_pos hx, OrderedNumber.beq_eq, LawfulNumber.exact_zero,
      (LawfulNumber.beq_zero_iff x).1 hx, ExtendedRat.beq_finite, decide_eq_true_eq]
  · rw [if_neg hx]
    exact beq_self_of_isNaN_eq_false h

/-- A matrix with some row and without a value that is no number is equal to what its dense rows
make. -/
theorem compact_toDense_beq {m : SparseMatrix α} (hpos : 0 < m.rows)
    (hnan : ∀ e ∈ m.nonZeros, Number.isNaN e.value = false) :
    (compact m.toDense == m) = true := by
  have hrows : ∀ row ∈ m.toDense, row.length = width m.toDense := fun row hrow =>
    (length_of_mem_toDense hrow).trans (width_toDense hpos).symm
  refine beq_iff_cell.2 ⟨?_, ?_, fun i _ j _ => ?_⟩
  · rw [rows_compact, toDense, List.length_map]
    rfl
  · rw [cols_compact, width_toDense hpos]
  · rw [cell_compact hrows, getD_toDense]
    exact plusZero_beq (isNaN_cell_eq_false hnan i j)

/-- Dense rows make a matrix exactly when all are as long as the first, and the first that is not is
named otherwise, whether lengths are looked at before or while cells are written. The matrix gives
back every row, its zeros without their signs, and stores exactly the values that are not zero, from
left to right. Conversely a matrix with some row and without a value that is no number is equal to
the one that its dense rows make, which stores as many cells as there are values that are not zero,
no more than the matrix does, and is made once more by its own dense rows. -/
theorem dense_round_trip (rows : List (List α)) (m : SparseMatrix α) :
    ((∃ k, ofDense rows = .ok k) ↔ ∀ row ∈ rows, row.length = width rows) ∧
    (∀ e, ofDense rows = .error e ↔
      ∃ i row, FirstAt (fun row => row.length ≠ width rows) rows i row ∧
        e = .dimensionMismatch .denseRows ⟨1, width rows⟩ ⟨1, row.length⟩) ∧
    MatrixParts.ofDense? rows = some ((ofDense rows).map parts) ∧
    (∀ k, ofDense rows = .ok k →
      k.shape = ⟨rows.length, width rows⟩ ∧ k.toDense = rows.map (List.map plusZero) ∧
      (∀ i row, rows[i]? = some row →
        ∀ j, k.Occupies i j ↔ ∃ x, row[j]? = some x ∧ (x == 0) = false) ∧
      ∀ i, (k.line i).indices.Pairwise (· < ·)) ∧
    (0 < m.rows → (∀ e ∈ m.nonZeros, Number.isNaN e.value = false) →
      ∃ k, ofDense m.toDense = .ok k ∧ (k == m) = true ∧
        k.occupied = m.toDense.flatten.countP (fun x => !(x == 0)) ∧
        k.occupied ≤ m.occupied ∧ ofDense k.toDense = .ok k) := by
  refine ⟨?_, fun e => ofDense_eq_error_iff, ofDense?_parts rows, fun k h => ?_,
    fun hpos hnan => ?_⟩
  · simp [ofDense_eq_ok_iff]
  · obtain ⟨hrows, rfl⟩ := ofDense_eq_ok_iff.1 h
    refine ⟨?_, toDense_compact hrows, fun i row hrow => occupies_compact_iff hrows hrow,
      pairwise_indices_compact hrows⟩
    rw [shape, rows_compact, cols_compact]
  · have hrows : ∀ row ∈ m.toDense, row.length = width m.toDense := fun row hrow =>
      (length_of_mem_toDense hrow).trans (width_toDense hpos).symm
    have hok : ofDense m.toDense = .ok (compact m.toDense) := ofDense_eq_ok_iff.2 ⟨hrows, rfl⟩
    refine ⟨_, hok, compact_toDense_beq hpos hnan, occupied_compact hrows, ?_,
      ofDense_toDense_of_eq_ok zero_beq_zero hok⟩
    rw [occupied_compact hrows]
    exact m.countP_toDense_le (by rw [zero_beq_zero]; rfl)

end Numbers

/-- The stored zero of `scattered` is not stored again. -/
theorem dense_round_trip_scattered :
    OrderedNumber Float ∧ 0 < scattered.rows ∧
    (∀ e ∈ scattered.nonZeros, Number.isNaN e.value = false) ∧
    ∃ k, ofDense scattered.toDense = .ok k ∧ (k == scattered) = true ∧ k.occupied = 2 ∧
      scattered.occupied = 3 := by
  obtain ⟨-, -, -, -, hback⟩ := dense_round_trip [] scattered
  have hpos : 0 < scattered.rows := by decide
  have hnan : ∀ e ∈ scattered.nonZeros, Number.isNaN e.value = false := by decide +kernel
  obtain ⟨k, hk, hbeq, hoccupied, -, -⟩ := hback hpos hnan
  refine ⟨inferInstance, hpos, hnan, k, hk, hbeq, ?_, by decide +kernel⟩
  rw [hoccupied]
  decide +kernel

end SparseMatrix

end LinearModel
