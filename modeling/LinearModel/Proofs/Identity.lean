import Mathlib
import LinearModel.Proofs.NeutralOne
import LinearModel.Proofs.Transposition

/-!
# Multiplying by the identity

A product adds what it computes to a row that starts empty. Against the identity it computes every
stored cell of the other operand once, at a place of its own and in the order in which they are
stored, so that nothing is ever added to anything: the outcome is the operand, stored zeros and the
order of its rows included (`SparseMatrix.mul_identity`, `SparseMatrix.identity_mul`). Of the
scalars this asks no more than that one leaves them alone.
-/

namespace LinearModel

namespace SparseMatrix

variable {α : Type} [Scalar α]

/-- A row of a product whose terms are the cells of some row, in their order, stores these. -/
theorem entries_combine {n k : Nat} {line : Cells α n} {m : SparseMatrix α} {row : Cells α k}
    (h : products line m = row.entries) : (combine line m).entries = row.entries := by
  have hnodup : ((products line m).map Prod.fst).Nodup := h ▸ row.nodup_map_fst_entries
  rw [combine_eq, Cells.entries_accumulateAll _ (fun e => lt_of_mem_products) hnodup, h]
  rfl

section Shape

variable (n : Nat)

@[simp] theorem rows_identity : (identity n : SparseMatrix α).rows = n := by
  rw [identity, rows_insertAll, rows_empty]

@[simp] theorem cols_identity : (identity n : SparseMatrix α).cols = n := by
  rw [identity, cols_insertAll, cols_empty]

variable {n}

theorem entries_line_identity {i : Nat} (hi : i < n) :
    ((identity n : SparseMatrix α).line i).entries = [(i, 1)] := by
  have hinside : ∀ e ∈ (List.range n).map fun i => (⟨i, i, 1⟩ : Entry α),
      e.row < n ∧ e.col < n := by
    intro e he
    obtain ⟨j, hj, rfl⟩ := List.mem_map.1 he
    exact ⟨List.mem_range.1 hj, List.mem_range.1 hj⟩
  have hplaces : (((List.range n).map fun i => (⟨i, i, 1⟩ : Entry α)).map Entry.place).Nodup := by
    rw [List.map_map]
    exact List.nodup_range.map fun i j h => congrArg Prod.fst h
  have hfilter : (List.range n).filter (fun j => j = i) = [i] := by
    rw [List.filter_eq, List.count_eq_one_of_mem List.nodup_range (List.mem_range.2 hi)]
    rfl
  rw [identity, entries_line_insertAll_empty hinside hplaces, List.filter_map, List.map_map]
  show ((List.range n).filter fun j => j = i).map _ = _
  rw [hfilter]
  rfl

end Shape

section Products

variable [NeutralOne α]

theorem products_identity {n : Nat} (line : Cells α n) :
    products line (identity n) = line.entries := by
  have hterm : ∀ e ∈ line.entries,
      (((identity n : SparseMatrix α).line e.1).entries.map fun f => (f.1, e.2 * f.2)) = [e] := by
    intro e he
    rw [entries_line_identity (line.lt_of_mem_entries he), List.map_singleton, NeutralOne.mul_one]
  rw [products, List.flatMap_congr hterm, List.flatMap_singleton']

theorem identity_products (m : SparseMatrix α) {i : Nat} (hi : i < m.rows) :
    products ((identity m.rows : SparseMatrix α).line i) m = (m.line i).entries := by
  rw [products, entries_line_identity hi, List.flatMap_singleton]
  simp only [NeutralOne.one_mul, Prod.mk.eta, List.map_id']

variable (m : SparseMatrix α)

theorem mul_identity : m.mul (identity m.cols) = .ok m := by
  rw [mul_eq_ok (rows_identity m.cols).symm]
  refine congrArg Except.ok (ext_of_entries (rows_product _ _) (cols_identity _) fun i hi => ?_)
  rw [rows_product] at hi
  have hline := congrArg Cells.entries (line_product m (identity m.cols) hi)
  exact hline.trans (entries_combine (products_identity (m.line i)))

theorem identity_mul : (identity m.rows).mul m = .ok m := by
  have hrows : ((identity m.rows : SparseMatrix α).product m).rows = m.rows := by
    rw [rows_product, rows_identity]
  rw [mul_eq_ok (cols_identity m.rows)]
  refine congrArg Except.ok (ext_of_entries hrows rfl fun i hi => ?_)
  rw [hrows] at hi
  have hi' : i < (identity m.rows : SparseMatrix α).rows := hi.trans_eq (rows_identity _).symm
  have hline := congrArg Cells.entries (line_product (identity m.rows) m hi')
  exact hline.trans (entries_combine (m.identity_products hi))

/-- Multiplying by the identity of the fitting size, on either side, gives back a matrix of the same
shape that stores in every row the same values at the same places, in the same order. It is equal to
the matrix unless that has a value which does not equal itself, as one that is no number does not.
-/
theorem identity_keeps_storage :
    ∃ p q, m.mul (identity m.cols) = .ok p ∧ (identity m.rows).mul m = .ok q ∧
      p.shape = m.shape ∧ q.shape = m.shape ∧
      (∀ i, (p.line i).entries = (m.line i).entries) ∧
      (∀ i, (q.line i).entries = (m.line i).entries) ∧
      ((∀ i < m.rows, ∀ j < m.cols, (m.cell i j == m.cell i j) = true) →
        (p == m) = true ∧ (q == m) = true) := by
  refine ⟨m, m, m.mul_identity, m.identity_mul, rfl, rfl, fun _ => rfl, fun _ => rfl,
    fun hself => ?_⟩
  have hbeq : (m == m) = true := beq_iff_cell.2 ⟨rfl, rfl, hself⟩
  exact ⟨hbeq, hbeq⟩

end Products

theorem identity_keeps_scattered :
    NeutralOne Float ∧ (∀ i < scattered.rows, ∀ j < scattered.cols,
      (scattered.cell i j == scattered.cell i j) = true) ∧
    ∃ p q, scattered.mul (identity scattered.cols) = .ok p ∧
      (identity scattered.rows).mul scattered = .ok q ∧
      (p == scattered) = true ∧ (q == scattered) = true := by
  obtain ⟨p, q, hp, hq, -, -, -, -, hbeq⟩ := identity_keeps_storage scattered
  have hnan : ∀ e ∈ scattered.nonZeros, Number.isNaN e.value = false := by decide +kernel
  have hself : ∀ i < scattered.rows, ∀ j < scattered.cols,
      (scattered.cell i j == scattered.cell i j) = true :=
    fun i _ j _ => beq_self_of_isNaN_eq_false (isNaN_cell_eq_false hnan i j)
  exact ⟨inferInstance, hself, p, q, hp, hq, hbeq hself⟩

end SparseMatrix

end LinearModel
