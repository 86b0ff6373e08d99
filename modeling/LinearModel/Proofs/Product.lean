import Mathlib
import LinearModel.Proofs.ExactArithmetic
import LinearModel.Proofs.Representation
import LinearModel.SparseMatrix

/-!
# Products of sparse matrices

A product runs along the stored cells of a row and, for each of them, along the stored cells of
another row, and adds what it finds to a growing row. Read as a list of additions to one axis
(`Cells.accumulateAll`) it has two views: the place holds the sum of what was added there, and is
occupied once anything was. Over the rationals the first view is the dense product, in whatever
order the rows are stored and however many zeros they keep.
-/

namespace LinearModel

namespace Cells

variable {α : Type} {n : Nat}

/-- Adds values at places, one after the other. -/
def accumulateAll [Add α] (c : Cells α n) (es : List (Nat × α)) : Cells α n :=
  es.foldl (fun c e => c.accumulate e.1 e.2) c

theorem find?_accumulate [Add α] (c : Cells α n) {i : Nat} (hi : i < n) (v : α) (j : Nat) :
    (c.accumulate i v).find? j =
      if j = i then some ((c.find? i).elim v (· + v)) else c.find? j :=
  c.find?_upsert hi v (· + v) j

theorem get_accumulate [AddMonoid α] (c : Cells α n) {i : Nat} (hi : i < n) (v : α) (j : Nat) :
    (c.accumulate i v).get j = c.get j + if i = j then v else 0 := by
  rw [get, find?_accumulate c hi, get]
  by_cases hj : i = j
  · subst hj
    cases hfind : c.find? i <;> simp
  · simp [hj, Ne.symm hj]

theorem mem_indices_accumulate [Add α] (c : Cells α n) {i : Nat} (hi : i < n) (v : α) (j : Nat) :
    j ∈ (c.accumulate i v).indices ↔ j ∈ c.indices ∨ i = j := by
  rw [mem_indices_iff, find?_accumulate c hi, mem_indices_iff]
  by_cases hj : i = j
  · simp [hj]
  · simp [hj, Ne.symm hj]

/-- A place holds what it held and the sum of what was added there. -/
theorem get_accumulateAll [AddMonoid α] (c : Cells α n) {es : List (Nat × α)}
    (hes : ∀ e ∈ es, e.1 < n) (j : Nat) :
    (c.accumulateAll es).get j = c.get j + (es.map fun e => if e.1 = j then e.2 else 0).sum := by
  induction es generalizing c with
  | nil => simp [accumulateAll]
  | cons e es ih =>
      have hrest := ih (c.accumulate e.1 e.2) fun f hf => hes f (List.mem_cons_of_mem e hf)
      rw [get_accumulate c (hes e List.mem_cons_self), add_assoc] at hrest
      rw [List.map_cons, List.sum_cons, ← hrest]
      rfl

/-- A place is occupied if it was or if anything was added there, zeros included. -/
theorem mem_indices_accumulateAll [Add α] (c : Cells α n) {es : List (Nat × α)}
    (hes : ∀ e ∈ es, e.1 < n) (j : Nat) :
    j ∈ (c.accumulateAll es).indices ↔ j ∈ c.indices ∨ ∃ e ∈ es, e.1 = j := by
  induction es generalizing c with
  | nil => simp [accumulateAll]
  | cons e es ih =>
      have hrest := ih (c.accumulate e.1 e.2) fun f hf => hes f (List.mem_cons_of_mem e hf)
      rw [mem_indices_accumulate c (hes e List.mem_cons_self), or_assoc] at hrest
      rw [List.exists_mem_cons_iff, ← hrest]
      rfl

/-- Multiples of the cell at one place add up to a multiple of its dense reading. -/
theorem sum_map_entries_at [NonUnitalNonAssocSemiring α] (c : Cells α n) (a : α) (j : Nat) :
    (c.entries.map fun f => if f.1 = j then a * f.2 else 0).sum = a * c.get j := by
  rw [c.sum_map_entries (f := fun i v => if i = j then a * v else 0) (by simp)]
  show ∑ i ∈ Finset.range n, (if i = j then a * c.get i else 0) = a * c.get j
  rw [Finset.sum_ite_eq']
  by_cases hj : j ∈ Finset.range n
  · rw [if_pos hj]
  · have hnone : c.find? j = none := c.find?_eq_none_of_le (by simpa using hj)
    rw [if_neg hj, get, hnone, Option.getD_none, mul_zero]

theorem exists_mem_entries_iff (c : Cells α n) (j : Nat) :
    (∃ e ∈ c.entries, e.1 = j) ↔ j ∈ c.indices := by
  rw [← c.map_fst_entries, List.mem_map]

end Cells

namespace SparseMatrix

variable {α : Type}

/-- The dense reading of a place; zero outside the shape. -/
def cell [Zero α] (m : SparseMatrix α) (i j : Nat) : α := (m.line i).get j

def Occupies (m : SparseMatrix α) (i j : Nat) : Prop := j ∈ (m.line i).indices

theorem get_eq_ok [Scalar α] (m : SparseMatrix α) {i j : Nat} (hi : i < m.rows)
    (hj : j < m.cols) : m.get i j = .ok (m.cell i j) := by
  rw [get, requireIndex_eq_ok_iff.2 hi]
  exact (m.rowVector i).get_eq_ok hj

section Combine

variable [Scalar α] {n : Nat}

/-- What a row times a matrix adds up, with the places it is added at, in order. -/
def products (line : Cells α n) (m : SparseMatrix α) : List (Nat × α) :=
  line.entries.flatMap fun e => (m.line e.1).entries.map fun f => (f.1, e.2 * f.2)

theorem combine_eq (line : Cells α n) (m : SparseMatrix α) :
    combine line m = Cells.empty.accumulateAll (products line m) := by
  rw [combine, Cells.accumulateAll, products, List.foldl_flatMap]
  simp only [List.foldl_map]

theorem lt_of_mem_products {line : Cells α n} {m : SparseMatrix α} {e : Nat × α}
    (he : e ∈ products line m) : e.1 < m.cols := by
  obtain ⟨d, -, hd⟩ := List.mem_flatMap.1 he
  obtain ⟨f, hf, rfl⟩ := List.mem_map.1 hd
  exact (m.line d.1).lt_of_mem_entries (e := f) hf

/-- A place of the product is occupied exactly when some factor of the row meets an occupied place
there. -/
theorem mem_indices_combine (line : Cells α n) (m : SparseMatrix α) (j : Nat) :
    j ∈ (combine line m).indices ↔ ∃ l ∈ line.indices, j ∈ (m.line l).indices := by
  rw [combine_eq, Cells.mem_indices_accumulateAll _ fun e => lt_of_mem_products]
  simp only [Cells.indices, Cells.empty, Storage.empty, List.not_mem_nil, false_or, products,
    List.mem_flatMap, List.mem_map]
  constructor
  · rintro ⟨_, ⟨e, he, f, hf, rfl⟩, rfl⟩
    exact ⟨e.1, (line.exists_mem_entries_iff e.1).1 ⟨e, he, rfl⟩,
      ((m.line e.1).exists_mem_entries_iff f.1).1 ⟨f, hf, rfl⟩⟩
  · rintro ⟨l, hl, hj⟩
    obtain ⟨e, he, rfl⟩ := (line.exists_mem_entries_iff l).2 hl
    obtain ⟨f, hf, rfl⟩ := ((m.line e.1).exists_mem_entries_iff j).2 hj
    exact ⟨_, ⟨e, he, f, hf, rfl⟩, rfl⟩

end Combine

section Product

variable [Scalar α]

/-- What multiplying gives if the inner dimensions agree. -/
def product (m k : SparseMatrix α) : SparseMatrix α :=
  ⟨k.cols, m.lines.map fun line => combine line k⟩

theorem mul_eq_ok {m k : SparseMatrix α} (h : m.cols = k.rows) : m.mul k = .ok (m.product k) :=
  if_pos h

theorem mul_eq_error {m k : SparseMatrix α} (h : m.cols ≠ k.rows) :
    m.mul k = .error (.dimensionMismatch .multiply m.shape k.shape) :=
  if_neg h

@[simp] theorem cols_product (m k : SparseMatrix α) : (m.product k).cols = k.cols := rfl

@[simp] theorem rows_product (m k : SparseMatrix α) : (m.product k).rows = m.rows := by
  simp [product, rows]

theorem line_product (m k : SparseMatrix α) {i : Nat} (hi : i < m.rows) :
    (m.product k).line i = combine (m.line i) k := by
  have hlines : i < m.lines.length := hi
  simp [product, line, hlines]

theorem occupies_product_iff (m k : SparseMatrix α) {i : Nat} (hi : i < m.rows) (j : Nat) :
    (m.product k).Occupies i j ↔ ∃ l, m.Occupies i l ∧ k.Occupies l j := by
  have hindices : ((m.product k).line i).indices = (combine (m.line i) k).indices :=
    congrArg Cells.indices (line_product m k hi)
  rw [Occupies, hindices, mem_indices_combine]
  rfl

end Product

/-- Over the rationals a place of the product of a row and a matrix holds a sum over all places of
the row, whatever is stored in which order. -/
theorem get_combine {n : Nat} (line : Cells Rat n) (m : SparseMatrix Rat) (j : Nat) :
    (combine line m).get j = ∑ l ∈ Finset.range n, line.get l * m.cell l j := by
  have hempty : (Cells.empty : Cells Rat m.cols).get j = 0 := rfl
  rw [combine_eq, Cells.get_accumulateAll _ fun e => lt_of_mem_products, hempty, zero_add]
  calc ((products line m).map fun e => if e.1 = j then e.2 else 0).sum
      = (line.entries.map fun e =>
          ((m.line e.1).entries.map fun f => if f.1 = j then e.2 * f.2 else 0).sum).sum := by
        rw [products, List.map_flatMap, List.flatMap, List.sum_flatten, List.map_map]
        simp only [List.map_map, Function.comp_def]
    _ = (line.entries.map fun e => e.2 * m.cell e.1 j).sum := by
        simp only [Cells.sum_map_entries_at]
        rfl
    _ = ((List.range n).map fun l => line.get l * m.cell l j).sum :=
        line.sum_map_entries (f := fun l a => a * m.cell l j) fun l => zero_mul (m.cell l j)

theorem cell_product (m k : SparseMatrix Rat) {i : Nat} (hi : i < m.rows) (j : Nat) :
    (m.product k).cell i j = ∑ l ∈ Finset.range m.cols, m.cell i l * k.cell l j :=
  (congrArg (Cells.get · j) (line_product m k hi)).trans (get_combine (m.line i) k j)

theorem lt_rows_of_occupies {m k : SparseMatrix α} (h : m.cols = k.rows) {i l : Nat}
    (hl : m.Occupies i l) : l < k.rows :=
  h ▸ (m.line i).lt_of_mem_indices hl

/-- The product of two matrices is there exactly when the inner dimensions agree. It then is the
dense product, place by place, and a place of it is occupied exactly when some factors that meet
there both are. Every row that the product looks up in the right operand exists. -/
theorem mul_dense (m k : SparseMatrix Rat) :
    (m.cols ≠ k.rows → m.mul k = .error (.dimensionMismatch .multiply m.shape k.shape)) ∧
    (m.cols = k.rows → ∃ p, m.mul k = .ok p ∧ p.shape = ⟨m.rows, k.cols⟩ ∧
      (∀ i l, m.Occupies i l → l < k.rows) ∧
      ∀ i < m.rows, ∀ j < k.cols,
        (∀ l < m.cols, m.get i l = .ok (m.cell i l) ∧ k.get l j = .ok (k.cell l j)) ∧
        p.get i j = .ok (∑ l ∈ Finset.range m.cols, m.cell i l * k.cell l j) ∧
        (p.Occupies i j ↔ ∃ l, m.Occupies i l ∧ k.Occupies l j)) := by
  refine ⟨mul_eq_error, fun h => ⟨m.product k, mul_eq_ok h, ?_, ?_, ?_⟩⟩
  · rw [shape, rows_product, cols_product]
  · exact fun i l => lt_rows_of_occupies h
  · intro i hi j hj
    refine ⟨?_, ?_, occupies_product_iff m k hi j⟩
    · intro l hl
      exact ⟨m.get_eq_ok hi hl, k.get_eq_ok (h ▸ hl) hj⟩
    · have hrows : i < (m.product k).rows := (rows_product m k).symm ▸ hi
      rw [(m.product k).get_eq_ok hrows hj, cell_product m k hi]

end SparseMatrix

end LinearModel
