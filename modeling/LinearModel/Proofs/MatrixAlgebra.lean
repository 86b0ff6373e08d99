import Mathlib
import LinearModel.Proofs.ProductRoutines

/-!
# The algebra of matrices

Multiplying, adding and transposing build their results by different walks along stored cells, and
refuse operands that do not fit. Over the rationals the usual laws hold up to equality of dense
values, zeros that are stored or not making no difference: products are associative and distribute
over sums, sums commute, and transposing a product exchanges its operands
(`SparseMatrix.mul_add_transpose_laws`). In every law both sides succeed for the same shapes, sides
of length zero included.
-/

namespace LinearModel

namespace SparseMatrix

section Sums

variable {α : Type} [Scalar α] {m k : SparseMatrix α}

/-- What adding gives if the shapes agree. -/
def sum (m k : SparseMatrix α) : SparseMatrix α :=
  ⟨m.cols, List.zipWith (fun a b => a.addAll b) m.lines k.lines⟩

theorem add_eq_ok (h : m.shape = k.shape) : m.add k = .ok (m.sum k) :=
  if_pos h

theorem add_eq_error (h : m.shape ≠ k.shape) :
    m.add k = .error (.dimensionMismatch .add m.shape k.shape) :=
  if_neg h

omit [Scalar α] in
theorem shape_eq_iff : m.shape = k.shape ↔ m.rows = k.rows ∧ m.cols = k.cols := by
  rw [shape, shape, Shape.mk.injEq]

@[simp] theorem cols_sum (m k : SparseMatrix α) : (m.sum k).cols = m.cols := rfl

theorem rows_sum (h : m.rows = k.rows) : (m.sum k).rows = m.rows := by
  have hlines : m.lines.length = k.lines.length := h
  simp [rows, sum, hlines]

theorem line_sum (h : m.rows = k.rows) {i : Nat} (hi : i < m.rows) :
    (m.sum k).line i = (m.line i).addAll (k.line i) := by
  have hm : i < m.lines.length := hi
  have hk : i < k.lines.length := hm.trans_eq h
  simp [line, sum, hm, hk]

end Sums

theorem cell_sum {m k : SparseMatrix Rat} (h : m.shape = k.shape) {i : Nat} (hi : i < m.rows)
    (j : Nat) : (m.sum k).cell i j = m.cell i j + k.cell i j := by
  obtain ⟨hrows, hcols⟩ := shape_eq_iff.1 h
  have hline := congrArg (Cells.get · j) (line_sum hrows hi)
  exact hline.trans (Cells.get_addAll _ _ hcols.ge j)

namespace IsProduct

variable {m k l p q r : SparseMatrix Rat}

/-- What is a product with a product is a product of the product. -/
theorem assoc (h : m.cols = k.rows) (hp : m.IsProduct k p) (hq : k.IsProduct l q)
    (hr : m.IsProduct q r) : p.IsProduct l r where
  rows_eq := hr.rows_eq.trans hp.rows_eq.symm
  cols_eq := hr.cols_eq.trans hq.cols_eq
  cell_eq i hi j hj := by
    have hi' : i < m.rows := hp.rows_eq ▸ hi
    have hright : ∀ a < m.cols, q.cell a j = ∑ b ∈ Finset.range k.cols, k.cell a b * l.cell b j :=
      fun a ha => hq.cell_eq a (h ▸ ha) j hj
    have hleft : ∀ b < k.cols, p.cell i b = ∑ a ∈ Finset.range m.cols, m.cell i a * k.cell a b :=
      fun b hb => hp.cell_eq i hi' b hb
    calc r.cell i j
        = ∑ a ∈ Finset.range m.cols, m.cell i a * q.cell a j :=
          hr.cell_eq i hi' j (hq.cols_eq ▸ hj)
      _ = ∑ a ∈ Finset.range m.cols, ∑ b ∈ Finset.range k.cols,
            m.cell i a * k.cell a b * l.cell b j := by
          refine Finset.sum_congr rfl fun a ha => ?_
          rw [hright a (Finset.mem_range.1 ha), Finset.mul_sum]
          exact Finset.sum_congr rfl fun b _ => (mul_assoc _ _ _).symm
      _ = ∑ b ∈ Finset.range k.cols, ∑ a ∈ Finset.range m.cols,
            m.cell i a * k.cell a b * l.cell b j := Finset.sum_comm
      _ = ∑ b ∈ Finset.range p.cols, p.cell i b * l.cell b j := by
          rw [hp.cols_eq]
          refine Finset.sum_congr rfl fun b hb => ?_
          rw [hleft b (Finset.mem_range.1 hb), Finset.sum_mul]

/-- The sum of two products with one left operand is a product with the sum. -/
theorem add (h : m.cols = k.rows) (hshape : k.shape = l.shape) (hp : m.IsProduct k p)
    (hq : m.IsProduct l q) : m.IsProduct (k.sum l) (p.sum q) := by
  obtain ⟨-, hcols⟩ := shape_eq_iff.1 hshape
  have hrows : p.rows = q.rows := hp.rows_eq.trans hq.rows_eq.symm
  have hshapes : p.shape = q.shape :=
    shape_eq_iff.2 ⟨hrows, hp.cols_eq.trans (hcols.trans hq.cols_eq.symm)⟩
  refine ⟨(rows_sum hrows).trans hp.rows_eq, hp.cols_eq, fun i hi j hj => ?_⟩
  rw [cell_sum hshapes (hp.rows_eq.symm ▸ hi), hp.cell_eq i hi j hj,
    hq.cell_eq i hi j (hcols ▸ hj), ← Finset.sum_add_distrib]
  refine Finset.sum_congr rfl fun a ha => ?_
  rw [cell_sum hshape (h ▸ Finset.mem_range.1 ha), mul_add]

end IsProduct

theorem sum_comm_beq {m k : SparseMatrix Rat} (h : m.shape = k.shape) :
    (m.sum k == k.sum m) = true := by
  obtain ⟨hrows, hcols⟩ := shape_eq_iff.1 h
  refine beq_of_cell_eq ?_ hcols (fun i hi j _ => ?_) fun i _ j _ => beq_self_eq_true _
  · rw [rows_sum hrows, rows_sum hrows.symm, hrows]
  · rw [rows_sum hrows] at hi
    rw [cell_sum h hi, cell_sum h.symm (hrows ▸ hi), add_comm]

/-- A computation succeeds exactly under a condition, and then with the matrix given. -/
structure Yields {α : Type} (x : Except AlgebraError (SparseMatrix α)) (c : Prop)
    (p : SparseMatrix α) : Prop where
  ok : c → x = .ok p
  error : ¬ c → ∃ e, x = .error e

/-- Two computations succeed exactly under a condition, and then with equal matrices. -/
structure AgreeIff {α : Type} [Scalar α] (c : Prop)
    (x y : Except AlgebraError (SparseMatrix α)) : Prop where
  ok : c → ∃ p q, x = .ok p ∧ y = .ok q ∧ (p == q) = true
  error : ¬ c → (∃ e, x = .error e) ∧ ∃ e, y = .error e

namespace Yields

variable {α : Type} {x y : Except AlgebraError (SparseMatrix α)} {c d : Prop}
  {p q : SparseMatrix α}

theorem mul [Scalar α] (m k : SparseMatrix α) :
    Yields (m.mul k) (m.cols = k.rows) (m.product k) :=
  ⟨mul_eq_ok, fun h => ⟨_, mul_eq_error h⟩⟩

theorem add [Scalar α] (m k : SparseMatrix α) : Yields (m.add k) (m.shape = k.shape) (m.sum k) :=
  ⟨add_eq_ok, fun h => ⟨_, add_eq_error h⟩⟩

theorem bind {f : SparseMatrix α → Except AlgebraError (SparseMatrix α)} (hx : Yields x c p)
    (hf : Yields (f p) d q) : Yields (x >>= f) (c ∧ d) q where
  ok := by
    rintro ⟨hc, hd⟩
    rw [hx.ok hc]
    exact hf.ok hd
  error h := by
    by_cases hc : c
    · rw [hx.ok hc]
      exact hf.error fun hd => h ⟨hc, hd⟩
    · obtain ⟨e, he⟩ := hx.error hc
      exact ⟨e, by rw [he]; rfl⟩

theorem map (hx : Yields x c p) (f : SparseMatrix α → SparseMatrix α) :
    Yields (x.map f) c (f p) where
  ok hc := by
    rw [hx.ok hc]
    rfl
  error hc := by
    obtain ⟨e, he⟩ := hx.error hc
    exact ⟨e, by rw [he]; rfl⟩

theorem congr (hx : Yields x c p) (h : c ↔ d) : Yields x d p := propext h ▸ hx

theorem agree [Scalar α] (hx : Yields x c p) (hy : Yields y c q) (h : c → (p == q) = true) :
    AgreeIff c x y :=
  ⟨fun hc => ⟨p, q, hx.ok hc, hy.ok hc, h hc⟩, fun hc => ⟨hx.error hc, hy.error hc⟩⟩

end Yields

section Laws

variable (m k l : SparseMatrix Rat)

theorem mul_assoc_agree : AgreeIff (m.cols = k.rows ∧ k.cols = l.rows)
    (do (← m.mul k).mul l) (do m.mul (← k.mul l)) := by
  have hright : k.cols = l.rows ∧ m.cols = (k.product l).rows ↔
      m.cols = k.rows ∧ k.cols = l.rows := by
    rw [rows_product, and_comm]
  refine ((Yields.mul m k).bind (.mul _ l)).agree (((Yields.mul k l).bind (.mul m _)).congr hright)
    fun ⟨hmk, _⟩ => ?_
  exact (IsProduct.product _ _).beq
    ((IsProduct.product m k).assoc hmk (.product k l) (.product m _))

theorem mul_add_agree : AgreeIff (m.cols = k.rows ∧ k.shape = l.shape)
    (do m.mul (← k.add l)) (do (← m.mul k).add (← m.mul l)) := by
  have hleft : k.shape = l.shape ∧ m.cols = (k.sum l).rows ↔
      m.cols = k.rows ∧ k.shape = l.shape := by
    rw [and_comm]
    refine and_congr_left fun h => ?_
    rw [rows_sum (shape_eq_iff.1 h).1]
  have hright : m.cols = k.rows ∧ m.cols = l.rows ∧ (m.product k).shape = (m.product l).shape ↔
      m.cols = k.rows ∧ k.shape = l.shape := by
    rw [shape_eq_iff, shape_eq_iff, rows_product, rows_product]
    exact and_congr_right fun h => by rw [h]; simp
  refine (((Yields.add k l).bind (.mul m _)).congr hleft).agree
    (((Yields.mul m k).bind ((Yields.mul m l).bind (.add _ _))).congr hright) fun ⟨h, hshape⟩ => ?_
  exact (IsProduct.product _ _).beq ((IsProduct.product m k).add h hshape (.product m l))

theorem add_comm_agree : AgreeIff (m.shape = k.shape) (m.add k) (k.add m) :=
  (Yields.add m k).agree ((Yields.add k m).congr eq_comm) sum_comm_beq

theorem transpose_mul_agree : AgreeIff (m.cols = k.rows) ((m.mul k).map transpose)
    (k.transpose.mul m.transpose) := by
  have hflipped : k.transpose.cols = m.transpose.rows ↔ m.cols = k.rows := by
    rw [cols_transpose, rows_transpose, eq_comm]
  refine ((Yields.mul m k).map transpose).agree ((Yields.mul _ _).congr hflipped) fun h => ?_
  exact ((IsProduct.product m k).transpose h).beq (.product _ _)

/-- Matrices over the rationals obey the laws of their algebra. A product of three does not depend
on how it is bracketed, multiplying distributes over adding, sums commute, and transposing a product
exchanges its operands; both sides of a law are refused for the same operands, namely those whose
shapes do not fit. -/
theorem mul_add_transpose_laws :
    AgreeIff (m.cols = k.rows ∧ k.cols = l.rows)
      (do (← m.mul k).mul l) (do m.mul (← k.mul l)) ∧
    AgreeIff (m.cols = k.rows ∧ k.shape = l.shape)
      (do m.mul (← k.add l)) (do (← m.mul k).add (← m.mul l)) ∧
    AgreeIff (m.shape = k.shape) (m.add k) (k.add m) ∧
    AgreeIff (m.cols = k.rows) ((m.mul k).map transpose) (k.transpose.mul m.transpose) :=
  ⟨mul_assoc_agree m k l, mul_add_agree m k l, add_comm_agree m k, transpose_mul_agree m k⟩

end Laws

end SparseMatrix

end LinearModel
