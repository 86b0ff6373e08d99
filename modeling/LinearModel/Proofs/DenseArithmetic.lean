import Mathlib
import LinearModel.Proofs.DenseEquality
import LinearModel.Proofs.Evaluation
import LinearModel.Proofs.WriteHistory

/-!
# Arithmetic of vectors

Adding, scaling and the inner product walk the occupied places of their operands, each in its own
storage order. Over the rationals their results have the values that the same operations have on
dense lists, whatever is stored in which order (`Cells.get_addAll`, `Cells.get_scale`,
`Cells.sumAt_eq_sum`), so that the inner product is symmetric and what was added can be taken away
again. The storage order of a sum is the left operand's, followed by the places that only the right
one occupies (`Cells.indices_addAll`).
-/

namespace LinearModel

theorem sum_eq_list_sum (xs : List Rat) : Scalar.sum xs = xs.sum := by
  rw [List.sum_eq_foldl, Scalar.sum, neg_zero]

namespace Cells

variable {n m : Nat}

theorem indices_addAll {α : Type} [Add α] (c : Cells α n) (d : Cells α m) (h : m ≤ n) :
    (c.addAll d).indices = c.indices ++ d.indices.filter (· ∉ c.indices) := by
  have hlt : ∀ e ∈ d.entries, e.1 < n := fun e he => (d.lt_of_mem_entries he).trans_le h
  rw [← d.map_fst_entries, ← firstWrites_of_nodup hlt d.nodup_map_fst_entries]
  exact c.indices_foldl_upsert (fun e x => x + e.2) d.entries

theorem get_addAll (c : Cells Rat n) (d : Cells Rat m) (h : m ≤ n) (j : Nat) :
    (c.addAll d).get j = c.get j + d.get j := by
  have hlt : ∀ e ∈ d.entries, e.1 < n := fun e he => (d.lt_of_mem_entries he).trans_le h
  have hat := d.sum_map_entries_at 1 j
  simp only [one_mul] at hat
  rw [← hat]
  exact c.get_accumulateAll hlt j

theorem get_scale (c : Cells Rat n) (k : Rat) (j : Nat) : (c.map (· * k)).get j = k * c.get j := by
  rw [get, find?_map, get]
  cases c.find? j with
  | none => exact (mul_zero k).symm
  | some a => exact mul_comm a k

/-- The sum along the stored cells is the sum over all places. -/
theorem sumAt_eq_sum (c : Cells Rat n) (x : List Rat) :
    c.sumAt x = ∑ i ∈ Finset.range n, c.get i * x.getD i 0 := by
  rw [sumAt, sum_eq_list_sum]
  exact c.sum_map_entries (f := fun i a => a * x.getD i 0) fun i => zero_mul (x.getD i 0)

end Cells

namespace SparseVector

variable {v w : SparseVector Rat}

theorem dotDense_toDense (h : v.size = w.size) : v.dotDense w.toDense =
    .ok (∑ i ∈ Finset.range v.size, v.cells.get i * w.cells.get i) := by
  rw [dotDense_of_length v (w.length_toDense.trans h.symm), Cells.sumAt_eq_sum]
  simp only [toDense, Cells.getD_toDense]

theorem dot_eq_ok (h : v.size = w.size) : v.dot w =
    .ok (∑ i ∈ Finset.range v.size, v.cells.get i * w.cells.get i) :=
  (if_pos h).trans (dotDense_toDense h)

theorem dot_comm (h : v.size = w.size) : v.dot w = w.dot v := by
  rw [dot_eq_ok h, dot_eq_ok h.symm]
  exact congrArg Except.ok (Finset.sum_congr (congrArg Finset.range h) fun i _ => mul_comm _ _)

/-- What is added with its signs changed is taken away again. -/
theorem add_scale_beq (h : v.size = w.size) :
    ∃ back, SparseVector.add { v with cells := v.cells.addAll w.cells } (w.scale (-1)) = .ok back ∧
      (back == v) = true := by
  refine ⟨_, if_pos h, beq_of_get_eq rfl (fun i _ => ?_) fun i _ => beq_self_eq_true _⟩
  show ((v.cells.addAll w.cells).addAll (w.cells.map (· * -1))).get i = v.cells.get i
  rw [Cells.get_addAll _ _ h.ge, Cells.get_addAll _ _ h.ge, Cells.get_scale]
  ring

/-- Sums and inner products are there exactly when the sizes agree, and scaling always is. They are
the dense ones, at every place and past the end, where all of them are refused alike; the inner
product is symmetric and the same against a dense list, and adding the opposite undoes a sum. Both
results keep the orientation and the order of what they are made of, a sum appending the places
that only its right operand occupies. -/
theorem arithmetic_dense (v w : SparseVector Rat) (k : Rat) :
    (v.size ≠ w.size → v.add w = .error (.dimensionMismatch .add v.shape w.shape) ∧
      v.dot w = .error (.dimensionMismatch .dot v.shape w.shape)) ∧
    (v.size = w.size → ∃ sum product, v.add w = .ok sum ∧ v.dot w = .ok product ∧
      sum.size = v.size ∧ sum.orientation = v.orientation ∧
      sum.indices = v.indices ++ w.indices.filter (· ∉ v.indices) ∧
      (∀ i, sum.get i = do return (← v.get i) + (← w.get i)) ∧
      product = ∑ i ∈ Finset.range v.size, v.cells.get i * w.cells.get i ∧
      w.dot v = .ok product ∧ v.dotDense w.toDense = .ok product ∧
      ∃ back, sum.add (w.scale (-1)) = .ok back ∧ (back == v) = true) ∧
    (v.scale k).size = v.size ∧ (v.scale k).orientation = v.orientation ∧
    (v.scale k).indices = v.indices ∧ (∀ i, (v.scale k).get i = (v.get i).map (k * ·)) ∧
    ∀ i < v.size, v.get i = .ok (v.cells.get i) := by
  refine ⟨fun h => ⟨if_neg h, if_neg h⟩, fun h => ?_, rfl, rfl, rfl, fun i => ?_,
    fun i => v.get_eq_ok⟩
  · refine ⟨_, _, if_pos h, dot_eq_ok h, rfl, rfl, Cells.indices_addAll _ _ h.ge, fun i => ?_, rfl,
      (dot_comm h).symm.trans (dot_eq_ok h), dotDense_toDense h, add_scale_beq h⟩
    rcases Nat.lt_or_ge i v.size with hlt | hle
    · rw [v.get_eq_ok hlt, w.get_eq_ok (h ▸ hlt)]
      exact (get_eq_ok { v with cells := v.cells.addAll w.cells } hlt).trans
        (congrArg Except.ok (Cells.get_addAll _ _ h.ge i))
    · rw [v.get_eq_error hle]
      exact get_eq_error _ hle
  · rcases Nat.lt_or_ge i v.size with hlt | hle
    · rw [v.get_eq_ok hlt]
      exact (get_eq_ok (v.scale k) hlt).trans (congrArg Except.ok (v.cells.get_scale k i))
    · rw [v.get_eq_error hle]
      exact get_eq_error _ hle

end SparseVector

end LinearModel
