import Mathlib
import LinearModel.Proofs.Coordinates
import LinearModel.Proofs.Evaluation
import LinearModel.Proofs.ExactArithmetic
import LinearModel.Proofs.Lookups

/-!
# Linear forms without rounding

The value of a linear form at a rational point (`Cells.formAt`) is a sum over all places. It is also
what summing the stored cells gives, in whatever order they are stored, and what summing the triples
of its row gives, from which the zeros are missing.
-/

namespace LinearModel

def entryAt (x : List Rat) (e : Nat × ExtendedRat) : ExtendedRat := e.2 * .finite (x.getD e.1 0)

theorem entryAt_of_beq_zero {e : Nat × ExtendedRat} (x : List Rat) (h : (e.2 == 0) = true) :
    entryAt x e = 0 := by
  have hzero : e.2 = 0 := (LawfulNumber.beq_zero_iff e.2).1 h
  rw [entryAt, hzero, ExtendedRat.zero_mul_finite]

namespace Cells

variable {n : Nat}

/-- The value of the linear form at a point: the sum over all places of coefficient times value. -/
def formAt (c : Cells ExtendedRat n) (x : List Rat) : ExtendedRat :=
  Scalar.sum (List.zipWith (fun a q => a * .finite q) c.toDense x)

theorem formAt_eq_sum_range (c : Cells ExtendedRat n) {x : List Rat} (hx : x.length = n) :
    c.formAt x = ((List.range n).map fun j => c.get j * .finite (x.getD j 0)).sum := by
  have hpoint : x = (List.range n).map fun j => x.getD j 0 := by
    apply List.ext_getElem
    · simp [hx]
    · intro j hj hj'
      simp [hj]
  rw [formAt, ExtendedRat.sum_eq, c.toDense_eq_map_range]
  conv_lhs => rw [hpoint]
  rw [List.zipWith_map, List.zipWith_self]

/-- Summing the stored cells in their own order gives the value of the linear form. -/
theorem sum_entries (c : Cells ExtendedRat n) {x : List Rat} (hx : x.length = n) :
    (c.entries.map (entryAt x)).sum = c.formAt x := by
  rw [c.formAt_eq_sum_range hx]
  exact c.sum_map_entries (f := fun j a => a * .finite (x.getD j 0)) fun j =>
    ExtendedRat.zero_mul_finite (x.getD j 0)

theorem exists_formAt_eq_finite (c : Cells ExtendedRat n) {x : List Rat} (hx : x.length = n)
    (hfinite : ∀ v ∈ c.values, Number.isFinite v = true) : ∃ q, c.formAt x = .finite q := by
  rw [← c.sum_entries hx]
  apply ExtendedRat.exists_sum_eq_finite
  intro v hv
  obtain ⟨e, he, rfl⟩ := List.mem_map.1 hv
  obtain ⟨q, hq⟩ : ∃ q, e.2 = ExtendedRat.finite q :=
    Number.isFinite_iff.1 (hfinite e.2 (c.map_snd_entries ▸ List.mem_map_of_mem he))
  exact ⟨_, by rw [entryAt, hq, ExtendedRat.finite_mul_finite]⟩

/-- At a rational point the sum along the stored cells is the value of the linear form. -/
theorem sumAt_map_finite (c : Cells ExtendedRat n) {x : List Rat} (hx : x.length = n) :
    c.sumAt (x.map .finite) = c.formAt x := by
  rw [sumAt, ExtendedRat.sum_eq, ← c.sum_entries hx]
  refine congrArg List.sum (List.map_congr_left fun e _ => ?_)
  rw [entryAt, List.getD_eq_getElem?_getD, List.getD_eq_getElem?_getD, List.getElem?_map]
  cases x[e.1]? <;> rfl

end Cells

namespace LinearProgram

section Terms

open BufferedEngine

variable {α : Type}

theorem filterMap_eq_nil_of_ne {ts : List (Nat × Nat × α)} {row : Nat}
    (h : ∀ t ∈ ts, t.1 ≠ row) : ts.filterMap (termOf row) = [] := by
  rw [List.filterMap_eq_nil_iff]
  intro t ht
  rw [termOf, if_neg (h t ht)]

variable [Number α] {n : Nat}

theorem filterMap_rowTriples (c : Constraint α n) (row : Nat) :
    (rowTriples c row).filterMap (termOf row) = ascendingEntries c := by
  rw [rowTriples_eq_map, List.filterMap_map]
  exact (List.filterMap_congr fun e _ => by simp [termOf]).trans List.filterMap_some

theorem filterMap_triplesFrom {cs : List (Constraint α n)} {i : Nat} {c : Constraint α n}
    (hc : cs[i]? = some c) (k : Nat) :
    (triplesFrom k cs).filterMap (termOf (k + i + 1)) = ascendingEntries c := by
  induction cs generalizing k i with
  | nil => cases hc
  | cons d cs ih =>
      rw [triplesFrom_cons, List.filterMap_append]
      cases i with
      | zero =>
          cases hc
          rw [Nat.add_zero, filterMap_rowTriples, filterMap_eq_nil_of_ne, List.append_nil]
          rintro ⟨r, col, v⟩ ht
          obtain ⟨i, -, -, rfl, -⟩ := (mem_triplesFrom_iff _ cs r col v).1 ht
          show k + 1 + i + 1 ≠ k + 1
          omega
      | succ i =>
          have hhead : ∀ t ∈ rowTriples d (k + 1), t.1 ≠ k + (i + 1) + 1 := by
            rintro ⟨r, col, v⟩ ht
            obtain ⟨rfl, -⟩ := (mem_rowTriples_iff d _ r col v).1 ht
            show k + 1 ≠ k + (i + 1) + 1
            omega
          rw [filterMap_eq_nil_of_ne hhead, List.nil_append, ← ih hc (k + 1)]
          congr 2
          omega

/-- The terms that the coordinate list of a program has for a row are the coefficients of its
constraint that are not zero. -/
theorem termsOf_coordinates (lp : LinearProgram α) {i : Nat} {c : Constraint α lp.dimension}
    (hc : lp.constraints[i]? = some c) :
    termsOf lp.coordinates (i + 1) = ascendingEntries c := by
  have hterms := filterMap_triplesFrom hc 0
  rw [Nat.zero_add] at hterms
  rw [termsOf, triples_coordinates, hterms]

end Terms

/-- Leaving out the zeros and sorting does not change the value of the linear form. -/
theorem sum_ascendingEntries {n : Nat} (c : Constraint ExtendedRat n) {x : List Rat}
    (hx : x.length = n) :
    ((ascendingEntries c).map (entryAt x)).sum = c.coefficients.formAt x := by
  rw [((ascendingEntries_perm c).map (entryAt x)).sum_eq, ← c.coefficients.sum_entries hx]
  refine sum_map_filter_of_eq_zero _ ?_
  intro e _ he
  exact entryAt_of_beq_zero x (by simpa using he)

end LinearProgram

/-- The sum over the triples of a row of value times the member of a point at the column. -/
def CoordinateList.rowSum (m : CoordinateList ExtendedRat) (row : Nat) (x : List Rat) :
    ExtendedRat :=
  Scalar.sum ((m.triples.filter fun t => t.1 = row).map fun t =>
    t.2.2 * .finite (x.getD (t.2.1 - 1) 0))

theorem CoordinateList.rowSum_eq (m : CoordinateList ExtendedRat) (row : Nat) (x : List Rat) :
    m.rowSum row x = ((BufferedEngine.termsOf m row).map (entryAt x)).sum := by
  rw [rowSum, ExtendedRat.sum_eq, BufferedEngine.termsOf]
  induction m.triples with
  | nil => rfl
  | cons t ts ih =>
      by_cases ht : t.1 = row
      · rw [List.filter_cons_of_pos (by simpa using ht), List.map_cons, List.sum_cons, ih,
          List.filterMap_cons_some (by rw [BufferedEngine.termOf, if_pos ht]), List.map_cons,
          List.sum_cons]
        rfl
      · rw [List.filter_cons_of_neg (by simpa using ht), ih,
          List.filterMap_cons_none (by rw [BufferedEngine.termOf, if_neg ht])]

end LinearModel
