import LinearModel.Program.Feasibility

/-!
# What a program says at a point

A point with one value for each variable is never refused: every linear form has a value there, the
sum along the cells that it stores (`Cells.sumAt`), and feasibility is decided by the variables and
the values of the constraints.
-/

namespace LinearModel

/-- The sum over the stored cells, in their order, of the stored value times that of `x` there. -/
def Cells.sumAt {α : Type} [Scalar α] {n : Nat} (c : Cells α n) (x : List α) : α :=
  Scalar.sum (c.entries.map fun e => e.2 * x.getD e.1 0)

theorem SparseVector.dotDense_of_length {α : Type} [Scalar α] (v : SparseVector α) {x : List α}
    (hx : x.length = v.size) : v.dotDense x = .ok (v.cells.sumAt x) :=
  if_pos hx.symm

variable {α : Type} [Number α]

namespace Constraint

variable {n : Nat} (c : Constraint α n) {x : List α}

theorem lhs_of_length (hx : x.length = n) : c.lhs x = .ok (c.coefficients.sumAt x) :=
  c.row.dotDense_of_length hx

theorem holdsAt_of_length (hx : x.length = n) :
    c.holdsAt x = .ok (c.accepts (c.coefficients.sumAt x)) := by
  rw [holdsAt, c.lhs_of_length hx]
  rfl

end Constraint

namespace LinearProgram

variable (lp : LinearProgram α) {x : List α}

theorem evaluate_of_length (hx : x.length = lp.dimension) :
    lp.evaluate x = .ok (lp.objective.sumAt x) :=
  lp.objectiveRow.dotDense_of_length hx

theorem isFeasible_of_length (hx : x.length = lp.dimension) :
    lp.isFeasible x = .ok (((lp.unknowns.toList.zip x).all fun (v, value) => v.admits value) &&
      lp.constraints.all fun c => c.accepts (c.coefficients.sumAt x)) := by
  have hholds : (fun c : Constraint α lp.dimension => c.holdsAt x) =
      fun c => pure (c.accepts (c.coefficients.sumAt x)) :=
    funext fun c => c.holdsAt_of_length hx
  rw [isFeasible, if_pos hx, hholds, List.allM_pure]
  cases (lp.unknowns.toList.zip x).all fun (v, value) => v.admits value <;> rfl

end LinearProgram

end LinearModel
