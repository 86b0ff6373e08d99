import LinearModel.Program

/-!
# Points of a program

What a program says about a point: the objective there, the left-hand side of a constraint, and
whether the point is feasible. Every comparison allows for `Number.tolerance`, and a binary
variable is held to zero and one whatever bounds were declared for it.
-/

namespace LinearModel

namespace Constraint

variable {α : Type} {n : Nat} [Number α]

def lhs (c : Constraint α n) (x : List α) : Except AlgebraError α := c.row.dotDense x

def accepts (c : Constraint α n) (lhs : α) : Bool :=
  match c.relation with
  | .le => Number.le lhs (c.rhs + Number.tolerance)
  | .ge => Number.le (c.rhs - Number.tolerance) lhs
  | .eq => Number.le (Number.abs (lhs - c.rhs)) Number.tolerance

def holdsAt (c : Constraint α n) (x : List α) : Except AlgebraError Bool := do
  return c.accepts (← c.lhs x)

end Constraint

namespace Variable

variable {α : Type} [Number α]

/-- The bounds that count: zero and one for a binary variable, else the declared ones. -/
def effectiveBounds (v : Variable α) : α × α := if v.binary then (0, 1) else (v.lower, v.upper)

def nearInteger (x : α) : Bool := !Number.lt Number.tolerance (Number.abs (x - Number.round x))

/-- The value keeps the bounds and the kind of the variable, within the tolerance. -/
def admits (v : Variable α) (x : α) : Bool :=
  let (lower, upper) := v.effectiveBounds
  !Number.isNaN x && !Number.lt x (lower - Number.tolerance)
    && !Number.lt (upper + Number.tolerance) x
    && (!(v.integer || v.binary) || nearInteger x)

end Variable

namespace LinearProgram

variable {α : Type} [Number α]

def evaluate (lp : LinearProgram α) (x : List α) : Except AlgebraError α :=
  lp.objectiveRow.dotDense x

/-- The point keeps every bound, every integer requirement and every constraint, each within the
tolerance. -/
def isFeasible (lp : LinearProgram α) (x : List α) : Except AlgebraError Bool :=
  if x.length = lp.dimension then
    if (lp.unknowns.toList.zip x).all fun (v, value) => v.admits value then
      lp.constraints.allM (Constraint.holdsAt · x)
    else
      .ok false
  else
    .error (.dimensionMismatch .point ⟨1, lp.dimension⟩ ⟨1, x.length⟩)

end LinearProgram

end LinearModel
