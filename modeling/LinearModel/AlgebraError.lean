import LinearModel.Shape

/-!
# What can go wrong between shapes

Operations on vectors, matrices and programs refuse operands that do not fit, and indices past the
end of an axis. An `AlgebraError` is the cause; `AlgebraError.message` is its wording.
-/

namespace LinearModel

/-- What two shapes had to agree for. -/
inductive Agreement where
  | dot
  | add
  | multiply
  | denseRows
  | variableNames
  | objective
  | lowerBounds
  | upperBounds
  | integerFlags
  | constraint
  | point
  deriving DecidableEq, Repr

def Agreement.text : Agreement → String
  | dot => "dot"
  | add => "add"
  | multiply => "multiply"
  | denseRows => "from_dense"
  | variableNames => "variable names"
  | objective => "objective"
  | lowerBounds => "lower bounds"
  | upperBounds => "upper bounds"
  | integerFlags => "integer flags"
  | constraint => "constraint"
  | point => "point"

/-- Why an operation refused its operands. -/
inductive AlgebraError where
  | dimensionMismatch (purpose : Agreement) (left right : Shape)
  | indexOutOfRange (index size : Nat)
  | unsupportedOrientation (left right : Orientation)
  deriving DecidableEq, Repr

namespace AlgebraError

def message : AlgebraError → String
  | dimensionMismatch purpose left right =>
    s!"Dimension mismatch in {purpose.text}: {left.text} vs {right.text}"
  | indexOutOfRange index size => s!"Index {index} out of range for axis of size {size}"
  | unsupportedOrientation left right =>
    s!"Cannot multiply a {left.text} vector by a {right.text} vector"

end AlgebraError

/-- Succeeds exactly when `index` is below `size`. -/
def requireIndex (index size : Nat) : Except AlgebraError Unit :=
  if index < size then .ok () else .error (.indexOutOfRange index size)

theorem requireIndex_eq_ok_iff {index size : Nat} :
    requireIndex index size = .ok () ↔ index < size := by
  unfold requireIndex
  split <;> simp_all

end LinearModel
