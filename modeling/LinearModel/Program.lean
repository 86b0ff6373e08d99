import LinearModel.Bound
import LinearModel.SparseVector

/-!
# Linear programs

A program has a fixed number of variables, an objective over them, a direction, and constraints in
the order in which they were added. All its parts are indexed by that one dimension through their
types, so a program whose parts disagree cannot be written down. Bounds are held per variable,
infinite until they are set; whether any lower or any upper bounds were declared is remembered
beside them.
-/

namespace LinearModel

inductive Relation where
  | le
  | ge
  | eq
  deriving DecidableEq, Repr

def Relation.text : Relation → String
  | le => "<="
  | ge => ">="
  | eq => "="

structure Variable (α : Type) where
  name : String
  lower : α
  upper : α
  /-- Declared an integer; a binary variable is one whether declared so or not. -/
  integer : Bool
  binary : Bool

/-- A named comparison of a linear form in `n` variables with a number. -/
structure Constraint (α : Type) (n : Nat) where
  name : String
  coefficients : Cells α n
  relation : Relation
  rhs : α

def Constraint.row {α : Type} {n : Nat} (c : Constraint α n) : SparseVector α :=
  ⟨n, .row, c.coefficients⟩

/-- Variables, an objective and constraints of one dimension. -/
structure LinearProgram (α : Type) where
  dimension : Nat
  unknowns : Vector (Variable α) dimension
  objective : Cells α dimension
  minimize : Bool
  /-- Some lower bound was set, if only to minus infinity. -/
  lowerDeclared : Bool
  /-- Some upper bound was set, if only to infinity. -/
  upperDeclared : Bool
  constraints : List (Constraint α dimension)

namespace LinearProgram

variable {α : Type}

def objectiveRow (lp : LinearProgram α) : SparseVector α := ⟨lp.dimension, .row, lp.objective⟩

def names (lp : LinearProgram α) : List String := lp.unknowns.toList.map Variable.name

def lowerBounds? (lp : LinearProgram α) : Option (List α) :=
  if lp.lowerDeclared then some (lp.unknowns.toList.map Variable.lower) else none

def upperBounds? (lp : LinearProgram α) : Option (List α) :=
  if lp.upperDeclared then some (lp.unknowns.toList.map Variable.upper) else none

def hasBounds (lp : LinearProgram α) : Bool := lp.lowerDeclared || lp.upperDeclared

/-- Variable `j` is binary; false past the last variable. -/
def isBinary (lp : LinearProgram α) (j : Nat) : Bool :=
  (lp.unknowns[j]?.map Variable.binary).getD false

def isInteger (lp : LinearProgram α) (j : Nat) : Bool :=
  (lp.unknowns[j]?.map Variable.integer).getD false || lp.isBinary j

def isMixedInteger (lp : LinearProgram α) : Bool :=
  lp.unknowns.toList.any fun v => v.integer || v.binary

/-- The declared bounds of variable `j`. What being binary does to them is not considered here. -/
def bounds (lp : LinearProgram α) (j : Nat) : Except AlgebraError (α × α) :=
  match lp.unknowns[j]? with
  | some v => .ok (v.lower, v.upper)
  | none => .error (.indexOutOfRange j lp.dimension)

variable [Number α]

/-- A program that maximizes the given objective, without bounds or constraints, its variables
named `x0`, `x1` and so on. -/
def ofObjective (objective : SparseVector α) : LinearProgram α where
  dimension := objective.size
  unknowns := Vector.ofFn fun j => ⟨s!"x{j}", Number.negInf, Number.posInf, false, false⟩
  objective := objective.cells
  minimize := false
  lowerDeclared := false
  upperDeclared := false
  constraints := []

def ofDense (objective : List α) : LinearProgram α := ofObjective (.ofDense objective)

def ofDimension (n : Nat) : LinearProgram α := ofObjective (.empty n)

@[simp] theorem dimension_ofObjective (v : SparseVector α) : (ofObjective v).dimension = v.size :=
  rfl

end LinearProgram

end LinearModel
