import LinearModel.Program.Edit

/-!
# The parts of a program

A `LinearProgram` holds its variables one by one. Its parts are the same program attribute by
attribute: names, bounds and flags as lists beside each other, bounds only once some were declared,
and an objective that is a vector of its own and decides the dimension. Nothing in the type keeps
the parts in step, so an edit of them first checks what it was given (`Edit.require`) and then
writes to one part (`ProgramParts.write`).
-/

namespace LinearModel

/-- A constraint whose coefficients are a vector of any size and orientation. -/
structure ConstraintParts (α : Type) where
  name : String
  coefficients : SparseVector α
  relation : Relation
  rhs : α

structure ProgramParts (α : Type) where
  names : List String
  objective : SparseVector α
  minimize : Bool
  lowerBounds : Option (List α)
  upperBounds : Option (List α)
  integers : List Bool
  binaries : List Bool
  constraints : List (ConstraintParts α)

def Constraint.parts {α : Type} {n : Nat} (c : Constraint α n) : ConstraintParts α :=
  ⟨c.name, c.row, c.relation, c.rhs⟩

def LinearProgram.parts {α : Type} (lp : LinearProgram α) : ProgramParts α where
  names := lp.names
  objective := lp.objectiveRow
  minimize := lp.minimize
  lowerBounds := lp.lowerBounds?
  upperBounds := lp.upperBounds?
  integers := lp.unknowns.toList.map Variable.integer
  binaries := lp.unknowns.toList.map Variable.binary
  constraints := lp.constraints.map Constraint.parts

def requireLength (purpose : Agreement) (length size : Nat) : Except AlgebraError Unit :=
  if length = size then .ok () else .error (.dimensionMismatch purpose ⟨1, size⟩ ⟨1, length⟩)

/-- Succeeds exactly when what the edit brings fits a program with `n` variables. -/
def Edit.require {α : Type} (n : Nat) : Edit α → Except AlgebraError Unit
  | .names xs => requireLength .variableNames xs.length n
  | .objective v => requireLength .objective v.size n
  | .minimize _ => .ok ()
  | .lowerBounds xs => requireLength .lowerBounds xs.length n
  | .upperBounds xs => requireLength .upperBounds xs.length n
  | .lowerBound j _ | .upperBound j _ | .integer j | .binary j => requireIndex j n
  | .integers xs => requireLength .integerFlags xs.length n
  | .constraint _ v _ _ => requireLength .constraint v.size n

namespace ProgramParts

variable {α : Type}

def dimension (p : ProgramParts α) : Nat := p.objective.size

/-- The parts of a program that has nothing but an objective. -/
def ofObjective (objective : SparseVector α) : ProgramParts α where
  names := (List.range objective.size).map fun j => s!"x{j}"
  objective := objective.orient .row
  minimize := false
  lowerBounds := none
  upperBounds := none
  integers := List.replicate objective.size false
  binaries := List.replicate objective.size false
  constraints := []

variable [Number α]

/-- Writes to one part, whatever that does to the others. The first single bound that is set brings
a whole list of infinite ones with it. -/
def write (p : ProgramParts α) : Edit α → ProgramParts α
  | .names names => { p with names }
  | .objective coefficients => { p with objective := coefficients.orient .row }
  | .minimize minimize => { p with minimize }
  | .lowerBounds bounds => { p with lowerBounds := some bounds }
  | .upperBounds bounds => { p with upperBounds := some bounds }
  | .lowerBound j value =>
    let bounds := p.lowerBounds.getD (List.replicate p.dimension Number.negInf)
    { p with lowerBounds := some (bounds.set j value) }
  | .upperBound j value =>
    let bounds := p.upperBounds.getD (List.replicate p.dimension Number.posInf)
    { p with upperBounds := some (bounds.set j value) }
  | .integer j => { p with integers := p.integers.set j true }
  | .integers integers => { p with integers }
  | .binary j => { p with binaries := p.binaries.set j true }
  | .constraint name coefficients relation rhs =>
    { p with constraints := p.constraints ++ [⟨name, coefficients.orient .row, relation, rhs⟩] }

/-- The answer to an edit, and what it leaves behind. -/
def edit (p : ProgramParts α) (e : Edit α) : Except AlgebraError Unit × ProgramParts α :=
  match e.require p.dimension with
  | .ok () => (.ok (), p.write e)
  | .error cause => (.error cause, p)

def revise (p : ProgramParts α) (edits : List (Edit α)) : ProgramParts α :=
  edits.foldl (fun p e => (p.edit e).2) p

/-- The bounds of variable `j`, infinite where none were declared. Nothing comes out where a
declared list has no place for the variable. -/
def bounds (p : ProgramParts α) (j : Nat) : Except AlgebraError (Option (α × α)) := do
  requireIndex j p.dimension
  return do
    let lower ← p.lowerBounds.elim (some Number.negInf) fun bounds => bounds[j]?
    let upper ← p.upperBounds.elim (some Number.posInf) fun bounds => bounds[j]?
    return (lower, upper)

end ProgramParts

/-- What a history of edits starts from. -/
inductive Origin (α : Type) where
  | dense (objective : List α)
  | objective (objective : SparseVector α)
  | dimension (n : Nat)

namespace Origin

variable {α : Type}

def vector : Origin α → SparseVector α
  | dense xs => .ofDense xs
  | objective v => v
  | dimension n => .empty n

def size : Origin α → Nat
  | dense xs => xs.length
  | objective v => v.size
  | dimension n => n

def program [Number α] : Origin α → LinearProgram α
  | dense xs => .ofDense xs
  | objective v => .ofObjective v
  | dimension n => .ofDimension n

def parts (origin : Origin α) : ProgramParts α := .ofObjective origin.vector

end Origin

end LinearModel
