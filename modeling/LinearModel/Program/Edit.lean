import LinearModel.Program

/-!
# Changing a program

Every change either fits the dimension of the program and is made in full, or is refused and leaves
the program as it was. An `Edit` is such a change as a value, so that a history of changes is a
list; `LinearProgram.revise` runs one, skipping what is refused.
-/

namespace LinearModel

inductive Edit (α : Type) where
  | names (names : List String)
  | objective (coefficients : SparseVector α)
  | minimize (on : Bool)
  | lowerBounds (bounds : List α)
  | upperBounds (bounds : List α)
  | lowerBound (j : Nat) (value : α)
  | upperBound (j : Nat) (value : α)
  | integer (j : Nat)
  | integers (flags : List Bool)
  | binary (j : Nat)
  | constraint (name : String) (coefficients : SparseVector α) (relation : Relation) (rhs : α)

namespace LinearProgram

variable {α : Type}

def lengthMismatch (lp : LinearProgram α) (purpose : Agreement) (length : Nat) : AlgebraError :=
  .dimensionMismatch purpose ⟨1, lp.dimension⟩ ⟨1, length⟩

/-- Changes every variable by its member of a list with one member for each. -/
def editEach {β : Type} (lp : LinearProgram α) (purpose : Agreement) (xs : List β)
    (f : Variable α → β → Variable α) : Except AlgebraError (LinearProgram α) :=
  if h : xs.length = lp.dimension then
    .ok { lp with unknowns := Vector.ofFn fun j => f lp.unknowns[j] (xs.get ⟨j.val, by omega⟩) }
  else
    .error (lp.lengthMismatch purpose xs.length)

def editAt (lp : LinearProgram α) (j : Nat) (f : Variable α → Variable α) :
    Except AlgebraError (LinearProgram α) :=
  if h : j < lp.dimension then
    .ok { lp with unknowns := lp.unknowns.set j (f lp.unknowns[j]) }
  else
    .error (.indexOutOfRange j lp.dimension)

def setNames (lp : LinearProgram α) (names : List String) :
    Except AlgebraError (LinearProgram α) :=
  lp.editEach .variableNames names fun v name => { v with name }

def setObjective (lp : LinearProgram α) (coefficients : SparseVector α) :
    Except AlgebraError (LinearProgram α) :=
  if h : coefficients.size = lp.dimension then
    .ok { lp with objective := coefficients.cells.cast h }
  else
    .error (lp.lengthMismatch .objective coefficients.size)

def setMinimize (lp : LinearProgram α) (on : Bool) : LinearProgram α := { lp with minimize := on }

def setLowerBounds (lp : LinearProgram α) (bounds : List α) :
    Except AlgebraError (LinearProgram α) := do
  let lp ← lp.editEach .lowerBounds bounds fun v lower => { v with lower }
  return { lp with lowerDeclared := true }

def setUpperBounds (lp : LinearProgram α) (bounds : List α) :
    Except AlgebraError (LinearProgram α) := do
  let lp ← lp.editEach .upperBounds bounds fun v upper => { v with upper }
  return { lp with upperDeclared := true }

/-- Sets one lower bound and leaves the others. -/
def setLowerBound (lp : LinearProgram α) (j : Nat) (value : α) :
    Except AlgebraError (LinearProgram α) := do
  let lp ← lp.editAt j fun v => { v with lower := value }
  return { lp with lowerDeclared := true }

def setUpperBound (lp : LinearProgram α) (j : Nat) (value : α) :
    Except AlgebraError (LinearProgram α) := do
  let lp ← lp.editAt j fun v => { v with upper := value }
  return { lp with upperDeclared := true }

def setInteger (lp : LinearProgram α) (j : Nat) : Except AlgebraError (LinearProgram α) :=
  lp.editAt j fun v => { v with integer := true }

/-- Declares which variables are integers; binary ones stay integers whatever is declared. -/
def setIntegers (lp : LinearProgram α) (flags : List Bool) :
    Except AlgebraError (LinearProgram α) :=
  lp.editEach .integerFlags flags fun v integer => { v with integer }

def setBinary (lp : LinearProgram α) (j : Nat) : Except AlgebraError (LinearProgram α) :=
  lp.editAt j fun v => { v with binary := true }

def addConstraint (lp : LinearProgram α) (name : String) (coefficients : SparseVector α)
    (relation : Relation) (rhs : α) : Except AlgebraError (LinearProgram α) :=
  if h : coefficients.size = lp.dimension then
    .ok { lp with
      constraints := lp.constraints ++ [⟨name, coefficients.cells.cast h, relation, rhs⟩] }
  else
    .error (lp.lengthMismatch .constraint coefficients.size)

def edit (lp : LinearProgram α) : Edit α → Except AlgebraError (LinearProgram α)
  | .names names => lp.setNames names
  | .objective coefficients => lp.setObjective coefficients
  | .minimize on => .ok (lp.setMinimize on)
  | .lowerBounds bounds => lp.setLowerBounds bounds
  | .upperBounds bounds => lp.setUpperBounds bounds
  | .lowerBound j value => lp.setLowerBound j value
  | .upperBound j value => lp.setUpperBound j value
  | .integer j => lp.setInteger j
  | .integers flags => lp.setIntegers flags
  | .binary j => lp.setBinary j
  | .constraint name coefficients relation rhs => lp.addConstraint name coefficients relation rhs

/-- The program after a history of changes; a refused change leaves the program as it was. -/
def revise (lp : LinearProgram α) (edits : List (Edit α)) : LinearProgram α :=
  edits.foldl (fun lp e => (lp.edit e).toOption.getD lp) lp

@[simp] theorem revise_nil (lp : LinearProgram α) : lp.revise [] = lp := rfl

end LinearProgram

end LinearModel
