import LinearModel.Backend
import LinearModel.Program.Feasibility

/-!
# Describing a program

A program is described to a backend by a list of statements in a fixed order
(`LinearProgram.statements`) and its matrix in one piece (`LinearProgram.coordinates`). The limits
of a variable become the bound of a column, unless they admit no value; the right-hand side of a
constraint becomes the bound of a row.
-/

namespace LinearModel

namespace LinearProgram

variable {α : Type} [Number α]

/-- How many stored coefficients are not zero, over all constraints. -/
def nonzeroCount (lp : LinearProgram α) : Nat :=
  lp.constraints.foldl (fun n c => n + (c.coefficients.values.filter fun v => !(v == 0)).length) 0

def nonzeroEntries {n : Nat} (c : Constraint α n) : List (Nat × α) :=
  c.coefficients.entries.filter fun e => !(e.2 == 0)

def rowTriples {n : Nat} (c : Constraint α n) (row : Nat) : List (Nat × Nat × α) :=
  ((nonzeroEntries c).mergeSort fun e f => e.1 ≤ f.1).map fun e => (row, e.1 + 1, e.2)

/-- All coefficients that are not zero, rows in the order of the constraints and columns ascending
within a row, both counted from one. -/
def coordinates (lp : LinearProgram α) : CoordinateList α :=
  .ofTriples (lp.constraints.zipIdx.flatMap fun (c, i) => rowTriples c (i + 1))

/-- Limits that leave nothing to choose: one is no number, they are in the wrong order, or an
infinite one points inward. -/
def admitsNothing (lower upper : α) : Bool :=
  Number.isNaN lower || Number.isNaN upper || Number.lt upper lower
    || lower == Number.posInf || upper == Number.negInf

/-- The bound and kind of the column for variable `j`. A binary variable becomes an integer from
zero to one. -/
def columnBound (lp : LinearProgram α) (j : Nat) :
    Except (SolveError α) (Bound α × VariableKind) :=
  if lp.isBinary j then
    .ok (.between 0 1, .integer)
  else
    match lp.bounds j with
    | .error e => .error (.algebra e)
    | .ok (lower, upper) =>
      if admitsNothing lower upper then .error (.invalidBounds j lower upper)
      else .ok (.between lower upper, if lp.isInteger j then .integer else .continuous)

/-- The bounds and kinds of the columns with the given indices, or the first error. -/
def columnBounds (lp : LinearProgram α) :
    List Nat → Except (SolveError α) (List (Bound α × VariableKind))
  | [] => .ok []
  | j :: rest => do
    let column ← lp.columnBound j
    return column :: (← lp.columnBounds rest)

end LinearProgram

/-- The bound of the row for a constraint: limited above by `<=`, below by `>=`, fixed by `=`. -/
def Constraint.rowBound {α : Type} {n : Nat} [Number α] (c : Constraint α n) : Bound α :=
  match c.relation with
  | .le => ⟨.upper, Number.negInf, c.rhs⟩
  | .ge => ⟨.lower, c.rhs, Number.posInf⟩
  | .eq => ⟨.fixed, c.rhs, c.rhs⟩

namespace LinearProgram

variable {α : Type} [Number α]

def columnStatements (col : Nat) (name : String) (coefficient : α)
    (column : Bound α × VariableKind) : List (Statement α) :=
  [.columnName col name, .objective col coefficient, .columnBound col column.1,
    .columnKind col column.2]

def rowStatements {n : Nat} (row : Nat) (c : Constraint α n) : List (Statement α) :=
  [.rowName row c.name, .rowBound row c.rowBound]

def direction (lp : LinearProgram α) : Direction := if lp.minimize then .minimize else .maximize

/-- The whole description of a program but for its matrix: a reset, the settings, all columns in
order, then all rows in order. -/
def statements (lp : LinearProgram α) (verbose : Bool) (columns : List (Bound α × VariableKind)) :
    List (Statement α) :=
  [.reset, .messageOutput verbose, .direction lp.direction, .addColumns lp.dimension]
    ++ ((lp.names.zip (lp.objective.toDense.zip columns)).zipIdx.flatMap
      fun ((name, coefficient, column), j) => columnStatements (j + 1) name coefficient column)
    ++ [.addRows lp.constraints.length]
    ++ lp.constraints.zipIdx.flatMap fun (c, i) => rowStatements (i + 1) c

theorem length_zip_columns (lp : LinearProgram α) {columns : List (Bound α × VariableKind)}
    (h : columns.length = lp.dimension) :
    (lp.names.zip (lp.objective.toDense.zip columns)).length = lp.dimension := by
  simp [names, Cells.length_toDense, h]

end LinearProgram

end LinearModel
