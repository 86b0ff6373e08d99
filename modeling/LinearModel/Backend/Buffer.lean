import LinearModel.Backend
import LinearModel.Engine

/-!
# Engines behind a buffer

An engine takes a problem in one piece, a backend is told it bit by bit. A `BufferedEngine` keeps
what it is told, column by column and row by row, and builds one `EngineProblem` from it when it is
asked to solve. Integer columns get limits that are rounded inward and must fit signed 32-bit
words; infinite limits become the ends of that range. The point of the last solve that ended
optimal is kept until the next one or until a reset.

The terms of the rows are gathered by looking up, for every triple of the matrix, its row and the
variable of its column, and the point by looking up every variable in the answer of the engine.
Where a look-up finds nothing, the solve breaks off and leaves everything as it was.
-/

namespace LinearModel

def leastInt32 : Int := -2147483648
def greatestInt32 : Int := 2147483647

/-- A rounded limit as a signed 32-bit word: infinities become the ends of the range, integers
outside it and no number are refused. -/
def int32Limit : Whole → Option Int
  | .nan => none
  | .negInf => some leastInt32
  | .int n => if leastInt32 ≤ n ∧ n ≤ greatestInt32 then some n else none
  | .posInf => some greatestInt32

/-- A described problem, the engine that is to solve it, and the last point it found. -/
structure BufferedEngine (α : Type) where
  engine : Engine α
  direction : Direction
  columns : List (Column α)
  rows : List (Row α)
  matrix : CoordinateList α
  timeLimit : Option Nat
  values : List α
  objectiveValue : α

namespace BufferedEngine

variable {α : Type} [Number α]

def new (engine : Engine α) : BufferedEngine α where
  engine := engine
  direction := .maximize
  columns := []
  rows := []
  matrix := .empty
  timeLimit := none
  values := []
  objectiveValue := 0

/-- Takes in one statement. Messages are never shown, so whether they should be is not kept. -/
def describe (b : BufferedEngine α) : Statement α → BufferedEngine α
  | .reset => new b.engine
  | .direction d => { b with direction := d }
  | .timeLimit ms => { b with timeLimit := some ms }
  | .messageOutput _ => b
  | .addColumns n =>
    { b with
      columns := resize b.columns (grownLength b.columns.length n) ⟨"", 0, .free, .continuous⟩ }
  | .addRows n => { b with rows := resize b.rows (grownLength b.rows.length n) ⟨"", .free⟩ }
  | .columnName j name =>
    { b with columns := modifyNumbered b.columns j fun c => { c with name } }
  | .rowName i name => { b with rows := modifyNumbered b.rows i fun r => { r with name } }
  | .columnBound j bound =>
    { b with columns := modifyNumbered b.columns j fun c => { c with bound } }
  | .rowBound i bound => { b with rows := modifyNumbered b.rows i fun r => { r with bound } }
  | .columnKind j kind =>
    { b with columns := modifyNumbered b.columns j fun c => { c with kind } }
  | .objective j objective =>
    { b with columns := modifyNumbered b.columns j fun c => { c with objective } }

def load (b : BufferedEngine α) (m : CoordinateList α) :
    Except (SolveError α) Unit × BufferedEngine α :=
  match m.validate b.rows.length b.columns.length with
  | .ok () => (.ok (), { b with matrix := m })
  | .error e => (.error e, b)

/-- The domain of a column. An integer column whose rounded limits do not fit has none when
integers are asked for. -/
def domain? (integral : Bool) (c : Column α) : Option (Domain α) :=
  let (lower, upper) := c.bound.limits
  if integral && c.kind = .integer then do
    let least ← int32Limit (Number.exact lower).ceil
    let greatest ← int32Limit (Number.exact upper).floor
    return .integer least greatest
  else
    some (.continuous lower upper)

/-- The engine variables of some columns, the first of which has index `index`. -/
def unknowns (integral : Bool) (index : Nat) :
    List (Column α) → Except (SolveError α) (List (EngineVariable α))
  | [] => .ok []
  | c :: rest =>
    match domain? integral c with
    | some domain => do return ⟨c.objective, domain⟩ :: (← unknowns integral (index + 1) rest)
    | none => .error (.invalidBounds index c.bound.limits.1 c.bound.limits.2)

/-- Appends each triple to the terms of its row, as a term in the variable of its column, where
there are `cols` variables. A triple whose row or variable is not there has no result. -/
def gather? {α : Type} (cols : Nat) :
    List (Nat × Nat × α) → List (List (Nat × α)) → Option (List (List (Nat × α)))
  | [], terms => some terms
  | (row + 1, col + 1, value) :: rest, terms =>
    if row < terms.length ∧ col < cols then
      gather? cols rest (terms.modify row (· ++ [(col, value)]))
    else
      none
  | _ :: _, _ => none

/-- The comparisons that a bound asks for: none, one, or one for each side. -/
def comparisons (bound : Bound α) : List (Relation × α) :=
  let (lower, upper) := bound.limits
  match bound.kind with
  | .free => []
  | .lower => [(.ge, lower)]
  | .upper => [(.le, upper)]
  | .fixed => [(.eq, lower)]
  | .double => [(.ge, lower), (.le, upper)]

/-- The comparisons of all rows, each with the terms of its row. -/
def compare (rows : List (Row α)) (terms : List (List (Nat × α))) : List (EngineRow α) :=
  (rows.zip terms).flatMap fun (row, terms) =>
    (comparisons row.bound).map fun (relation, rhs) => ⟨terms, relation, rhs⟩

def problem (b : BufferedEngine α) (integral : Bool) : Except (SolveError α) (EngineProblem α) := do
  let unknowns ← unknowns integral 0 b.columns
  match gather? unknowns.length b.matrix.triples (List.replicate b.rows.length []) with
  | some terms => return ⟨b.direction, unknowns, compare b.rows terms⟩
  | none => throw .engineStopped

/-- The values that an engine found for the first `n` variables, if it has all of them. -/
def valuesOf? {α : Type} (found : List α) (n : Nat) : Option (List α) :=
  (List.range n).mapM fun j => found[j]?

/-- Asks the engine. Only an optimal answer changes what is kept. -/
def solve (b : BufferedEngine α) (integral : Bool) :
    Except (SolveError α) SolveStatus × BufferedEngine α :=
  match b.problem integral with
  | .error e => (.error e, b)
  | .ok problem =>
    match b.engine problem with
    | .optimal found objectiveValue =>
      match valuesOf? found problem.unknowns.length with
      | some values => (.ok .optimal, { b with values, objectiveValue })
      | none => (.error .engineStopped, b)
    | .infeasible => (.ok .infeasible, b)
    | .unbounded => (.ok .unbounded, b)
    | .fault => (.ok .fault, b)
    | .stopped => (.error .engineStopped, b)

instance : Backend (BufferedEngine α) α where
  tell := describe
  load := load
  solve := solve
  primal b col := (getNumbered? b.values col).getD 0
  objectiveValue b := b.objectiveValue

end BufferedEngine

end LinearModel
