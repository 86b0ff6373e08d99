import LinearModel.Backend

/-!
# Recording what a backend is told

A recorder solves nothing. It keeps a log of all it was told, the described problem attribute by
attribute, and an outcome that was laid down beforehand and is given whenever it is asked to solve.
A reset clears the log and the description and keeps the outcome.
-/

namespace LinearModel

/-- One thing that happened to a recorder. Names, bounds and coefficients are not repeated in the
log, only which row or column they were for. -/
inductive LogEntry where
  | reset
  | direction (direction : Direction)
  | timeLimit (milliseconds : Nat)
  | messageOutput (on : Bool)
  | addColumns (count : Nat)
  | addRows (count : Nat)
  | columnName (col : Nat)
  | rowName (row : Nat)
  | columnBound (col : Nat)
  | rowBound (row : Nat)
  | columnKind (col : Nat)
  | objective (col : Nat)
  | load (length : Nat)
  | solveLinear
  | solveMixedInteger
  deriving DecidableEq, Repr

def Statement.logEntry {α : Type} : Statement α → LogEntry
  | reset => .reset
  | direction d => .direction d
  | timeLimit ms => .timeLimit ms
  | messageOutput on => .messageOutput on
  | addColumns n => .addColumns n
  | addRows n => .addRows n
  | columnName j _ => .columnName j
  | rowName i _ => .rowName i
  | columnBound j _ => .columnBound j
  | rowBound i _ => .rowBound i
  | columnKind j _ => .columnKind j
  | objective j _ => .objective j

inductive Outcome (α : Type) where
  | solved (status : SolveStatus) (values : List α) (objectiveValue : α)
  | unavailable (reason : String)
  deriving DecidableEq, Repr

structure Recorder (α : Type) where
  log : List LogEntry
  direction : Option Direction
  timeLimit : Option Nat
  messageOutput : Bool
  columnNames : List String
  columnBounds : List (Bound α)
  columnKinds : List VariableKind
  objective : List α
  rowNames : List String
  rowBounds : List (Bound α)
  matrix : CoordinateList α
  outcome : Outcome α
  deriving DecidableEq, Repr

namespace Recorder

variable {α : Type}

def withOutcome (outcome : Outcome α) : Recorder α where
  log := []
  direction := none
  timeLimit := none
  messageOutput := false
  columnNames := []
  columnBounds := []
  columnKinds := []
  objective := []
  rowNames := []
  rowBounds := []
  matrix := .empty
  outcome := outcome

variable [Number α]

/-- A recorder whose solves end undefined. -/
def new : Recorder α := withOutcome (.solved .undefined [] 0)

/-- Takes a statement into the description, not yet into the log. -/
def describe (r : Recorder α) : Statement α → Recorder α
  | .reset => withOutcome r.outcome
  | .direction d => { r with direction := some d }
  | .timeLimit ms => { r with timeLimit := some ms }
  | .messageOutput on => { r with messageOutput := on }
  | .addColumns n =>
    let total := grownLength r.columnNames.length n
    { r with
      columnNames := resize r.columnNames total ""
      columnBounds := resize r.columnBounds total .free
      columnKinds := resize r.columnKinds total .continuous
      objective := resize r.objective total 0 }
  | .addRows n =>
    let total := grownLength r.rowNames.length n
    { r with
      rowNames := resize r.rowNames total ""
      rowBounds := resize r.rowBounds total .free }
  | .columnName j name => { r with columnNames := setNumbered r.columnNames j name }
  | .rowName i name => { r with rowNames := setNumbered r.rowNames i name }
  | .columnBound j bound => { r with columnBounds := setNumbered r.columnBounds j bound }
  | .rowBound i bound => { r with rowBounds := setNumbered r.rowBounds i bound }
  | .columnKind j kind => { r with columnKinds := setNumbered r.columnKinds j kind }
  | .objective j coefficient => { r with objective := setNumbered r.objective j coefficient }

def note (r : Recorder α) (entry : LogEntry) : Recorder α := { r with log := r.log ++ [entry] }

def answer (r : Recorder α) : Except (SolveError α) SolveStatus :=
  match r.outcome with
  | .solved status _ _ => .ok status
  | .unavailable reason => .error (.unavailable reason)

/-- A matrix is logged when it is offered and kept when the described problem can hold it. -/
def load (r : Recorder α) (m : CoordinateList α) : Except (SolveError α) Unit × Recorder α :=
  let r := r.note (.load m.length)
  match m.validate r.rowBounds.length r.columnBounds.length with
  | .ok () => (.ok (), { r with matrix := m })
  | .error e => (.error e, r)

instance : Backend (Recorder α) α where
  tell r s := (r.describe s).note s.logEntry
  load := load
  solve r integral := (r.answer, r.note (if integral then .solveMixedInteger else .solveLinear))
  primal r col :=
    match r.outcome with
    | .solved _ values _ => (getNumbered? values col).getD 0
    | .unavailable _ => 0
  objectiveValue r :=
    match r.outcome with
    | .solved _ _ objectiveValue => objectiveValue
    | .unavailable _ => 0

end Recorder

end LinearModel
