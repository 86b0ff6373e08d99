import LinearModel.Data.Records
import LinearModel.Program.Edit

/-!
# Problem files

The file form of a linear program. Only the objective must be there; a bound that is null, or in a
list that is left out, is infinite. `ProblemFile.toProgram` makes the program, or names the first
part that does not fit the number of variables: names, lower bounds, upper bounds, integers,
binaries and constraints are tried in this order.
-/

namespace LinearModel

open Json

structure FileConstraint where
  name : Option String
  coefficients : List Float
  relation : Relation
  rhs : Float
  deriving DecidableEq, Repr

structure ProblemFile where
  minimize : Bool
  objective : List Float
  names : Option (List String)
  lowerBounds : Option (List (Option Float))
  upperBounds : Option (List (Option Float))
  integer : List Nat
  binary : List Nat
  constraints : List FileConstraint
  deriving DecidableEq, Repr

namespace FileConstraint

def record : Record where
  name := "struct ConstraintEntry"
  fields := [("name", false), ("coefficients", true), ("relation", true), ("rhs", true)]
  strict := true
  check
    | "name" => Record.problem (Decode.optional Decode.string)
    | "coefficients" => Record.problem (Decode.list Decode.float)
    | "relation" => Record.problem Relation.read
    | _ => Record.problem Decode.float

def read (t : Tree) : Result FileConstraint := do
  let members ← record.members t
  let name ← Record.optional members "name" (Decode.optional Decode.string) none
  let coefficients ← Record.required members "coefficients" (Decode.list Decode.float)
  let relation ← Record.required members "relation" Relation.read
  let rhs ← Record.required members "rhs" Decode.float
  return ⟨name, coefficients, relation, rhs⟩

end FileConstraint

namespace ProblemFile

/-- A list of bounds in which null stands for none. -/
def readBounds : Tree → Result (Option (List (Option Float))) :=
  Decode.optional (Decode.list (Decode.optional Decode.float))

def record : Record where
  name := "struct ProblemFile"
  fields := [("minimize", false), ("objective", true), ("variables", false),
    ("lower_bounds", false), ("upper_bounds", false), ("integer", false), ("binary", false),
    ("constraints", false)]
  strict := true
  check
    | "minimize" => Record.problem Decode.bool
    | "objective" => Record.problem (Decode.list Decode.float)
    | "variables" => Record.problem (Decode.optional (Decode.list Decode.string))
    | "lower_bounds" | "upper_bounds" => Record.problem readBounds
    | "integer" | "binary" => Record.problem (Decode.list Decode.index)
    | _ => Record.problem (Decode.list FileConstraint.read)

def read (t : Tree) : Result ProblemFile := do
  let members ← record.members t
  let minimize ← Record.optional members "minimize" Decode.bool false
  let objective ← Record.required members "objective" (Decode.list Decode.float)
  let names ←
    Record.optional members "variables" (Decode.optional (Decode.list Decode.string)) none
  let lowerBounds ← Record.optional members "lower_bounds" readBounds none
  let upperBounds ← Record.optional members "upper_bounds" readBounds none
  let integer ← Record.optional members "integer" (Decode.list Decode.index) []
  let binary ← Record.optional members "binary" (Decode.list Decode.index) []
  let constraints ← Record.optional members "constraints" (Decode.list FileConstraint.read) []
  return ⟨minimize, objective, names, lowerBounds, upperBounds, integer, binary, constraints⟩

def parse (text : String) : Result ProblemFile := readText read text

def whenSome {β : Type} (x : Option β) (f : LinearProgram Float → β →
    Except AlgebraError (LinearProgram Float)) (lp : LinearProgram Float) :
    Except AlgebraError (LinearProgram Float) :=
  match x with
  | some x => f lp x
  | none => .ok lp

/-- Makes one change for every member of a list, stopping at the first that is refused. -/
def forEach {β : Type} (xs : List β) (f : LinearProgram Float → β →
    Except AlgebraError (LinearProgram Float)) (lp : LinearProgram Float) :
    Except AlgebraError (LinearProgram Float) :=
  xs.foldlM f lp

/-- Bounds with the missing ones infinite. -/
def filled (missing : Float) (bounds : List (Option Float)) : List Float :=
  bounds.map fun b => b.getD missing

/-- The name of constraint `i`, counted from zero: the given one, or `c` and its number. -/
def constraintName (i : Nat) (entry : FileConstraint) : String :=
  entry.name.getD s!"c{i + 1}"

def toProgram (file : ProblemFile) : Except AlgebraError (LinearProgram Float) := do
  let lp := LinearProgram.ofDense file.objective
  let lp ← whenSome file.names LinearProgram.setNames lp
  let lp := lp.setMinimize file.minimize
  let lp ← whenSome (file.lowerBounds.map (filled Number.negInf)) LinearProgram.setLowerBounds lp
  let lp ← whenSome (file.upperBounds.map (filled Number.posInf)) LinearProgram.setUpperBounds lp
  let lp ← forEach file.integer LinearProgram.setInteger lp
  let lp ← forEach file.binary LinearProgram.setBinary lp
  forEach file.constraints.zipIdx (fun lp (entry, i) =>
    lp.addConstraint (constraintName i entry) (.ofDense entry.coefficients) entry.relation
      entry.rhs) lp

end ProblemFile

end LinearModel
