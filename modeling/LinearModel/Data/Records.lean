import LinearModel.CoordinateList
import LinearModel.Data.Names
import LinearModel.Json.Decode
import LinearModel.Json.Value

/-!
# Records in data files

How shapes, bounds, solutions and coordinate lists are written to data files and read from them.
Members of other names are passed over when such a record is read. Reading a record that was
written gives it back, unless it holds a number that is not finite: that is written as null, which
is not read as a number.
-/

namespace LinearModel

open Json

/-- How the choice among named values is read. -/
def readChoice {β : Type} (all : List β) (name : β → String) (named? : String → Option β) :
    Tree → Result β :=
  Decode.choice (all.map name) named?

namespace Orientation

def read : Tree → Result Orientation := readChoice all name named?

def write (o : Orientation) : Value := .string o.name

end Orientation

namespace Direction

def read : Tree → Result Direction := readChoice all name named?

def write (d : Direction) : Value := .string d.name

end Direction

namespace BoundKind

def read : Tree → Result BoundKind := readChoice all name named?

def write (k : BoundKind) : Value := .string k.name

end BoundKind

namespace VariableKind

def read : Tree → Result VariableKind := readChoice all name named?

def write (k : VariableKind) : Value := .string k.name

end VariableKind

namespace SolveStatus

def read : Tree → Result SolveStatus := readChoice all name named?

def write (s : SolveStatus) : Value := .string s.name

end SolveStatus

namespace Relation

def read : Tree → Result Relation := Decode.choice spellings named?

def write (r : Relation) : Value := .string r.name

end Relation

namespace Shape

def record : Record where
  name := "struct Shape"
  fields := [("rows", true), ("cols", true)]
  strict := false
  check := fun _ => Record.problem Decode.index

def read (t : Tree) : Result Shape := do
  let members ← record.members t
  let rows ← Record.required members "rows" Decode.index
  let cols ← Record.required members "cols" Decode.index
  return ⟨rows, cols⟩

def write (s : Shape) : Value := .object [("rows", .integer s.rows), ("cols", .integer s.cols)]

end Shape

namespace Bound

def record : Record where
  name := "struct Bound"
  fields := [("kind", true), ("lower", true), ("upper", true)]
  strict := false
  check
    | "kind" => Record.problem BoundKind.read
    | _ => Record.problem Decode.float

def read (t : Tree) : Result (Bound Float) := do
  let members ← record.members t
  let kind ← Record.required members "kind" BoundKind.read
  let lower ← Record.required members "lower" Decode.float
  let upper ← Record.required members "upper" Decode.float
  return ⟨kind, lower, upper⟩

def write (b : Bound Float) : Value :=
  .object [("kind", b.kind.write), ("lower", .float b.lower), ("upper", .float b.upper)]

end Bound

namespace Solution

def record : Record where
  name := "struct Solution"
  fields := [("status", true), ("values", true), ("objective_value", true)]
  strict := false
  check
    | "status" => Record.problem SolveStatus.read
    | "values" => Record.problem (Decode.list Decode.float)
    | _ => Record.problem Decode.float

def read (t : Tree) : Result (Solution Float) := do
  let members ← record.members t
  let status ← Record.required members "status" SolveStatus.read
  let values ← Record.required members "values" (Decode.list Decode.float)
  let objectiveValue ← Record.required members "objective_value" Decode.float
  return ⟨status, values, objectiveValue⟩

def write (s : Solution Float) : Value :=
  .object [("status", s.status.write), ("values", .array (s.values.map .float)),
    ("objective_value", .float s.objectiveValue)]

end Solution

namespace CoordinateList

def record : Record where
  name := "struct CoordinateList"
  fields := [("rows", true), ("cols", true), ("values", true)]
  strict := false
  check
    | "values" => Record.problem (Decode.list Decode.float)
    | _ => Record.problem (Decode.list Decode.index)

def read (t : Tree) : Result (CoordinateList Float) := do
  let members ← record.members t
  let rows ← Record.required members "rows" (Decode.list Decode.index)
  let cols ← Record.required members "cols" (Decode.list Decode.index)
  let values ← Record.required members "values" (Decode.list Decode.float)
  return ⟨rows, cols, values⟩

def write (m : CoordinateList Float) : Value :=
  .object [("rows", .array (m.rows.map .integer)),
    ("cols", .array (m.cols.map .integer)), ("values", .array (m.values.map .float))]

end CoordinateList

end LinearModel
