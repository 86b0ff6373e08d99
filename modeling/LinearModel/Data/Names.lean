import LinearModel.Bound
import LinearModel.Program
import LinearModel.Solution

/-!
# Names in data files

How the choices among a few values are spelled in data files, and which spellings are read.
-/

namespace LinearModel

/-- The first value with a name. -/
def valueNamed? {β : Type} (name : β → String) (values : List β) (s : String) : Option β :=
  values.find? fun v => name v == s

namespace Orientation

def all : List Orientation := [.row, .column]

def name : Orientation → String := text

def named? : String → Option Orientation := valueNamed? name all

end Orientation

namespace Direction

def all : List Direction := [.minimize, .maximize]

def name : Direction → String
  | minimize => "minimize"
  | maximize => "maximize"

def named? : String → Option Direction := valueNamed? name all

end Direction

namespace BoundKind

def all : List BoundKind := [.free, .lower, .upper, .double, .fixed]

def name : BoundKind → String
  | free => "free"
  | lower => "lower"
  | upper => "upper"
  | double => "double"
  | fixed => "fixed"

def named? : String → Option BoundKind := valueNamed? name all

end BoundKind

namespace VariableKind

def all : List VariableKind := [.continuous, .integer]

def name : VariableKind → String
  | continuous => "continuous"
  | integer => "integer"

def named? : String → Option VariableKind := valueNamed? name all

end VariableKind

namespace SolveStatus

def all : List SolveStatus :=
  [.optimal, .feasible, .infeasible, .noFeasible, .unbounded, .iterationLimit, .timeLimit,
    .undefined, .fault]

def name : SolveStatus → String
  | optimal => "optimal"
  | feasible => "feasible"
  | infeasible => "infeasible"
  | noFeasible => "no_feasible"
  | unbounded => "unbounded"
  | iterationLimit => "iteration_limit"
  | timeLimit => "time_limit"
  | undefined => "undefined"
  | fault => "fault"

def named? : String → Option SolveStatus := valueNamed? name all

end SolveStatus

namespace Relation

def all : List Relation := [.le, .ge, .eq]

def name : Relation → String
  | le => "le"
  | ge => "ge"
  | eq => "eq"

/-- All spellings that are read. -/
def spellings : List String := all.flatMap fun r => [r.text, r.name]

def named? (s : String) : Option Relation :=
  (valueNamed? name all s).orElse fun _ => valueNamed? text all s

end Relation

end LinearModel
