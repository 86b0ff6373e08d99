import LinearModel.AlgebraError
import LinearModel.Decimal.Layout
import LinearModel.Scalar.Binary64

/-!
# Solutions and failures

What comes back from a solve: a `Solution` with a status that counts as success, or a `SolveError`
that says why there is none. `Solution.integerValues` reads the values as integers, a half going
away from zero, held to 64 bits.
-/

namespace LinearModel

inductive SolveStatus where
  | optimal
  | feasible
  | infeasible
  | noFeasible
  | unbounded
  | iterationLimit
  | timeLimit
  | undefined
  | fault
  deriving DecidableEq, Repr

namespace SolveStatus

/-- The statuses that come with a point. -/
def isSuccess : SolveStatus → Bool
  | optimal | feasible => true
  | _ => false

def text : SolveStatus → String
  | optimal => "OPTIMAL"
  | feasible => "FEASIBLE"
  | infeasible => "INFEASIBLE"
  | noFeasible => "NO FEASIBLE"
  | unbounded => "UNBOUNDED"
  | iterationLimit => "ITERATION LIMIT"
  | timeLimit => "TIME LIMIT"
  | undefined => "UNDEFINED"
  | fault => "FAULT"

end SolveStatus

/-- A status, a value for every variable in model order, and the objective there. -/
structure Solution (α : Type) where
  status : SolveStatus
  values : List α
  objectiveValue : α
  deriving DecidableEq, Repr

def leastInt64 : Int := -9223372036854775808
def greatestInt64 : Int := 9223372036854775807

def clampToInt64 (n : Int) : Int := max leastInt64 (min n greatestInt64)

namespace Whole

/-- The signed 64-bit word nearest to an integer or infinity; no number becomes zero. -/
def toInt64 : Whole → Int
  | .nan => 0
  | .negInf => leastInt64
  | .int n => clampToInt64 n
  | .posInf => greatestInt64

end Whole

namespace Solution

variable {α : Type}

def value? (s : Solution α) (j : Nat) : Option α := s.values[j]?

/-- The values rounded to integers, a half going away from zero. -/
def integerValues [Number α] (s : Solution α) : List Int :=
  s.values.map fun x => (Number.exact x).round.toInt64

end Solution

inductive SolveError (α : Type) where
  | algebra (cause : AlgebraError)
  /-- The engine finished without a point. -/
  | failure (status : SolveStatus)
  | unavailable (reason : String)
  /-- The limits of a variable admit no value. -/
  | invalidBounds (index : Nat) (lower upper : α)
  /-- A matrix entry lies outside the problem, is zero, or is not finite. -/
  | invalidEntry (row col : Nat) (value : α)
  /-- The solve broke off: the engine did, or something was looked up that is not there. -/
  | engineStopped
  deriving DecidableEq, Repr

/-- The wording of an error, its numbers written out in full. -/
def SolveError.message : SolveError Float → String
  | algebra cause => cause.message
  | failure status => s!"Solver finished with status {status.text}"
  | unavailable reason => s!"Solver unavailable: {reason}"
  | invalidBounds index lower upper =>
    s!"Invalid bounds for variable {index}: [{plain lower}, {plain upper}] admits no value"
  | invalidEntry row col value => s!"Invalid matrix entry ({row}, {col}) = {plain value}"
  | engineStopped => "Solver stopped without an answer"
where
  plain (x : Float) : String := Decimal.Layout.plain.write x

end LinearModel
