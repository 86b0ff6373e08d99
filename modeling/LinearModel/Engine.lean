import LinearModel.Bound
import LinearModel.Program

/-!
# Engines

An engine is any function from problems to answers. A problem gives every variable an objective
coefficient and a `Domain`, and compares linear forms with numbers; an answer is an optimal point,
or says why there is none.
-/

namespace LinearModel

inductive Domain (α : Type) where
  | continuous (lower upper : α)
  | integer (least greatest : Int)
  deriving DecidableEq, Repr

structure EngineVariable (α : Type) where
  objective : α
  domain : Domain α
  deriving DecidableEq, Repr

/-- A linear form over variables, counted from zero, compared with a number. -/
structure EngineRow (α : Type) where
  terms : List (Nat × α)
  relation : Relation
  rhs : α
  deriving DecidableEq, Repr

structure EngineProblem (α : Type) where
  direction : Direction
  unknowns : List (EngineVariable α)
  rows : List (EngineRow α)
  deriving DecidableEq, Repr

inductive EngineAnswer (α : Type) where
  | optimal (values : List α) (objectiveValue : α)
  | infeasible
  | unbounded
  | fault
  | stopped
  deriving DecidableEq, Repr

abbrev Engine (α : Type) := EngineProblem α → EngineAnswer α

end LinearModel
