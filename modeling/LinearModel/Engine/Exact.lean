import LinearModel.Decimal.Shortest
import LinearModel.Engine.Dictionary
import LinearModel.Engine

/-!
# An exact engine

Solves engine problems in rational arithmetic: a `Reading` says which rational each number means,
linear problems are solved by the simplex method, integer variables by splitting the range of one
that came out fractional, and the answer is rounded once at the end. A variable whose range is split
gets a smaller range on both sides, so the sum of the ranges bounds the depth of the search.
-/

namespace LinearModel

/-- A problem over the rationals whose objective is to rise. A missing limit is infinite. -/
structure RationalProblem where
  objective : List Rat
  limits : List (Option Rat × Option Rat)
  rows : List (List (Nat × Rat) × Relation × Rat)

inductive RationalAnswer where
  | optimal (values : List Rat) (objective : Rat)
  | infeasible
  | unbounded
  | exhausted

namespace RationalProblem

def formAt (coefficients point : List Rat) : Rat := (List.zipWith (· * ·) coefficients point).sum

/-- How one variable is written in variables that are at least zero: an offset, and the signs of
the one or two variables added to it. A variable with equal limits needs none. -/
def shift : Option Rat × Option Rat → Rat × List Rat
  | (some l, some u) => (l, if l = u then [] else [1])
  | (some l, none) => (l, [1])
  | (none, some u) => (u, [-1])
  | (none, none) => (0, [1, -1])

def columns (p : RationalProblem) : List (Nat × Rat) :=
  p.limits.zipIdx.flatMap fun (limits, j) => (shift limits).2.map fun sign => (j, sign)

def coefficientIn (terms : List (Nat × Rat)) (j : Nat) : Rat :=
  (terms.filterMap fun (i, a) => if i = j then some a else none).sum

/-- What is left of `rhs` when the form of the terms is taken away from it, over the columns. -/
def slackForm (p : RationalProblem) (terms : List (Nat × Rat)) (rhs : Rat) : LinearForm where
  constant := rhs - (p.limits.zipIdx.map fun (limits, j) =>
    (shift limits).1 * coefficientIn terms j).sum
  coefficients := (p.columns.map fun (j, sign) => -(sign * coefficientIn terms j)).toArray

def opposite (f : LinearForm) : LinearForm := ⟨-f.constant, f.coefficients.map (- ·)⟩

/-- The forms that a comparison keeps at zero or above. -/
def slackForms (p : RationalProblem) : List (Nat × Rat) × Relation × Rat → List LinearForm
  | (terms, .le, rhs) => [p.slackForm terms rhs]
  | (terms, .ge, rhs) => [opposite (p.slackForm terms rhs)]
  | (terms, .eq, rhs) => [p.slackForm terms rhs, opposite (p.slackForm terms rhs)]

/-- The upper limits of variables that have a lower limit too. -/
def capRows (p : RationalProblem) : List (List (Nat × Rat) × Relation × Rat) :=
  p.limits.zipIdx.filterMap fun (limits, j) =>
    match limits with
    | (some l, some u) => if l = u then none else some ([(j, 1)], .le, u)
    | _ => none

def dictionary (p : RationalProblem) : Dictionary :=
  let columns := p.columns
  let rows := ((p.rows ++ p.capRows).flatMap p.slackForms).toArray
  { nonbasic := (List.range columns.length).toArray
    basic := (List.range rows.size).toArray.map (columns.length + ·)
    rows := rows
    objective := ⟨0, Array.replicate columns.length 0⟩ }

def columnObjective (p : RationalProblem) : Array Rat :=
  (p.columns.map fun (j, sign) => sign * p.objective.getD j 0).toArray

def point (p : RationalProblem) (d : Dictionary) : List Rat :=
  let steps := p.columns.zipIdx.map fun ((j, sign), label) => (j, sign * d.value label)
  p.limits.zipIdx.map fun (limits, j) => (shift limits).1 + coefficientIn steps j

def isEmptyRange : Option Rat × Option Rat → Bool
  | (some l, some u) => u < l
  | _ => false

def relax (p : RationalProblem) : RationalAnswer :=
  if p.limits.any isEmptyRange then .infeasible
  else
    match p.dictionary.start with
    | .infeasible => .infeasible
    | .exhausted => .exhausted
    | .feasible d =>
      let d := { d with objective := d.express p.columnObjective }
      match d.ascend d.pivotLimit with
      | .optimal d =>
        let values := p.point d
        .optimal values (formAt p.objective values)
      | .unbounded => .unbounded
      | .exhausted => .exhausted

abbrev Incumbent := Option (List Rat × Rat)

inductive Search where
  | finished (best : Incumbent)
  | unbounded
  | exhausted

def withLimits (p : RationalProblem) (j : Nat) (limits : Option Rat × Option Rat) :
    RationalProblem :=
  { p with limits := p.limits.set j limits }

def Search.andThen (s : Search) (next : Incumbent → Search) : Search :=
  match s with
  | .finished best => next best
  | .unbounded => .unbounded
  | .exhausted => .exhausted

/-- Looks for a point better than `best` at which the given variables are integers. -/
def search (integers : List Nat) : Nat → RationalProblem → Incumbent → Search
  | 0, _, _ => .exhausted
  | fuel + 1, p, best =>
    match p.relax with
    | .infeasible => .finished best
    | .unbounded => .unbounded
    | .exhausted => .exhausted
    | .optimal values objective =>
      if best.any fun (_, reached) => objective ≤ reached then .finished best
      else
        match integers.find? fun j => (values.getD j 0).den ≠ 1 with
        | none => .finished (some (values, objective))
        | some j =>
          let x := values.getD j 0
          let limits := p.limits.getD j (none, none)
          let below := p.withLimits j (limits.1, some (x.floor : Rat))
          let above := p.withLimits j (some ((x.floor + 1 : Int) : Rat), limits.2)
          let (first, second) := if x - x.floor ≤ 1 / 2 then (below, above) else (above, below)
          (search integers fuel first best).andThen (search integers fuel second)

end RationalProblem

/-- Which value each number means. -/
abbrev Reading (α : Type) := α → ExtendedRat

namespace ExactEngine

variable {α : Type} [Number α]

def rational? (reading : Reading α) (x : α) : Option Rat :=
  match reading x with
  | .finite q => some q
  | _ => none

def limits? (reading : Reading α) : Domain α → Option (Option Rat × Option Rat)
  | .integer least greatest => some (some least, some greatest)
  | .continuous lower upper => do
    let low ← match reading lower with
      | .finite q => some (some q)
      | .negInf => some none
      | .posInf | .nan => none
    let high ← match reading upper with
      | .finite q => some (some q)
      | .posInf => some none
      | .negInf | .nan => none
    return (low, high)

/-- What a row asks for: nothing, a comparison with a rational, or the impossible. -/
inductive Demand where
  | nothing
  | comparison (terms : List (Nat × Rat)) (relation : Relation) (rhs : Rat)
  | impossible

def demand (terms : List (Nat × Rat)) (relation : Relation) (rhs : ExtendedRat) : Demand :=
  match relation, rhs with
  | _, .finite q => .comparison terms relation q
  | .le, .posInf | .ge, .negInf => .nothing
  | _, _ => .impossible

def terms? (reading : Reading α) (row : EngineRow α) : Option (List (Nat × Rat)) :=
  row.terms.mapM fun (j, a) => (rational? reading a).map fun q => (j, q)

def comparisons (demands : List Demand) : List (List (Nat × Rat) × Relation × Rat) :=
  demands.filterMap fun
    | .comparison terms relation rhs => some (terms, relation, rhs)
    | _ => none

def Demand.isImpossible : Demand → Bool
  | .impossible => true
  | _ => false

def integers (problem : EngineProblem α) : List Nat :=
  problem.unknowns.zipIdx.filterMap fun (v, j) =>
    match v.domain with
    | .integer _ _ => some j
    | .continuous _ _ => none

/-- One more than the sum of all integer ranges. -/
def depth (problem : EngineProblem α) : Nat :=
  problem.unknowns.foldl (fun n v =>
    match v.domain with
    | .integer least greatest => n + (greatest - least).toNat
    | .continuous _ _ => n) 1

def repeats (row : EngineRow α) : Bool := !decide (row.terms.map Prod.fst).Nodup

/-- The objective as it is reported. A greatest value is the negated least value of the opposite
objective, so that a greatest value of zero is minus zero. -/
def attained (direction : Direction) (q : Rat) : α :=
  match direction with
  | .minimize => Number.nearest (.finite q)
  | .maximize => -Number.nearest (.finite (-q))

def answer (reading : Reading α) (problem : EngineProblem α) (objective : List Rat)
    (terms : List (List (Nat × Rat))) : EngineAnswer α :=
  let sign : Rat := match problem.direction with
    | .maximize => 1
    | .minimize => -1
  let demands := List.zipWith
    (fun ts (row : EngineRow α) => demand ts row.relation (reading row.rhs)) terms problem.rows
  match problem.unknowns.mapM fun v => limits? reading v.domain with
  | none => .infeasible
  | some limits =>
    if demands.any Demand.isImpossible then .infeasible
    else
      let p : RationalProblem := ⟨objective.map (sign * ·), limits, comparisons demands⟩
      match p.search (integers problem) (depth problem) none with
      | .finished (some (values, _)) =>
        .optimal (values.map fun q => Number.nearest (.finite q))
          (attained problem.direction (RationalProblem.formAt objective values))
      | .finished none => .infeasible
      | .unbounded => .unbounded
      | .exhausted => .fault

end ExactEngine

/-- Solves the problem that the numbers mean, exactly. It breaks off when a row names a variable
twice, and fails when a coefficient is not finite. -/
def exactEngine {α : Type} [Number α] (reading : Reading α) : Engine α := fun problem =>
  if problem.rows.any ExactEngine.repeats then .stopped
  else
    match problem.unknowns.mapM fun v => ExactEngine.rational? reading v.objective,
      problem.rows.mapM (ExactEngine.terms? reading) with
    | some objective, some terms => ExactEngine.answer reading problem objective terms
    | _, _ => .fault

/-- The engine for floating point problems: every number means the shortest decimal that reads back
as it, so that limits and coefficients given as decimals meet where the decimals meet. -/
def decimalEngine : Engine Float := exactEngine Decimal.meant

end LinearModel
