import LinearModel.Program.Description

/-!
# Sessions

A session owns a backend and the settings for its solves. It checks the limits of all columns
before the backend hears anything, so that a program whose bounds admit no value leaves the backend
as it was; after that the description is told in order and the matrix loaded last. Solving
describes the program first, and reads the point of a successful solve off the backend.
-/

namespace LinearModel

/-- Settings that hold for every solve of a session. -/
structure SolveOptions where
  /-- In milliseconds; passed on to the backend. -/
  timeLimit : Option Nat
  /-- Lets the engine show its own messages. -/
  verbose : Bool
  deriving DecidableEq, Repr

def SolveOptions.default : SolveOptions := ⟨none, false⟩

structure Session (B : Type) where
  backend : B
  options : SolveOptions

namespace Session

def new {B : Type} (backend : B) : Session B := ⟨backend, .default⟩

variable {B α : Type} [Backend B α] [Number α]

/-- Describes a program to the backend. -/
def describe (s : Session B) (lp : LinearProgram α) : Except (SolveError α) Unit × Session B :=
  match lp.columnBounds (List.range lp.dimension) with
  | .error e => (.error e, s)
  | .ok columns =>
    let told := Backend.tellAll s.backend (lp.statements s.options.verbose columns)
    let (result, backend) := Backend.load told lp.coordinates
    (result, { s with backend })

def limitTime (backend : B) (options : SolveOptions) : B :=
  match options.timeLimit with
  | some ms => Backend.tell backend (.timeLimit ms)
  | none => backend

def solution (backend : B) (dimension : Nat) (status : SolveStatus) : Solution α where
  status := status
  values := (List.range dimension).map fun j => Backend.primal backend (j + 1)
  objectiveValue := Backend.objectiveValue backend

/-- Describes a program to the backend and solves it there. A status without a point is an error. -/
def solve (s : Session B) (lp : LinearProgram α) :
    Except (SolveError α) (Solution α) × Session B :=
  match s.describe lp with
  | (.error e, s) => (.error e, s)
  | (.ok (), s) =>
    let (result, backend) := Backend.solve (limitTime s.backend s.options) lp.isMixedInteger
    let s := { s with backend }
    match result with
    | .error e => (.error e, s)
    | .ok status =>
      if status.isSuccess then (.ok (solution backend lp.dimension status), s)
      else (.error (.failure status), s)

end Session

def LinearProgram.solve {B α : Type} [Backend B α] [Number α] (lp : LinearProgram α) (backend : B) :
    Except (SolveError α) (List α) :=
  ((Session.new backend).solve lp).1.map Solution.values

end LinearModel
