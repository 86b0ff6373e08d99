import LinearModel.Backend.Buffer
import LinearModel.Program.Edit
import LinearModel.Session

/-!
# Sample programs

Three small programs with the values they are expected to reach, where those are known, and a run
that solves any list of such programs one after the other in a single session and compares.
-/

namespace LinearModel

/-- A program with a title and the values it is expected to reach, if they are known. -/
structure Sample where
  title : String
  program : LinearProgram Float
  expected : Option (List Float)

/-- What solving a sample gave, and for every variable whether it came close to its expected
value. -/
structure SampleReport where
  title : String
  solution : Except (SolveError Float) (Solution Float)
  checks : List Bool

namespace SampleReport

def passed (r : SampleReport) : Bool := r.solution.isOk && r.checks.all id

end SampleReport

namespace Sample

def productionPlan : Except AlgebraError (LinearProgram Float) := do
  let lp := LinearProgram.ofDense [10.0, 6.0, 4.0]
  let lp ← lp.addConstraint "p" (.ofDense [1.0, 1.0, 1.0]) .le 320.0
  let lp ← lp.addConstraint "q" (.ofDense [10.0, 4.0, 5.0]) .le 650.0
  let lp ← lp.addConstraint "r1" (.ofDense [2.0, 2.0, 6.0]) .ge 100.0
  let lp ← lp.setLowerBounds [30.0, 0.0, 0.0]
  lp.setIntegers [true, true, true]

def smallMixedInteger : Except AlgebraError (LinearProgram Float) := do
  let lp := (LinearProgram.ofDense [2.0, 0.0, 1.0, 0.5, 0.5]).setMinimize true
  let lp ← lp.setLowerBounds [1.0, 1.0, 1.0, 1.0, 1.0]
  let lp ← lp.addConstraint "x_1 + x_4 >= 2" (.ofDense [0.5, 0.0, 0.0, 2.0, 0.0]) .ge 2.0
  let lp ← lp.addConstraint "2 + x_4 + 0.5*x_5 <= 5" (.ofDense [0.0, 2.0, 0.0, 2.0, 1.0]) .le 5.0
  let lp ← lp.addConstraint "3*x_3 + 10*x_5 >= 16" (.ofDense [0.0, 0.0, 3.0, 0.0, 10.0]) .ge 16.0
  (List.range lp.dimension).foldlM LinearProgram.setInteger lp

def freeIntegers : Except AlgebraError (LinearProgram Float) := do
  let lp := (LinearProgram.ofDense [1.0, 1.0, 1.0]).setMinimize true
  let lp ← lp.addConstraint "x_1 >= 5" (.ofDense [1.0, 0.0, 0.0]) .ge 5.0
  let lp ← lp.addConstraint "x_2 >= 3" (.ofDense [0.0, 1.0, 0.0]) .ge 3.0
  let lp ← lp.addConstraint "x_3 >= 4" (.ofDense [0.0, 0.0, 1.0]) .ge 4.0
  lp.setIntegers [true, true, true]

def all : Except AlgebraError (List Sample) := do
  return [
    ⟨"production plan", ← productionPlan, none⟩,
    ⟨"small MIP", ← smallMixedInteger, some [1.0, 1.0, 2.0, 1.0, 1.0]⟩,
    ⟨"free integer variables", ← freeIntegers, some [5.0, 3.0, 4.0]⟩]

def isClose (value expected : Float) : Bool := Number.lt (Number.abs (value - expected)) 0.01

/-- Compares values one by one; a list of another length fails as a whole. -/
def checks (values expected : List Float) : List Bool :=
  if values.length = expected.length then List.zipWith isClose values expected else [false]

def report (s : Sample) (solution : Except (SolveError Float) (Solution Float)) : SampleReport where
  title := s.title
  solution := solution
  checks :=
    match solution, s.expected with
    | .ok solution, some expected => checks solution.values expected
    | _, _ => []

section Report

variable (s : Sample) (result : Except (SolveError Float) (Solution Float))

@[simp] theorem title_report : (s.report result).title = s.title := rfl

@[simp] theorem solution_report : (s.report result).solution = result := rfl

/-- Values are compared exactly where a solution meets expected values. -/
theorem checks_report_of_ok {solution : Solution Float} {expected : List Float}
    (hsolution : result = .ok solution) (hexpected : s.expected = some expected) :
    (s.report result).checks = checks solution.values expected := by
  simp [report, hsolution, hexpected]

theorem checks_report_of_error {e : SolveError Float} (h : result = .error e) :
    (s.report result).checks = [] := by
  simp [report, h]

theorem checks_report_of_none (h : s.expected = none) : (s.report result).checks = [] := by
  cases result <;> simp [report, h]

end Report

/-- Solves samples in order in one session. -/
def runIn {B : Type} [Backend B Float] (session : Session B) : List Sample → List SampleReport
  | [] => []
  | s :: rest =>
    let (solution, session) := session.solve s.program
    s.report solution :: runIn session rest

def run (engine : Engine Float) (samples : List Sample) : List SampleReport :=
  runIn (Session.new (BufferedEngine.new engine)) samples

end Sample

end LinearModel
