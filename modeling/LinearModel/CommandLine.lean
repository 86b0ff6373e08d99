import LinearModel.CommandLine.Report
import LinearModel.CommandLine.Script
import LinearModel.Engine.Exact
import LinearModel.Json.Library

/-!
# The command line

The commands as scripts. A stage that fails is the last, and nothing is printed before the last
stage that can fail is over. The words for a text that cannot be read, and for a value that cannot
be written, are those of the data library.
-/

namespace LinearModel

namespace CommandLine

open Script

/-- Reads a problem file and makes its program. -/
def load (library : Json.Library) (source : Except FileProblem String) :
    Script (LinearProgram Float) := do
  let text ← attempt .reading source
  let file ← attempt (.parsing ∘ library.explain text) (ProblemFile.parse text)
  attempt .model file.toProgram

/-- Prints a value as data, or else the lines of a text. -/
def present (library : Json.Library) (data : Json.Value) (lines : List String) :
    Format → Script Unit
  | .json => do say (← attempt .writing (library.write data))
  | .pretty => sayAll lines

/-- The session that solves a problem file; the time limit is in seconds. -/
def solver (engine : Engine Float) (timeLimit : Option Nat) (verbose : Bool) :
    Session (BufferedEngine Float) :=
  ⟨BufferedEngine.new engine, timeLimit.map (1000 * ·), verbose⟩

/-- Solves a program. An engine that stops takes the whole run with it. -/
def solveOrExit (session : Session (BufferedEngine Float)) (lp : LinearProgram Float) :
    Script (Solution Float) :=
  match (session.solve lp).1 with
  | .error .engineStopped => exit 101
  | result => attempt .solving result

def runSolve (library : Json.Library) (session : Session (BufferedEngine Float)) (format : Format)
    (source : Except FileProblem String) : Script Unit := do
  let lp ← load library source
  let solution ← solveOrExit session lp
  present library solution.write (solutionText lp.names solution) format

/-- Describes the program in a file to a recorder and prints what it was told. -/
def runAssemble (library : Json.Library) (format : Format) (source : Except FileProblem String) :
    Script Unit := do
  let lp ← load library source
  let (result, session) := (Session.new (Recorder.new : Recorder Float)).describe lp
  attempt .assembly result
  present library (descriptionData session.backend)
    (descriptionText lp.direction session.backend) format

def runSamples (engine : Engine Float) : Script Unit := do
  let samples ← attempt .model Sample.all
  let reports := Sample.run engine samples
  sayAll (samplesText reports)
  if !reports.all SampleReport.passed then exit 1

def Invocation.file? : Invocation → Option String
  | solve file _ _ _ => some file
  | assemble file _ => some file
  | demo => none

def Invocation.script (library : Json.Library) (engine : Engine Float)
    (source : Except FileProblem String) : Invocation → Script Unit
  | solve _ timeLimit format verbose =>
    runSolve library (solver engine timeLimit verbose) format source
  | assemble _ format => runAssemble library format source
  | demo => runSamples engine

/-- Runs an invocation on the contents of its file. -/
def Invocation.runWith (library : Json.Library) (engine : Engine Float)
    (source : Except FileProblem String) (request : Invocation) : Ending :=
  (request.script library engine source).ending

/-- Runs an invocation with brief words about data files. -/
def Invocation.run (engine : Engine Float) (source : Except FileProblem String)
    (request : Invocation) : Ending :=
  request.runWith .brief engine source

def Usage.ending : Usage → Ending
  | help => ⟨0, "", []⟩
  | mistake => ⟨2, "", []⟩

end CommandLine

end LinearModel
