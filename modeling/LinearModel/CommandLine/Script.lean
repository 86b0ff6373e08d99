import LinearModel.ProblemFile
import LinearModel.Solution
import LinearModel.Text.Columns

/-!
# Scripts

A command prints lines, reports failures and may exit at any point; what it has shown by then stays
shown. `Script.ending` is how a command ends that starts with nothing shown.
-/

namespace LinearModel

namespace CommandLine

inductive FileProblem where
  | missing
  | notText
  | other (message : String)

def FileProblem.message : FileProblem → String
  | missing => "No such file or directory (os error 2)"
  | notText => "stream did not contain valid UTF-8"
  | other message => message

def decodeFile (bytes : ByteArray) : Except FileProblem String :=
  match String.fromUTF8? bytes with
  | some text => .ok text
  | none => .error .notText

/-- The stage of a run that failed, and why. -/
inductive Failure where
  | reading (cause : FileProblem)
  | parsing (message : String)
  | model (cause : AlgebraError)
  | assembly (cause : SolveError Float)
  | solving (cause : SolveError Float)
  | writing (message : String)

def Failure.message : Failure → String
  | reading cause => "Error reading file: " ++ cause.message
  | parsing message => "Parse error: " ++ message
  | model cause => "Model error: " ++ cause.message
  | assembly cause => "Assembly error: " ++ cause.message
  | solving cause => "Solve error: " ++ cause.message
  | writing message => "Error writing JSON: " ++ message

/-- What a command has shown so far: the lines it printed and the failures it reported. -/
structure Shown where
  lines : List String
  failures : List Failure

def Shown.nothing : Shown := ⟨[], []⟩

/-- A command; where it exits early there is an exit code. -/
abbrev Script (β : Type) := ExceptT Nat (StateM Shown) β

structure Ending where
  exitCode : Nat
  output : String
  failures : List Failure

/-- The failure of a run that reported one. -/
def Ending.failure (e : Ending) : Option Failure := e.failures.head?

namespace Script

variable {β γ : Type}

def say (line : String) : Script Unit := modify fun s => { s with lines := s.lines ++ [line] }

def sayAll : List String → Script Unit
  | [] => pure ()
  | line :: rest => do
    say line
    sayAll rest

def report (failure : Failure) : Script Unit :=
  modify fun s => { s with failures := s.failures ++ [failure] }

def exit (code : Nat) : Script β := throw code

/-- Goes on with a result, or reports why there is none and exits. -/
def attempt {ε : Type} (stage : ε → Failure) : Except ε β → Script β
  | .ok x => pure x
  | .error cause => do
    report (stage cause)
    exit 1

/-- What a command returns, or the code it exits with, and all that is shown afterwards. -/
def runFrom (script : Script β) (shown : Shown) : Except Nat β × Shown := script.run.run shown

def ending (script : Script Unit) : Ending :=
  let (result, shown) := script.runFrom .nothing
  let exitCode := match result with
    | .ok () => 0
    | .error code => code
  ⟨exitCode, Text.lines shown.lines, shown.failures⟩

section Run

variable (shown : Shown)

@[simp] theorem runFrom_pure (x : β) : (pure x : Script β).runFrom shown = (.ok x, shown) := rfl

@[simp] theorem runFrom_exit (code : Nat) :
    (exit code : Script β).runFrom shown = (.error code, shown) := rfl

@[simp] theorem runFrom_say (line : String) :
    (say line).runFrom shown = (.ok (), { shown with lines := shown.lines ++ [line] }) := rfl

@[simp] theorem runFrom_report (failure : Failure) : (report failure).runFrom shown =
    (.ok (), { shown with failures := shown.failures ++ [failure] }) := rfl

theorem runFrom_bind (script : Script β) (next : β → Script γ) :
    (script >>= next).runFrom shown =
      match script.runFrom shown with
      | (.ok x, shown) => (next x).runFrom shown
      | (.error code, shown) => (.error code, shown) := by
  simp only [runFrom, ExceptT.run_bind, StateT.run_bind]
  cases h : StateT.run script.run shown with
  | mk result shown =>
    cases result <;> rfl

@[simp] theorem runFrom_sayAll (lines : List String) :
    (sayAll lines).runFrom shown = (.ok (), { shown with lines := shown.lines ++ lines }) := by
  induction lines generalizing shown with
  | nil => simp [sayAll]
  | cons line rest ih => simp [sayAll, runFrom_bind, ih]

end Run

end Script

end CommandLine

end LinearModel
