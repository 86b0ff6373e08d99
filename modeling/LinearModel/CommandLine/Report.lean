import LinearModel.CommandLine.Invocation
import LinearModel.Data.Records
import LinearModel.Backend.Recorder
import LinearModel.Samples
import LinearModel.Text.Columns

/-!
# Reports

The lines that the commands print: a solution, a described problem, or the outcome of the samples,
as text in columns or as data. Numbers have four places in columns and all their digits elsewhere.
-/

namespace LinearModel

namespace CommandLine

open Json Text

/-- A number with all its digits. -/
def plain (x : Float) : String := Decimal.Layout.plain.write x

def rounded (x : Float) : String := Decimal.fixed 4 x

def solutionText (names : List String) (s : Solution Float) : List String :=
  ["Status: " ++ s.status.text, "Objective: " ++ rounded s.objectiveValue, "", "Variables:"]
    ++ List.zipWith (fun name x => "  " ++ left 20 name ++ " " ++ right 12 (rounded x)) names
      s.values

def interval (b : Bound Float) : String :=
  let (lower, upper) := b.limits
  match b.kind with
  | .free => "free"
  | .lower => s!"[{plain lower}, +inf)"
  | .upper => s!"(-inf, {plain upper}]"
  | .double => s!"[{plain lower}, {plain upper}]"
  | .fixed => s!"= {plain lower}"

def recordedColumns (r : Recorder Float) : List (Column Float) :=
  List.zipWith (fun name (objective, bound, kind) => ⟨name, objective, bound, kind⟩) r.columnNames
    (r.objective.zip (r.columnBounds.zip r.columnKinds))

def recordedRows (r : Recorder Float) : List (Row Float) :=
  List.zipWith (fun name bound => ⟨name, bound⟩) r.rowNames r.rowBounds

def columnLine (number : Nat) (c : Column Float) : String :=
  let kind := match c.kind with
    | .continuous => ""
    | .integer => "integer"
  s!"  {right 4 (toString number)} {left 20 c.name} {right 10 (rounded c.objective)} "
    ++ s!"{left 24 (interval c.bound)} {kind}"

def rowLine (number : Nat) (r : Row Float) : String :=
  s!"  {right 4 (toString number)} {left 20 r.name} {interval r.bound}"

def entryLine (entry : Nat × Nat × Float) : String :=
  s!"  ({entry.1}, {entry.2.1}) = {plain entry.2.2}"

def descriptionText (direction : Direction) (r : Recorder Float) : List String :=
  ["Direction: " ++ direction.name, "", "Columns:"]
    ++ (recordedColumns r).zipIdx.map (fun (c, j) => columnLine (j + 1) c)
    ++ ["", "Rows:"]
    ++ (recordedRows r).zipIdx.map (fun (row, i) => rowLine (i + 1) row)
    ++ ["", s!"Matrix ({r.matrix.length} nonzeros):"]
    ++ r.matrix.triples.map entryLine

def columnData (c : Column Float) : Value :=
  .object [("name", .string c.name), ("objective", .float c.objective), ("bound", c.bound.write),
    ("kind", c.kind.write)]

def rowData (r : Row Float) : Value :=
  .object [("name", .string r.name), ("bound", r.bound.write)]

def descriptionData (r : Recorder Float) : Value :=
  .object [("columns", .array ((recordedColumns r).map columnData)),
    ("rows", .array ((recordedRows r).map rowData)), ("matrix", r.matrix.write)]

/-- How a value compares with the expected one. -/
def verdict : Option Bool → String
  | some true => "found"
  | some false => "MISMATCH"
  | none => ""

def sampleLines (r : SampleReport) : List String :=
  [s!"== {r.title} =="]
    ++ (match r.solution with
      | .ok s =>
        ["Status: " ++ s.status.text, "Objective: " ++ rounded s.objectiveValue]
          ++ s.values.zipIdx.map fun (x, j) =>
            s!"  x{left 4 (toString j)} {right 12 (rounded x)}  {verdict r.checks[j]?}"
      | .error e => ["Solve error: " ++ e.message])
    ++ [""]

def samplesText (reports : List SampleReport) : List String := reports.flatMap sampleLines

end CommandLine

end LinearModel
