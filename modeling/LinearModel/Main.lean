import LinearModel.CommandLine

/-!
# The program

Reads the file that the command line names, prints what the run prints, and exits with its code.
-/

namespace LinearModel

namespace CommandLine

def FileProblem.ofError : IO.Error → FileProblem
  | .noFileOrDirectory .. => .missing
  | e => .other (toString e)

def readSource (file : String) : IO (Except FileProblem String) := do
  try
    return decodeFile (← IO.FS.readBinFile file)
  catch e =>
    return .error (.ofError e)

def usageText : String :=
  "Usage: (solve FILE [-t SECONDS] | assemble FILE | demo) [-f pretty|json] [-v]\n"

end CommandLine

end LinearModel

open LinearModel CommandLine in
def main (args : List String) : IO UInt32 := do
  match invocation false args with
  | .error usage =>
    if usage = .help then IO.print usageText else IO.eprint usageText
    return UInt32.ofNat usage.ending.exitCode
  | .ok request =>
    let source ← match request.file? with
      | some file => readSource file
      | none => pure (.error .missing)
    let ending := request.run decimalEngine source
    IO.print ending.output
    for failure in ending.failures do
      IO.eprintln failure.message
    return UInt32.ofNat ending.exitCode
