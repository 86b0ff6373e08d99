import LinearModel.Session

/-!
# Requests to a session

What is asked of a session as a value: a `Request` is a program to describe or to solve. A history
of a session is then a list, and `Session.serveAll` is where it leads, whatever was refused or
failed on the way. `Session.solveAll` keeps the results of programs that are solved one after the
other.
-/

namespace LinearModel

inductive Request (α : Type) where
  | describe (lp : LinearProgram α)
  | solve (lp : LinearProgram α)

namespace Session

variable {B α : Type} [Backend B α] [Number α]

def serve (s : Session B) : Request α → Session B
  | .describe lp => (s.describe lp).2
  | .solve lp => (s.solve lp).2

def serveAll (s : Session B) (requests : List (Request α)) : Session B := requests.foldl serve s

/-- What solving programs in order in one session gives for each of them. -/
def solveAll (s : Session B) :
    List (LinearProgram α) → List (Except (SolveError α) (Solution α))
  | [] => []
  | lp :: rest => (s.solve lp).1 :: solveAll (s.solve lp).2 rest

@[simp] theorem serveAll_nil (s : Session B) : s.serveAll ([] : List (Request α)) = s := rfl

@[simp] theorem serveAll_cons (s : Session B) (r : Request α) (rest : List (Request α)) :
    s.serveAll (r :: rest) = (s.serve r).serveAll rest := rfl

end Session

end LinearModel
