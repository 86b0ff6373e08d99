import LinearModel.Backend

/-!
# Calls to a backend

What is done to a backend as a value: a `Call` tells it a statement, offers it a matrix or asks it
to solve. A history of calls is then a list, and `Backend.performAll` is where it leads. Of the
answers on the way, `Backend.loadAnswers` keeps those to the matrices that were offered.
-/

namespace LinearModel

inductive Call (α : Type) where
  | tell (statement : Statement α)
  | load (matrix : CoordinateList α)
  | solve (integral : Bool)
  deriving DecidableEq, Repr

namespace Backend

variable {B α : Type} [Backend B α]

def perform (b : B) : Call α → B
  | .tell s => tell b s
  | .load m => (load b m).2
  | .solve integral => (solve b integral).2

def performAll (b : B) (calls : List (Call α)) : B := calls.foldl perform b

/-- What the matrices offered along the way are answered with, in order. -/
def loadAnswers (b : B) : List (Call α) → List (Except (SolveError α) Unit)
  | [] => []
  | .load m :: rest => (load b m).1 :: loadAnswers (load b m).2 rest
  | .tell s :: rest => loadAnswers (tell b s) rest
  | .solve integral :: rest => loadAnswers (solve b integral).2 rest

@[simp] theorem performAll_nil (b : B) : performAll b ([] : List (Call α)) = b := rfl

@[simp] theorem performAll_cons (b : B) (c : Call α) (rest : List (Call α)) :
    performAll b (c :: rest) = performAll (perform b c) rest := rfl

/-- What no call breaks holds after all of them. -/
theorem performAll_invariant {P : B → Prop} (hstep : ∀ b c, P b → P (perform b c)) {b : B} (h : P b)
    (calls : List (Call α)) : P (performAll b calls) := by
  induction calls generalizing b with
  | nil => exact h
  | cons c rest ih => exact ih (hstep b c h)

end Backend

end LinearModel
