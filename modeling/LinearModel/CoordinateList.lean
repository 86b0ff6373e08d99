import LinearModel.Solution

/-!
# Coordinate lists

The matrix of a program as it is handed to an engine: parallel lists of row numbers, column numbers
and values, both kinds of number counted from one. Three lists that are built apart may differ in
length; the triples stop at the shortest, while the length of a coordinate list is the number of
its values.
-/

namespace LinearModel

structure CoordinateList (α : Type) where
  rows : List Nat
  cols : List Nat
  values : List α
  deriving DecidableEq, Repr

namespace CoordinateList

variable {α : Type}

def empty : CoordinateList α := ⟨[], [], []⟩

def ofTriples (triples : List (Nat × Nat × α)) : CoordinateList α where
  rows := triples.map fun t => t.1
  cols := triples.map fun t => t.2.1
  values := triples.map fun t => t.2.2

def length (m : CoordinateList α) : Nat := m.values.length

/-- Row, column and value, as far as there are all three. -/
def triples (m : CoordinateList α) : List (Nat × Nat × α) := m.rows.zip (m.cols.zip m.values)

@[simp] theorem triples_ofTriples (ts : List (Nat × Nat × α)) : (ofTriples ts).triples = ts := by
  induction ts with
  | nil => rfl
  | cons t rest ih => simpa [ofTriples, triples] using ih

@[simp] theorem length_ofTriples (ts : List (Nat × Nat × α)) : (ofTriples ts).length = ts.length :=
  by simp [ofTriples, length]

variable [Number α]

/-- A triple that a problem with `rows` rows and `cols` columns can hold: numbered from one, in
range, with a finite value that is not zero. -/
def admits (rows cols : Nat) : Nat × Nat × α → Bool
  | (row, col, value) =>
    1 ≤ row && row ≤ rows && 1 ≤ col && col ≤ cols && !(value == 0) && Number.isFinite value

/-- Succeeds exactly when every triple can be held; otherwise the first that cannot is named. -/
def validate (m : CoordinateList α) (rows cols : Nat) : Except (SolveError α) Unit :=
  match m.triples.find? fun t => !admits rows cols t with
  | some (row, col, value) => .error (.invalidEntry row col value)
  | none => .ok ()

end CoordinateList

end LinearModel
