import LinearModel.SparseMatrix
import LinearModel.SparseVector.Parts

/-!
# The parts of a matrix

The lines of a `SparseMatrix` share their number of columns by their type. Its parts are the same
matrix with nothing held together: declared numbers of rows and columns, and rows that are parts of
vectors, each with a size, an orientation and a storage of its own. The operations on parts check
what they are asked to and then write where they are told, which is the caller's care. A row that is
looked up past the last one has no result (`none`), as little as what a row has no result for; a
refusal is a result like any other. A `Making` is one way to obtain a matrix, step by step.
-/

namespace LinearModel

/-- A matrix whose declared shape is not tied to its rows. -/
structure MatrixParts (α : Type) where
  rows : Nat
  cols : Nat
  data : List (VectorParts α)

def SparseMatrix.parts {α : Type} (m : SparseMatrix α) : MatrixParts α :=
  ⟨m.rows, m.cols, m.lines.map Cells.rowParts⟩

namespace MatrixParts

variable {α : Type}

def shape (p : MatrixParts α) : Shape := ⟨p.rows, p.cols⟩

def empty (rows cols : Nat) : MatrixParts α :=
  ⟨rows, cols, List.replicate rows ⟨cols, .row, .empty⟩⟩

def insert? (p : MatrixParts α) (i j : Nat) (value : α) : Option (MatrixParts α) := do
  let row ← p.data[i]?
  let row ← row.store? j value fun _ => value
  return { p with data := p.data.set i row }

def insertAll? (p : MatrixParts α) (entries : List (Entry α)) : Option (MatrixParts α) :=
  entries.foldlM (fun p e => p.insert? e.row e.col e.value) p

/-- The answer to a write, and what it leaves behind. -/
def set? (p : MatrixParts α) (i j : Nat) (value : α) :
    Option (Except AlgebraError Unit × MatrixParts α) :=
  match requireIndex i p.rows, requireIndex j p.cols with
  | .error e, _ => some (.error e, p)
  | .ok (), .error e => some (.error e, p)
  | .ok (), .ok () => (p.insert? i j value).map fun q => (.ok (), q)

def row? (p : MatrixParts α) (i : Nat) : Option (Except AlgebraError (VectorParts α)) :=
  match requireIndex i p.rows with
  | .error e => some (.error e)
  | .ok () => p.data[i]?.map .ok

/-- The stored cells, row by row, each with the number of the row it is stored in. -/
def nonZeros (p : MatrixParts α) : List (Entry α) :=
  p.data.zipIdx.flatMap fun (row, i) => row.nonZeros.map fun e => { e with row := i }

def occupied (p : MatrixParts α) : Nat := p.data.foldl (fun n row => n + row.storage.index.length) 0

def transpose? (p : MatrixParts α) : Option (MatrixParts α) :=
  (empty p.cols p.rows).insertAll? (p.nonZeros.map Entry.transposed)

/-- The cells of some rows at places `start` up to `stop`, counted from there. -/
def blockEntries (start stop : Nat) (rows : List (VectorParts α)) : List (Entry α) :=
  rows.zipIdx.flatMap fun (row, i) => row.nonZeros.filterMap fun e =>
    if start ≤ e.col ∧ e.col < stop then some ⟨i, e.col - start, e.value⟩ else none

def block? (p : MatrixParts α) (start stop : Nat) : Option (Except AlgebraError (MatrixParts α)) :=
  let limit := min p.rows p.cols
  if limit < stop then some (.error (.indexOutOfRange stop limit))
  else if stop < start then some (.error (.indexOutOfRange start stop))
  else if stop ≤ p.data.length then
    ((empty (stop - start) (stop - start)).insertAll?
      (blockEntries start stop ((p.data.take stop).drop start))).map .ok
  else none

/-- A row as a matrix with one row, a column as a matrix with one column. -/
def ofVector? (v : SparseVector α) : Option (MatrixParts α) :=
  (empty v.shape.rows v.shape.cols).insertAll? v.nonZeros

variable [Scalar α]

def get? (p : MatrixParts α) (i j : Nat) : Option (Except AlgebraError α) :=
  match requireIndex i p.rows with
  | .error e => some (.error e)
  | .ok () => p.data[i]?.bind fun row => row.get? j

def identity? (n : Nat) : Option (MatrixParts α) :=
  (empty n n).insertAll? ((List.range n).map fun i => ⟨i, i, 1⟩)

def denseRowEntries (i : Nat) (row : List α) : List (Entry α) :=
  row.zipIdx.filterMap fun (value, j) => if value == 0 then none else some ⟨i, j, value⟩

/-- Writes dense rows, the first of which has number `i`, until one has another length. -/
def fill? (cols : Nat) :
    Nat → List (List α) → MatrixParts α → Option (Except AlgebraError (MatrixParts α))
  | _, [], p => some (.ok p)
  | i, row :: rest, p =>
    if row.length = cols then
      (p.insertAll? (denseRowEntries i row)).bind fun p => fill? cols (i + 1) rest p
    else
      some (.error (.dimensionMismatch .denseRows ⟨1, cols⟩ ⟨1, row.length⟩))

def ofDense? (rows : List (List α)) : Option (Except AlgebraError (MatrixParts α)) :=
  let cols := (rows.head?.map List.length).getD 0
  fill? cols 0 rows (empty rows.length cols)

/-- Adds a row times a matrix to a row. -/
def accumulateRow? (q : MatrixParts α) (row target : VectorParts α) : Option (VectorParts α) :=
  row.storage.entries.foldlM (fun target e =>
    q.data[e.1]?.bind fun other =>
      other.storage.entries.foldlM (fun t f => t.store? f.1 (e.2 * f.2) (· + e.2 * f.2)) target)
    target

/-- Adds every row times a matrix to the row beside it. -/
def accumulateRows? (q : MatrixParts α) :
    List (VectorParts α) → List (VectorParts α) → Option (List (VectorParts α))
  | row :: rows, target :: targets => do
    return (← q.accumulateRow? row target) :: (← q.accumulateRows? rows targets)
  | _, targets => some targets

def mul? (p q : MatrixParts α) : Option (Except AlgebraError (MatrixParts α)) :=
  if p.cols = q.rows then
    (q.accumulateRows? p.data (empty p.rows q.cols).data).map fun data => .ok ⟨p.rows, q.cols, data⟩
  else
    some (.error (.dimensionMismatch .multiply p.shape q.shape))

def addRows? : List (VectorParts α) → List (VectorParts α) →
    Option (Except AlgebraError (List (VectorParts α)))
  | r :: rs, q :: qs => proceed (r.add? q) fun sum =>
      proceed (addRows? rs qs) fun sums => some (.ok (sum :: sums))
  | _, _ => some (.ok [])

def add? (p q : MatrixParts α) : Option (Except AlgebraError (MatrixParts α)) :=
  if p.shape = q.shape then
    proceed (addRows? p.data q.data) fun data => some (.ok ⟨p.rows, p.cols, data⟩)
  else
    some (.error (.dimensionMismatch .add p.shape q.shape))

def scale (p : MatrixParts α) (k : α) : MatrixParts α :=
  { p with data := p.data.map fun row => row.scale k }

def outer? (v w : SparseVector α) : Option (MatrixParts α) :=
  (empty v.size w.size).insertAll?
    (v.cells.entries.flatMap fun e => w.cells.entries.map fun f => ⟨e.1, f.1, e.2 * f.2⟩)

def ofVectors? (v w : SparseVector α) : Option (Except AlgebraError (MatrixParts α)) :=
  match v.orientation, w.orientation with
  | .row, .column =>
    if v.size = w.size then
      proceed (some (v.dot w)) fun x => ((empty 1 1).insert? 0 0 x).map .ok
    else
      some (.error (.dimensionMismatch .multiply v.shape w.shape))
  | .column, .row => (outer? v w).map .ok
  | left, right => some (.error (.unsupportedOrientation left right))

end MatrixParts

/-- How a matrix is obtained: made from nothing, from dense rows or from vectors, and changed and
combined from there. -/
inductive Making (α : Type) where
  | zero (rows cols : Nat)
  | identity (n : Nat)
  | dense (rows : List (List α))
  | vector (v : SparseVector α)
  | vectors (v w : SparseVector α)
  | vectorTimes (v : SparseVector α) (how : Making α)
  | set (how : Making α) (i j : Nat) (value : α)
  | transpose (how : Making α)
  | times (left right : Making α)
  | timesVector (how : Making α) (v : SparseVector α)
  | add (left right : Making α)
  | scale (how : Making α) (k : α)
  | block (how : Making α) (start stop : Nat)

namespace Making

variable {α : Type} [Scalar α]

/-- The parts that are obtained. A write that is refused leaves what there was. -/
def parts? : Making α → Option (Except AlgebraError (MatrixParts α))
  | zero rows cols => some (.ok (.empty rows cols))
  | identity n => (MatrixParts.identity? n).map .ok
  | dense rows => MatrixParts.ofDense? rows
  | vector v => (MatrixParts.ofVector? v).map .ok
  | vectors v w => MatrixParts.ofVectors? v w
  | vectorTimes v how => proceed how.parts? fun p =>
      (MatrixParts.ofVector? v).bind fun q => q.mul? p
  | set how i j value => proceed how.parts? fun p => (p.set? i j value).map fun (_, q) => .ok q
  | transpose how => proceed how.parts? fun p => p.transpose?.map .ok
  | times left right => proceed left.parts? fun p => proceed right.parts? fun q => p.mul? q
  | timesVector how v => proceed how.parts? fun p =>
      (MatrixParts.ofVector? v).bind fun q => p.mul? q
  | add left right => proceed left.parts? fun p => proceed right.parts? fun q => p.add? q
  | scale how k => proceed how.parts? fun p => some (.ok (p.scale k))
  | block how start stop => proceed how.parts? fun p => p.block? start stop

/-- The matrix that is obtained. -/
def matrix : Making α → Except AlgebraError (SparseMatrix α)
  | zero rows cols => .ok (.empty rows cols)
  | identity n => .ok (.identity n)
  | dense rows => SparseMatrix.ofDense rows
  | vector v => .ok v.toMatrix
  | vectors v w => v.mul w
  | vectorTimes v how => how.matrix.bind fun m => v.mulMatrix m
  | set how i j value => how.matrix.bind fun m => .ok ((m.set i j value).toOption.getD m)
  | transpose how => how.matrix.bind fun m => .ok m.transpose
  | times left right => left.matrix.bind fun m => right.matrix.bind fun k => m.mul k
  | timesVector how v => how.matrix.bind fun m => m.mulVector v
  | add left right => left.matrix.bind fun m => right.matrix.bind fun k => m.add k
  | scale how k => how.matrix.bind fun m => .ok (m.scale k)
  | block how start stop => how.matrix.bind fun m => m.block start stop

end Making

end LinearModel
