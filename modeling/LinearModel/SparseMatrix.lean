import LinearModel.SparseVector.Cursor

/-!
# Sparse matrices

A matrix is a list of lines, each of them the occupied cells of one row. How many rows there are
is the length of that list, and all lines share the number of columns by their type, so that every
matrix has the shape it declares. A matrix that is made from the cells of another is an empty one
into which they are inserted one by one (`SparseMatrix.insertAll`), so that its storage order is
theirs. Products accumulate cell by cell in storage order; what they mean is said by the dense
reading `SparseMatrix.get`.
-/

namespace LinearModel

/-- A matrix as the cells of its rows. -/
structure SparseMatrix (α : Type) where
  cols : Nat
  lines : List (Cells α cols)

namespace SparseMatrix

variable {α : Type}

def rows (m : SparseMatrix α) : Nat := m.lines.length

def shape (m : SparseMatrix α) : Shape := ⟨m.rows, m.cols⟩

def empty (rows cols : Nat) : SparseMatrix α := ⟨cols, List.replicate rows Cells.empty⟩

/-- The cells of row `i`; those past the end are empty. -/
def line (m : SparseMatrix α) (i : Nat) : Cells α m.cols := m.lines.getD i Cells.empty

def rowVector (m : SparseMatrix α) (i : Nat) : SparseVector α := ⟨m.cols, .row, m.line i⟩

def row (m : SparseMatrix α) (i : Nat) : Except AlgebraError (SparseVector α) := do
  requireIndex i m.rows
  return m.rowVector i

def occupied (m : SparseMatrix α) : Nat := m.lines.foldl (fun n line => n + line.occupied) 0

/-- Makes `value` the value at row `i` and column `j`. A place outside the shape takes nothing. -/
def insert (m : SparseMatrix α) (i j : Nat) (value : α) : SparseMatrix α :=
  { m with lines := m.lines.modify i fun line => line.put j value }

def insertAll (m : SparseMatrix α) (entries : List (Entry α)) : SparseMatrix α :=
  entries.foldl (fun m e => m.insert e.row e.col e.value) m

def set (m : SparseMatrix α) (i j : Nat) (value : α) : Except AlgebraError (SparseMatrix α) := do
  requireIndex i m.rows
  requireIndex j m.cols
  return m.insert i j value

/-- The stored cells, row by row and within a row in storage order. -/
def nonZeros (m : SparseMatrix α) : List (Entry α) :=
  m.lines.zipIdx.flatMap fun (line, i) => line.entries.map fun e => ⟨i, e.1, e.2⟩

/-- Rows become columns. Every row of the result is in ascending order. -/
def transpose (m : SparseMatrix α) : SparseMatrix α :=
  (empty m.cols m.rows).insertAll (m.nonZeros.map Entry.transposed)

/-- The cells of some lines at places `start` up to `stop`, counted from there, the lines being
rows from zero on. -/
def blockEntries {n : Nat} (start stop : Nat) (lines : List (Cells α n)) : List (Entry α) :=
  lines.zipIdx.flatMap fun (line, i) => line.entries.filterMap fun e =>
    if start ≤ e.1 ∧ e.1 < stop then some ⟨i, e.1 - start, e.2⟩ else none

def block (m : SparseMatrix α) (start stop : Nat) : Except AlgebraError (SparseMatrix α) :=
  let limit := min m.rows m.cols
  if limit < stop then .error (.indexOutOfRange stop limit)
  else if stop < start then .error (.indexOutOfRange start stop)
  else
    .ok ((empty (stop - start) (stop - start)).insertAll
      (blockEntries start stop ((m.lines.take stop).drop start)))

variable [Scalar α]

def identity (n : Nat) : SparseMatrix α :=
  (empty n n).insertAll ((List.range n).map fun i => ⟨i, i, 1⟩)

def denseEntries (rows : List (List α)) : List (Entry α) :=
  rows.zipIdx.flatMap fun (row, i) => row.zipIdx.filterMap fun (value, j) =>
    if value == 0 then none else some ⟨i, j, value⟩

def firstOther (cols : Nat) (lengths : List Nat) : Option Nat := lengths.find? (· != cols)

/-- A matrix of the given rows, which must be as long as the first; zeros are not stored. -/
def ofDense (rows : List (List α)) : Except AlgebraError (SparseMatrix α) :=
  let cols := (rows.head?.map List.length).getD 0
  match firstOther cols (rows.map List.length) with
  | some length => .error (.dimensionMismatch .denseRows ⟨1, cols⟩ ⟨1, length⟩)
  | none => .ok ((empty rows.length cols).insertAll (denseEntries rows))

def get (m : SparseMatrix α) (i j : Nat) : Except AlgebraError α := do
  requireIndex i m.rows
  (m.rowVector i).get j

def toDense (m : SparseMatrix α) : List (List α) := m.lines.map Cells.toDense

/-- The cells of one row times a matrix: for every cell `(k, a)` of the row and every cell
`(j, b)` of row `k` of the matrix, `a * b` is added at place `j`. -/
def combine {n : Nat} (line : Cells α n) (m : SparseMatrix α) : Cells α m.cols :=
  line.entries.foldl
    (fun target e => (m.line e.1).entries.foldl (fun t f => t.accumulate f.1 (e.2 * f.2)) target)
    Cells.empty

def mul (m k : SparseMatrix α) : Except AlgebraError (SparseMatrix α) :=
  if m.cols = k.rows then .ok ⟨k.cols, m.lines.map fun line => combine line k⟩
  else .error (.dimensionMismatch .multiply m.shape k.shape)

/-- The sum, each row keeping the storage order of the left operand. -/
def add (m k : SparseMatrix α) : Except AlgebraError (SparseMatrix α) :=
  if m.shape = k.shape then
    .ok ⟨m.cols, List.zipWith (fun a b => a.addAll b) m.lines k.lines⟩
  else
    .error (.dimensionMismatch .add m.shape k.shape)

def scale (m : SparseMatrix α) (k : α) : SparseMatrix α :=
  ⟨m.cols, m.lines.map fun line => line.map (· * k)⟩

/-- Equal shapes and equal dense values, whatever the storage. -/
instance : BEq (SparseMatrix α) where
  beq m k := m.rows == k.rows && m.cols == k.cols && m.toDense == k.toDense

end SparseMatrix

namespace SparseVector

variable {α : Type}

/-- A row as a matrix with one row, a column as a matrix with one column. -/
def toMatrix (v : SparseVector α) : SparseMatrix α :=
  (SparseMatrix.empty v.shape.rows v.shape.cols).insertAll v.nonZeros

variable [Scalar α]

def outer (v w : SparseVector α) : SparseMatrix α :=
  (SparseMatrix.empty v.size w.size).insertAll
    (v.cells.entries.flatMap fun e => w.cells.entries.map fun f => ⟨e.1, f.1, e.2 * f.2⟩)

/-- The product of two vectors as matrices: a row times a column is their inner product, a column
times a row is the outer product, and two vectors of one orientation have none. -/
def mul (v w : SparseVector α) : Except AlgebraError (SparseMatrix α) :=
  match v.orientation, w.orientation with
  | .row, .column =>
    if v.size = w.size then do
      return (SparseMatrix.empty 1 1).insert 0 0 (← v.dot w)
    else
      .error (.dimensionMismatch .multiply v.shape w.shape)
  | .column, .row => .ok (v.outer w)
  | left, right => .error (.unsupportedOrientation left right)

/-- The product of a vector, read in its own shape, with a matrix. -/
def mulMatrix (v : SparseVector α) (m : SparseMatrix α) : Except AlgebraError (SparseMatrix α) :=
  v.toMatrix.mul m

end SparseVector

def SparseMatrix.mulVector {α : Type} [Scalar α] (m : SparseMatrix α) (v : SparseVector α) :
    Except AlgebraError (SparseMatrix α) :=
  m.mul v.toMatrix

namespace SparseMatrix

variable {α : Type}

@[simp] theorem rows_empty (rows cols : Nat) : (empty rows cols : SparseMatrix α).rows = rows := by
  simp [empty, SparseMatrix.rows]

@[simp] theorem cols_empty (rows cols : Nat) : (empty rows cols : SparseMatrix α).cols = cols := rfl

@[simp] theorem cols_insert (m : SparseMatrix α) (i j : Nat) (value : α) :
    (m.insert i j value).cols = m.cols := rfl

@[simp] theorem rows_insert (m : SparseMatrix α) (i j : Nat) (value : α) :
    (m.insert i j value).rows = m.rows := by
  simp [insert, rows]

@[simp] theorem cols_insertAll (m : SparseMatrix α) (entries : List (Entry α)) :
    (m.insertAll entries).cols = m.cols := by
  induction entries generalizing m with
  | nil => rfl
  | cons e entries ih => exact ih _

@[simp] theorem rows_insertAll (m : SparseMatrix α) (entries : List (Entry α)) :
    (m.insertAll entries).rows = m.rows := by
  induction entries generalizing m with
  | nil => rfl
  | cons e entries ih => exact (ih _).trans (rows_insert m _ _ _)

@[simp] theorem rows_transpose (m : SparseMatrix α) : m.transpose.rows = m.cols := by
  simp [transpose]

@[simp] theorem cols_transpose (m : SparseMatrix α) : m.transpose.cols = m.rows := by
  simp [transpose]

@[simp] theorem shape_transpose (m : SparseMatrix α) : m.transpose.shape = m.shape.transposed := by
  simp [shape, Shape.transposed]

end SparseMatrix

end LinearModel
