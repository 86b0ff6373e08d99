import LinearModel.AlgebraError
import LinearModel.Cells

/-!
# Sparse vectors

A vector has a declared size, an orientation, and the cells it occupies. Equality and products
read the dense values and never the storage: two vectors that store equal values in different
orders, or keep a zero where the other keeps nothing, are `==`. Sums keep the storage order, which
is why `SparseVector.dotDense` runs along the cells.
-/

namespace LinearModel

/-- A vector of declared size and orientation, with the places it occupies. -/
structure SparseVector (α : Type) where
  size : Nat
  orientation : Orientation
  cells : Cells α size

namespace SparseVector

variable {α : Type}

@[ext] theorem ext {v w : SparseVector α} (hsize : v.size = w.size)
    (horientation : v.orientation = w.orientation) (hcells : v.cells.entries = w.cells.entries) :
    v = w := by
  obtain ⟨n, o, c⟩ := v
  obtain ⟨m, p, d⟩ := w
  cases hsize
  cases horientation
  cases Cells.ext hcells
  rfl

def empty (size : Nat) : SparseVector α := ⟨size, .column, Cells.empty⟩

/-- The empty column with `size` places. The hint tells how many writes to expect; it bears on how
much memory is set aside, and how much there is of that is outside the model. -/
def emptyWithHint (size _hint : Nat) : SparseVector α := empty size

/-- The column of the given values, every place occupied, zeros included. -/
def ofDense (xs : List α) : SparseVector α := ⟨xs.length, .column, Cells.ofDense xs⟩

def orient (v : SparseVector α) (o : Orientation) : SparseVector α :=
  { v with orientation := o }

def shape (v : SparseVector α) : Shape := v.orientation.shape v.size

def occupied (v : SparseVector α) : Nat := v.cells.occupied

def indices (v : SparseVector α) : List Nat := v.cells.indices

def values (v : SparseVector α) : List α := v.cells.values

/-- Where place `i` stands in the two lists, if it is occupied. -/
def slot? (v : SparseVector α) (i : Nat) : Option Nat := v.cells.slot? i

def set (v : SparseVector α) (i : Nat) (value : α) : Except AlgebraError (SparseVector α) := do
  requireIndex i v.size
  return { v with cells := v.cells.put i value }

def transpose (v : SparseVector α) : SparseVector α := v.orient v.orientation.flipped

@[simp] theorem size_orient (v : SparseVector α) (o : Orientation) :
    (v.orient o).size = v.size := rfl

@[simp] theorem size_transpose (v : SparseVector α) : v.transpose.size = v.size := rfl

@[simp] theorem transpose_transpose (v : SparseVector α) : v.transpose.transpose = v := by
  simp [transpose, orient]

variable [Scalar α]

def get (v : SparseVector α) (i : Nat) : Except AlgebraError α := do
  requireIndex i v.size
  return v.cells.get i

def toDense (v : SparseVector α) : List α := v.cells.toDense

/-- The sum over the stored cells, in their storage order, of the stored value times the value of
`xs` at the same place. -/
def dotDense (v : SparseVector α) (xs : List α) : Except AlgebraError α :=
  if v.size = xs.length then
    .ok (Scalar.sum (v.cells.entries.map fun e => e.2 * xs.getD e.1 0))
  else
    .error (.dimensionMismatch .dot v.shape (Orientation.column.shape xs.length))

def dot (v w : SparseVector α) : Except AlgebraError α :=
  if v.size = w.size then v.dotDense w.toDense
  else .error (.dimensionMismatch .dot v.shape w.shape)

def add (v w : SparseVector α) : Except AlgebraError (SparseVector α) :=
  if v.size = w.size then .ok { v with cells := v.cells.addAll w.cells }
  else .error (.dimensionMismatch .add v.shape w.shape)

def scale (v : SparseVector α) (k : α) : SparseVector α :=
  { v with cells := v.cells.map (· * k) }

/-- Equal sizes and equal dense values, whatever the orientation and the storage. -/
instance : BEq (SparseVector α) where
  beq v w := v.size == w.size && v.toDense == w.toDense

@[simp] theorem size_scale (v : SparseVector α) (k : α) : (v.scale k).size = v.size := rfl

theorem length_toDense (v : SparseVector α) : v.toDense.length = v.size :=
  v.cells.length_toDense

end SparseVector

end LinearModel
