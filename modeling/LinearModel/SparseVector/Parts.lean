import LinearModel.SparseVector.Cursor

/-!
# The parts of a vector

The type of a `SparseVector` ties what it stores to its size. Its parts are the same vector with
nothing held together. The operations on parts check what they are asked to and then read and write
where they are told, which is the caller's care. A write past the end of the vector has no result
(`none`), and neither has a look-up of a value or of a dense place that is not there; a refusal is a
result like any other. The rows of a matrix are vectors that are read as rows.
-/

namespace LinearModel

/-- A vector whose size is not tied to what it stores. -/
structure VectorParts (α : Type) where
  size : Nat
  orientation : Orientation
  storage : Storage α

def SparseVector.parts {α : Type} (v : SparseVector α) : VectorParts α :=
  ⟨v.size, v.orientation, v.cells.storage⟩

def Cells.rowParts {α : Type} {n : Nat} (c : Cells α n) : VectorParts α := ⟨n, .row, c.storage⟩

/-- Goes on with what was obtained. -/
def proceed {β γ : Type} (attempt : Option (Except AlgebraError β))
    (next : β → Option (Except AlgebraError γ)) : Option (Except AlgebraError γ) :=
  match attempt with
  | none => none
  | some (.error e) => some (.error e)
  | some (.ok b) => next b

namespace VectorParts

variable {α : Type}

def empty (size : Nat) : VectorParts α := ⟨size, .column, .empty⟩

def ofDense (xs : List α) : VectorParts α := ⟨xs.length, .column, .ofDense xs⟩

def orient (r : VectorParts α) (o : Orientation) : VectorParts α := { r with orientation := o }

def transpose (r : VectorParts α) : VectorParts α := r.orient r.orientation.flipped

def shape (r : VectorParts α) : Shape := r.orientation.shape r.size

def occupied (r : VectorParts α) : Nat := r.storage.index.length

def entryOf (r : VectorParts α) (cell : Nat × α) : Entry α :=
  match r.orientation with
  | .row => ⟨0, cell.1, cell.2⟩
  | .column => ⟨cell.1, 0, cell.2⟩

def nonZeros (r : VectorParts α) : List (Entry α) := r.storage.entries.map r.entryOf

/-- The cell at a position, and the position behind it. -/
def next? (r : VectorParts α) (position : Nat) : Option (Option (Entry α) × Nat) :=
  match r.storage.index[position]? with
  | none => some (none, position)
  | some i => r.storage.data[position]?.map fun v => (some (r.entryOf (i, v)), position + 1)

/-- Changes the value at a place, or gives it a fresh one. -/
def store? (r : VectorParts α) (j : Nat) (fresh : α) (change : α → α) : Option (VectorParts α) :=
  if j < r.size ∧ (r.storage.slots j).all (· < r.storage.data.length) then
    some { r with storage := r.storage.write j fresh change }
  else
    none

/-- The answer to a write, and what it leaves behind. -/
def set? (r : VectorParts α) (j : Nat) (value : α) :
    Option (Except AlgebraError Unit × VectorParts α) :=
  match requireIndex j r.size with
  | .error e => some (.error e, r)
  | .ok () => (r.store? j value fun _ => value).map fun q => (.ok (), q)

variable [Scalar α]

def get? (r : VectorParts α) (j : Nat) : Option (Except AlgebraError α) :=
  match requireIndex j r.size with
  | .error e => some (.error e)
  | .ok () =>
    match r.storage.slots j with
    | none => some (.ok 0)
    | some p => r.storage.data[p]?.map .ok

/-- Writes the stored values over zeros, one by one. -/
def toDense? (r : VectorParts α) : Option (List α) :=
  r.storage.entries.foldlM
    (fun dense e => if e.1 < dense.length then some (dense.set e.1 e.2) else none)
    (List.replicate r.size 0)

def dotDense? (r : VectorParts α) (xs : List α) : Option (Except AlgebraError α) :=
  if r.size = xs.length then
    (r.storage.entries.mapM fun e => xs[e.1]?.map (e.2 * ·)).map fun terms => .ok (Scalar.sum terms)
  else
    some (.error (.dimensionMismatch .dot r.shape (Orientation.column.shape xs.length)))

def accumulateAll? (r : VectorParts α) (entries : List (Nat × α)) : Option (VectorParts α) :=
  entries.foldlM (fun r e => r.store? e.1 e.2 (· + e.2)) r

def add? (r q : VectorParts α) : Option (Except AlgebraError (VectorParts α)) :=
  if r.size = q.size then (r.accumulateAll? q.storage.entries).map .ok
  else some (.error (.dimensionMismatch .add r.shape q.shape))

def scale (r : VectorParts α) (k : α) : VectorParts α :=
  { r with storage := r.storage.map (· * k) }

end VectorParts

end LinearModel
