/-!
# Shapes

The declared size of a vector or matrix, which has nothing to do with how many of its places are
occupied. A vector has a size and an `Orientation`; the two together give its `Shape`.
-/

namespace LinearModel

/-- Declared numbers of rows and columns. -/
structure Shape where
  rows : Nat
  cols : Nat
  deriving DecidableEq, Repr

namespace Shape

def transposed (s : Shape) : Shape := ⟨s.cols, s.rows⟩

def text (s : Shape) : String := s!"{s.rows}x{s.cols}"

@[simp] theorem transposed_transposed (s : Shape) : s.transposed.transposed = s := rfl

end Shape

/-- How a vector is read when it takes part in a product: as one row or as one column. -/
inductive Orientation where
  | row
  | column
  deriving DecidableEq, Repr

instance : Inhabited Orientation := ⟨.column⟩

namespace Orientation

def flipped : Orientation → Orientation
  | row => column
  | column => row

def shape (o : Orientation) (size : Nat) : Shape :=
  match o with
  | row => ⟨1, size⟩
  | column => ⟨size, 1⟩

def text : Orientation → String
  | row => "row"
  | column => "column"

@[simp] theorem flipped_flipped (o : Orientation) : o.flipped.flipped = o := by
  cases o <;> rfl

@[simp] theorem shape_flipped (o : Orientation) (size : Nat) :
    o.flipped.shape size = (o.shape size).transposed := by
  cases o <;> rfl

end Orientation

structure Entry (α : Type) where
  row : Nat
  col : Nat
  value : α
  deriving DecidableEq, Repr

def Entry.transposed {α : Type} (e : Entry α) : Entry α := ⟨e.col, e.row, e.value⟩

end LinearModel
