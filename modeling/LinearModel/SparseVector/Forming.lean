import LinearModel.SparseMatrix.Parts

/-!
# How vectors are obtained

A `Forming` is one way to obtain a vector: made from nothing or from dense values, or taken out of a
matrix that was obtained somehow, and changed and combined from there. It can be followed on the
vectors themselves and on their parts, where nothing but the checks of the operations keeps a write
inside.
-/

namespace LinearModel

inductive Forming (α : Type) where
  | empty (size : Nat)
  | emptyWithHint (size hint : Nat)
  | dense (xs : List α)
  | row (how : Making α) (i : Nat)
  | orient (how : Forming α) (o : Orientation)
  | set (how : Forming α) (i : Nat) (value : α)
  | add (left right : Forming α)
  | scale (how : Forming α) (k : α)
  | transpose (how : Forming α)

namespace Forming

variable {α : Type} [Scalar α]

/-- The parts that are obtained. A write that is refused leaves what there was. -/
def parts? : Forming α → Option (Except AlgebraError (VectorParts α))
  | empty size | emptyWithHint size _ => some (.ok (.empty size))
  | dense xs => some (.ok (.ofDense xs))
  | row how i => proceed how.parts? fun p => p.row? i
  | orient how o => proceed how.parts? fun r => some (.ok (r.orient o))
  | set how i value => proceed how.parts? fun r => (r.set? i value).map fun (_, q) => .ok q
  | add left right => proceed left.parts? fun r => proceed right.parts? fun q => r.add? q
  | scale how k => proceed how.parts? fun r => some (.ok (r.scale k))
  | transpose how => proceed how.parts? fun r => some (.ok r.transpose)

/-- The vector that is obtained. -/
def vector : Forming α → Except AlgebraError (SparseVector α)
  | empty size => .ok (.empty size)
  | emptyWithHint size hint => .ok (.emptyWithHint size hint)
  | dense xs => .ok (.ofDense xs)
  | row how i => how.matrix.bind fun m => m.row i
  | orient how o => how.vector.bind fun v => .ok (v.orient o)
  | set how i value => how.vector.bind fun v => .ok ((v.set i value).toOption.getD v)
  | add left right => left.vector.bind fun v => right.vector.bind fun w => v.add w
  | scale how k => how.vector.bind fun v => .ok (v.scale k)
  | transpose how => how.vector.bind fun v => .ok v.transpose

end Forming

end LinearModel
