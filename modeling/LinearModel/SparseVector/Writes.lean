import LinearModel.SparseVector

/-!
# Writing to a vector

A write is answered and leaves a vector behind; one past the end is refused and leaves the vector
that there was. A vector that is written to starts empty, with or without a hint on how many writes
to expect, or with every place occupied.
-/

namespace LinearModel

variable {α : Type}

namespace SparseVector

/-- The answer to a write, and the vector that it leaves. -/
def write (v : SparseVector α) (i : Nat) (value : α) : Except AlgebraError Unit × SparseVector α :=
  match v.set i value with
  | .ok w => (.ok (), w)
  | .error e => (.error e, v)

/-- The answers to writes that are made one after the other, and the vector that they leave. -/
def writeAll : SparseVector α → List (Nat × α) → List (Except AlgebraError Unit) × SparseVector α
  | v, [] => ([], v)
  | v, (i, value) :: rest =>
    let (answer, w) := v.write i value
    let (answers, last) := w.writeAll rest
    (answer :: answers, last)

theorem writeAll_cons (v : SparseVector α) (w : Nat × α) (rest : List (Nat × α)) :
    v.writeAll (w :: rest) =
      ((v.write w.1 w.2).1 :: ((v.write w.1 w.2).2.writeAll rest).1,
        ((v.write w.1 w.2).2.writeAll rest).2) := rfl

/-- How a vector starts before it is written to. -/
inductive Start (α : Type) where
  | empty (size : Nat)
  | emptyWithHint (size hint : Nat)
  | dense (values : List α)

namespace Start

def vector : Start α → SparseVector α
  | empty size => .empty size
  | emptyWithHint size hint => .emptyWithHint size hint
  | dense values => .ofDense values

def size : Start α → Nat
  | empty size | emptyWithHint size _ => size
  | dense values => values.length

/-- The values of all places at the start. -/
def values [Zero α] : Start α → List α
  | empty size | emptyWithHint size _ => List.replicate size 0
  | dense values => values

/-- The places that are occupied at the start. -/
def occupied : Start α → List Nat
  | empty _ | emptyWithHint _ _ => []
  | dense values => List.range values.length

end Start

end SparseVector

end LinearModel
