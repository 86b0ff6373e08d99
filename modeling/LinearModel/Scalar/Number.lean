import LinearModel.Scalar.Extended

/-!
# Numbers that can stand as bounds

A linear program asks more of its scalars than a matrix does: an order, two infinities, and
rounding to integers. `Number` adds the order and subtraction, and says which extended rational a
number stands for (`exact`) and which number is nearest to an extended rational (`nearest`). All
else is derived from these two: the infinities, the tolerance of feasibility checks, and rounding.
-/

namespace LinearModel

/-- Scalars with an order, subtraction and an exact value. -/
class Number (α : Type) extends Scalar α, Sub α where
  /-- Strictly smaller; never so when one side is no number. -/
  lt : α → α → Bool
  le : α → α → Bool
  abs : α → α
  /-- The value that a number stands for. -/
  exact : α → ExtendedRat
  /-- The number that stands for a value, or for the nearest value that has one. -/
  nearest : ExtendedRat → α

instance : Number ExtendedRat where
  lt := ExtendedRat.lt
  le := ExtendedRat.le
  abs := ExtendedRat.abs
  exact := id
  nearest := id

namespace Number

variable {α : Type} [Number α]

def posInf : α := nearest .posInf

def negInf : α := nearest .negInf

/-- How far a point may miss a bound, a right-hand side or an integer and still count as
feasible: one part in a thousand million, absolutely. -/
def tolerance : α := nearest (.finite (1 / 1000000000))

def isNaN (x : α) : Bool :=
  match exact x with
  | .nan => true
  | _ => false

def isFinite (x : α) : Bool :=
  match exact x with
  | .finite _ => true
  | _ => false

/-- The nearest integral number, a half going away from zero. -/
def round (x : α) : α := nearest (exact x).round.toExtended

end Number

end LinearModel
