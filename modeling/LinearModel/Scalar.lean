/-!
# Scalars

The numbers that vectors and matrices are made of. Every container is generic in them: a program
runs on binary floating point, and the same definitions read over the rationals say what it
computes when nothing is rounded. No law is asked for here, because floating point keeps few of
them; a statement that needs laws names the scalars it speaks about.
-/

namespace LinearModel

/-- The numbers that entries are made of. The comparison `==` is that of values, so that it may
hold between two representations of zero and may fail between a number and itself. -/
class Scalar (α : Type) extends Zero α, One α, Neg α, Add α, Mul α, BEq α

instance : Scalar Rat where
  zero := 0
  one := 1

/-- The sum of a list from its first member on. It starts from minus zero, which added to any
number leaves that number as it is, the sign of a zero included. -/
def Scalar.sum {α : Type} [Scalar α] (xs : List α) : α :=
  xs.foldl (· + ·) (-0)

@[simp] theorem Scalar.sum_nil {α : Type} [Scalar α] : Scalar.sum ([] : List α) = -0 := rfl

end LinearModel
