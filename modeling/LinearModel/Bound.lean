import LinearModel.Scalar.Number

/-!
# Bounds

A bound says between which limits a column or a row may lie. It carries two limits and a kind that
tells which of them count, so that `Bound.limits` never reads a side that is not active.
`Bound.between` picks the kind from the limits themselves.
-/

namespace LinearModel

inductive BoundKind where
  | free
  | lower
  | upper
  | double
  | fixed
  deriving DecidableEq, Repr

inductive VariableKind where
  | continuous
  | integer
  deriving DecidableEq, Repr

inductive Direction where
  | minimize
  | maximize
  deriving DecidableEq, Repr

/-- Limits for a column or a row, and which of them count. -/
structure Bound (α : Type) where
  kind : BoundKind
  lower : α
  upper : α
  deriving DecidableEq, Repr

namespace Bound

variable {α : Type} [Number α]

def free : Bound α := ⟨.free, Number.negInf, Number.posInf⟩

/-- The kind that two limits call for: a side is active when its limit is finite, and equal finite
limits fix the value. -/
def kindBetween (lower upper : α) : BoundKind :=
  match Number.isFinite lower, Number.isFinite upper with
  | false, false => .free
  | true, false => .lower
  | false, true => .upper
  | true, true => if lower == upper then .fixed else .double

def between (lower upper : α) : Bound α := ⟨kindBetween lower upper, lower, upper⟩

/-- The limits that the kind makes active, infinite on the other sides. A fixed bound has its
lower limit on both sides. -/
def limits (b : Bound α) : α × α :=
  match b.kind with
  | .free => (Number.negInf, Number.posInf)
  | .lower => (b.lower, Number.posInf)
  | .upper => (Number.negInf, b.upper)
  | .double => (b.lower, b.upper)
  | .fixed => (b.lower, b.lower)

@[simp] theorem limits_free : (free : Bound α).limits = (Number.negInf, Number.posInf) := rfl

end Bound

end LinearModel
