import LinearModel.Scalar

/-!
# Extended rationals

The rationals with two infinities and a value that is no number. They are what a floating point
number stands for exactly (`ExtendedRat.finite` is its rational value) and, with the arithmetic
below, what floating point would compute if it never rounded. Rounding to an integer leaves the
three values that are no rational as they are, which is why its result is a `Whole`.
-/

namespace LinearModel

inductive ExtendedRat where
  | nan
  | negInf
  | finite (q : Rat)
  | posInf
  deriving DecidableEq, Repr

inductive Whole where
  | nan
  | negInf
  | int (n : Int)
  | posInf
  deriving DecidableEq, Repr

def Whole.toExtended : Whole → ExtendedRat
  | .nan => .nan
  | .negInf => .negInf
  | .int n => .finite n
  | .posInf => .posInf

/-- The integer nearest to a rational, a half going away from zero. -/
def roundHalfAway (q : Rat) : Int :=
  if 0 ≤ q then (q + 1 / 2).floor else (q - 1 / 2).ceil

namespace ExtendedRat

/-- An infinity with the sign of `q`, and no number at zero: what an infinity times `q` is. -/
def infinityTimes (q : Rat) : ExtendedRat :=
  if 0 < q then .posInf else if q < 0 then .negInf else .nan

protected def neg : ExtendedRat → ExtendedRat
  | .nan => .nan
  | .negInf => .posInf
  | .finite q => .finite (-q)
  | .posInf => .negInf

protected def add : ExtendedRat → ExtendedRat → ExtendedRat
  | .finite p, .finite q => .finite (p + q)
  | .nan, _ | _, .nan => .nan
  | .posInf, .negInf | .negInf, .posInf => .nan
  | .posInf, _ | _, .posInf => .posInf
  | .negInf, _ | _, .negInf => .negInf

protected def mul : ExtendedRat → ExtendedRat → ExtendedRat
  | .finite p, .finite q => .finite (p * q)
  | .nan, _ | _, .nan => .nan
  | .posInf, .posInf | .negInf, .negInf => .posInf
  | .posInf, .negInf | .negInf, .posInf => .negInf
  | .posInf, .finite q | .finite q, .posInf => infinityTimes q
  | .negInf, .finite q | .finite q, .negInf => infinityTimes (-q)

protected def sub (a b : ExtendedRat) : ExtendedRat :=
  a.add b.neg

protected def abs : ExtendedRat → ExtendedRat
  | .nan => .nan
  | .finite q => .finite q.abs
  | .negInf | .posInf => .posInf

/-- Strictly smaller; never so when one side is no number. -/
protected def lt : ExtendedRat → ExtendedRat → Bool
  | .finite p, .finite q => decide (p < q)
  | .nan, _ | _, .nan => false
  | .posInf, _ | _, .negInf => false
  | .negInf, _ | _, .posInf => true

/-- Equal as values; never so when one side is no number. -/
protected def beq : ExtendedRat → ExtendedRat → Bool
  | .finite p, .finite q => decide (p = q)
  | .posInf, .posInf | .negInf, .negInf => true
  | _, _ => false

protected def le (a b : ExtendedRat) : Bool :=
  a.lt b || a.beq b

instance : Neg ExtendedRat := ⟨ExtendedRat.neg⟩
instance : Add ExtendedRat := ⟨ExtendedRat.add⟩
instance : Mul ExtendedRat := ⟨ExtendedRat.mul⟩
instance : Sub ExtendedRat := ⟨ExtendedRat.sub⟩
instance : BEq ExtendedRat := ⟨ExtendedRat.beq⟩

instance : Scalar ExtendedRat where
  zero := .finite 0
  one := .finite 1

def roundBy (f : Rat → Int) : ExtendedRat → Whole
  | .nan => .nan
  | .negInf => .negInf
  | .finite q => .int (f q)
  | .posInf => .posInf

def floor : ExtendedRat → Whole := roundBy Rat.floor

def ceil : ExtendedRat → Whole := roundBy Rat.ceil

def round : ExtendedRat → Whole := roundBy roundHalfAway

@[simp] theorem finite_add_finite (p q : Rat) :
    (finite p + finite q : ExtendedRat) = finite (p + q) := rfl

@[simp] theorem finite_mul_finite (p q : Rat) :
    (finite p * finite q : ExtendedRat) = finite (p * q) := rfl

@[simp] theorem finite_sub_finite (p q : Rat) :
    (finite p - finite q : ExtendedRat) = finite (p - q) :=
  congrArg finite (Rat.sub_eq_add_neg p q).symm

@[simp] theorem neg_finite (q : Rat) : (-finite q : ExtendedRat) = finite (-q) := rfl

@[simp] theorem lt_finite (p q : Rat) : (finite p).lt (finite q) = decide (p < q) := rfl

@[simp] theorem beq_finite (p q : Rat) : (finite p == finite q) = decide (p = q) := rfl

end ExtendedRat

end LinearModel
