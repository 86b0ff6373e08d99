import LinearModel.Scalar.Number

/-!
# Binary floating point

Every finite `Float` stands for a rational with a power of two as its denominator. `Binary64.exact`
reads that value off the sign, mantissa and exponent, and `Binary64.nearest` goes back: a quotient
of integers is rounded once, to the nearest number, a tie going to the even mantissa. The two make
`Float` a `Number`, its order and arithmetic being the machine's.
-/

namespace LinearModel

open Float.Model (UnpackedFloat)

namespace Binary64

def scaled (m : Int) (e : Int) : Rat :=
  if 0 ≤ e then ((m * Int.pow 2 e.toNat : Int) : Rat) else mkRat m (Nat.pow 2 (-e).toNat)

/-- The value that a floating point number stands for; both zeros stand for zero. -/
def exact (x : Float) : ExtendedRat :=
  match x.toModel.unpack with
  | .infinity .positive => .posInf
  | .infinity .negative => .negInf
  | .notANumber => .nan
  | .zero _ => .finite 0
  | .finite sign m e _ => .finite (scaled (sign.apply m) e)

/-- The number nearest to a quotient of positive integers, with a sign. -/
def ofQuotient (sign : UnpackedFloat.Sign) (num den : Nat) (hnum : 0 < num) (hden : 0 < den) :
    Float :=
  .ofModel (Float.Model.pack (UnpackedFloat.div Float.Model.Format.binary64
    (.finite sign num 0 hnum) (.finite .positive den 0 hden)))

/-- The number nearest to a rational, a tie going to the even mantissa; zero is plus zero. -/
def ofRat (q : Rat) : Float :=
  if h : 0 < q.num.natAbs then
    ofQuotient (if q.num < 0 then .negative else .positive) q.num.natAbs q.den h q.den_pos
  else
    0.0

def nearest : ExtendedRat → Float
  | .nan => 0.0 / 0.0
  | .negInf => -1.0 / 0.0
  | .finite q => ofRat q
  | .posInf => 1.0 / 0.0

/-- The sign bit, which tells the two zeros apart. -/
def isNegative (x : Float) : Bool :=
  match x.toModel.unpack with
  | .infinity .negative | .zero .negative | .finite .negative _ _ _ => true
  | _ => false

end Binary64

instance : Scalar Float where
  zero := 0.0
  one := 1.0

instance : Number Float where
  lt := Float.lt
  le := Float.le
  abs := Float.abs
  exact := Binary64.exact
  nearest := Binary64.nearest

end LinearModel
