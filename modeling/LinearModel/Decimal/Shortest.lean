import LinearModel.Scalar.Binary64

/-!
# Shortest decimals

A binary floating point number is the rounding of every rational in an interval around it. The
shortest decimal that reads back is found on the decimal grids of one digit, two digits and so on:
the first grid that meets the interval wins, and of the points that do, the one nearest to the
number. Only the two neighbours of the number on a grid can be nearest, so only they are tried.
-/

namespace LinearModel

structure Decimal where
  digits : Nat
  exponent : Int
  deriving DecidableEq, Repr

/-- The rationals that round to a positive floating point number, and the number itself. The ends
belong to the interval exactly when the mantissa is even. -/
structure RoundingInterval where
  value : Rat
  below : Rat
  above : Rat
  closed : Bool
  deriving DecidableEq, Repr

namespace RoundingInterval

/-- The interval of `m * 2 ^ e`. At a power of two the next number below is half as far away as
the next above, unless there is no smaller exponent. -/
def ofBinary (m : Nat) (e : Int) : RoundingInterval where
  value := Binary64.scaled m e
  below := Binary64.scaled (if m = Nat.pow 2 52 ∧ -1074 < e then 4 * m - 1 else 4 * m - 2) (e - 2)
  above := Binary64.scaled (4 * m + 2) (e - 2)
  closed := m % 2 = 0

def contains (i : RoundingInterval) (x : Rat) : Bool :=
  if i.closed then i.below ≤ x ∧ x ≤ i.above else i.below < x ∧ x < i.above

end RoundingInterval

namespace Decimal

def digitCount (n : Nat) : Nat := (Nat.toDigits 10 n).length

def tenPow (k : Int) : Rat :=
  if 0 ≤ k then (Nat.pow 10 k.toNat : Rat) else mkRat 1 (Nat.pow 10 (-k).toNat)

def toRat (d : Decimal) : Rat := d.digits * tenPow d.exponent

/-- The least `k` with `x < 10 ^ k`, for a positive `x`. -/
def magnitude (x : Rat) : Int :=
  let k : Int := digitCount x.num.natAbs - digitCount x.den
  if x < tenPow k then k else k + 1

def normalize (digits : Nat) (exponent : Int) : Decimal :=
  go digits exponent digits
where
  /-- Each step divides the digits by ten, so as many steps as the digits count suffice. -/
  go (digits : Nat) (exponent : Int) : Nat → Decimal
    | 0 => ⟨digits, exponent⟩
    | fuel + 1 =>
      if digits ≠ 0 ∧ digits % 10 = 0 then go (digits / 10) (exponent + 1) fuel
      else ⟨digits, exponent⟩

/-- The point of the grid `10 ^ k` that reads back and is nearest, if the grid has one. -/
def onGrid (i : RoundingInterval) (k : Int) : Option Decimal :=
  let unit := tenPow k
  let down := (i.value / unit).floor.toNat
  let up := down + 1
  let takes (d : Nat) : Bool := i.contains (d * unit)
  let nearer : Nat := if (up : Rat) * unit - i.value < i.value - down * unit then up else down
  if takes down && takes up then some (normalize nearer k)
  else if takes down then some (normalize down k)
  else if takes up then some (normalize up k)
  else none

/-- The shortest decimal that reads back, of those the nearest. Seventeen digits always do. -/
def shortest (i : RoundingInterval) : Decimal :=
  let top := magnitude i.value
  let grids := (List.range 17).map fun n => top - (n + 1 : Nat)
  (grids.findSome? (onGrid i)).getD ⟨0, 0⟩

/-- The value of the shortest decimal that reads back as a number: the value a person who wrote the
number down meant, where the number itself only comes close to it. -/
def meant (x : Float) : ExtendedRat :=
  match x.toModel.unpack with
  | .finite .positive m e _ => .finite (shortest (.ofBinary m e)).toRat
  | .finite .negative m e _ => .finite (-(shortest (.ofBinary m e)).toRat)
  | _ => Binary64.exact x

end Decimal

end LinearModel
