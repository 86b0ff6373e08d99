import LinearModel.Decimal.Shortest

/-!
# Laying out decimals

How the digits of a number become text. A `Layout` decides which magnitudes are written out in
full, whether a whole number still shows a fraction, and how infinities and no number read; two
layouts are in use, `Layout.plain` for messages and reports and `Layout.data` for data files.
`Decimal.fixed` writes a number to a fixed count of places instead.
-/

namespace LinearModel

namespace Decimal

def padded (width n : Nat) : String :=
  let ds := Nat.toDigits 10 n
  String.ofList (List.replicate (width - ds.length) '0' ++ ds)

def positional (d : Decimal) (showsFraction : Bool) : String :=
  if 0 ≤ d.exponent then
    padded 1 (d.digits * Nat.pow 10 d.exponent.toNat) ++ (if showsFraction then ".0" else "")
  else
    let places := (-d.exponent).toNat
    let unit := Nat.pow 10 places
    padded 1 (d.digits / unit) ++ "." ++ padded places (d.digits % unit)

/-- One digit, a point and the others, and the power of ten of the first digit with its sign. -/
def scientific (d : Decimal) : String :=
  match Nat.toDigits 10 d.digits with
  | [] => ""
  | first :: others =>
    let power := d.exponent + others.length
    let sign := if power < 0 then "-" else "+"
    let fraction := if others.isEmpty then "" else "." ++ String.ofList others
    first.toString ++ fraction ++ "e" ++ sign ++ toString power.natAbs

end Decimal

structure Decimal.Layout where
  /-- The powers of ten of the first digit that are written out in full. -/
  inFull : Int → Bool
  /-- Whole numbers still show a point and a zero. -/
  showsFraction : Bool
  nan : String
  infinity : String
  negativeInfinity : String

namespace Decimal.Layout

def plain : Layout := ⟨fun _ => true, false, "NaN", "inf", "-inf"⟩

/-- Written out in full from `1e-5` up to `1e16`, always with a point; what is not finite is
null. -/
def data : Layout := ⟨fun power => -5 ≤ power ∧ power < 16, true, "null", "null", "null"⟩

def writeDecimal (l : Layout) (d : Decimal) : String :=
  if l.inFull (d.exponent + digitCount d.digits - 1) then d.positional l.showsFraction
  else d.scientific

def write (l : Layout) (x : Float) : String :=
  match x.toModel.unpack with
  | .notANumber => l.nan
  | .infinity .positive => l.infinity
  | .infinity .negative => l.negativeInfinity
  | .zero sign => minus sign ++ if l.showsFraction then "0.0" else "0"
  | .finite sign m e _ => minus sign ++ l.writeDecimal (shortest (.ofBinary m e))
where
  /-- What stands in front of the digits. -/
  minus : Float.Model.UnpackedFloat.Sign → String
    | .positive => ""
    | .negative => "-"

end Decimal.Layout

/-- The nearest integer to a rational that is not negative, a half going to the even neighbour. -/
def roundHalfEven (q : Rat) : Nat :=
  let down := q.floor.toNat
  let rest := q - down
  if rest < 1 / 2 then down
  else if 1 / 2 < rest then down + 1
  else down + down % 2

/-- A number to a fixed count of places, rounded from its exact value, a half going to the even
neighbour. The sign of a number stays when all its digits are zero. -/
def Decimal.fixed (places : Nat) (x : Float) : String :=
  match Binary64.exact x with
  | .nan => "NaN"
  | .posInf => "inf"
  | .negInf => "-inf"
  | .finite q =>
    let unit := Nat.pow 10 places
    let scaled := roundHalfEven (q.abs * (unit : Nat))
    let fraction := if places = 0 then "" else "." ++ padded places (scaled % unit)
    (if Binary64.isNegative x then "-" else "") ++ padded 1 (scaled / unit) ++ fraction

end LinearModel
