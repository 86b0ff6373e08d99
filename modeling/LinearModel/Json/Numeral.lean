import LinearModel.Decimal.Shortest

/-!
# Numerals

A numeral is the spelling of a number in a data file. One without fraction and exponent that fits a
64-bit word is an integer. Any other is a floating point number: its leading digits, as many as fit
a 64-bit word, are taken as a number and scaled by a power of ten in floating point, which rounds
twice at most when the power is in range. A numeral too large for floating point has no value.
-/

namespace LinearModel

namespace Json

/-- A sign, digits, the digits behind the point if there is one, and an exponent with its sign. -/
structure Numeral where
  negative : Bool
  whole : List Char
  fraction : List Char
  exponent : Option (Bool × List Char)
  deriving DecidableEq, Repr

inductive NumberValue where
  | unsigned (n : Nat)
  /-- Minus `n`, for a positive `n`. -/
  | negative (n : Nat)
  | float (x : Float)

namespace Numeral

def digit (c : Char) : Nat := c.toNat - '0'.toNat

def ofDigits (ds : List Char) : Nat := ds.foldl (fun n c => 10 * n + digit c) 0

def wordLimit : Nat := Nat.pow 2 64

/-- Takes digits behind `n` for as long as the number fits a word; what did not fit is returned
as it is. -/
def takeFitting (n : Nat) : List Char → Nat × List Char
  | [] => (n, [])
  | c :: rest =>
    if 10 * n + digit c < wordLimit then takeFitting (10 * n + digit c) rest else (n, c :: rest)

def ofNat (n : Nat) : Float := Binary64.ofRat n

def tenPow (k : Nat) : Float := Binary64.ofRat (Nat.pow 10 k)

/-- The greatest exponent at which a power of ten is a floating point number. -/
def greatestPower : Nat := 308

/-- Divides by a power of ten, in steps of at most the greatest power. -/
def divideByTenPow (x : Float) (k : Nat) : Float :=
  if k ≤ greatestPower then x / tenPow k
  else if x == 0.0 then x
  else divideByTenPow (x / tenPow greatestPower) (k - greatestPower)
termination_by k
decreasing_by simp only [greatestPower] at *; omega

/-- Multiplies by a power of ten; nothing when the result is too large. -/
def timesTenPow (x : Float) (k : Nat) : Option Float :=
  if k ≤ greatestPower then
    let y := x * tenPow k
    if y.isInf then none else some y
  else if x == 0.0 then some x
  else none

def scale (n : Nat) (exponent : Int) : Option Float :=
  if 0 ≤ exponent then timesTenPow (ofNat n) exponent.toNat
  else some (divideByTenPow (ofNat n) (-exponent).toNat)

def power (n : Numeral) : Int :=
  match n.exponent with
  | none => 0
  | some (negative, ds) => if negative then -(ofDigits ds : Int) else ofDigits ds

def magnitude? (n : Numeral) : Option Float :=
  let (leading, beyond) := takeFitting 0 n.whole
  let (word, dropped) := takeFitting leading n.fraction
  let places := n.fraction.length - dropped.length
  scale word (beyond.length + n.power - places)

def value? (n : Numeral) : Option NumberValue :=
  let integer := ofDigits n.whole
  if n.fraction.isEmpty && n.exponent.isNone && integer < wordLimit then
    if !n.negative then some (.unsigned integer)
    else if 0 < integer && integer ≤ Nat.pow 2 63 then some (.negative integer)
    else some (.float (-ofNat integer))
  else
    n.magnitude?.map fun x => .float (if n.negative then -x else x)

end Numeral

end Json

end LinearModel
