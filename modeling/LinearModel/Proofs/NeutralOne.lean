import Mathlib
import LinearModel.Proofs.Rounding

/-!
# Numbers that one leaves alone

A product with one is the other factor, and nothing is lost when it is rounded. For floating point
this says that zeros behind a mantissa, which multiplying by one puts there, are cut off again
without a trace (`Binary64.roundWithAccuracy_shiftLeft`), so that the result is the same bit
pattern, of an infinity, a signed zero or no number as well.
-/

namespace LinearModel

/-- Scalars that one leaves as they are, whichever side it stands on. -/
class NeutralOne (α : Type) [Scalar α] : Prop where
  mul_one (x : α) : x * 1 = x
  one_mul (x : α) : 1 * x = x

instance : NeutralOne Rat where
  mul_one := Rat.mul_one
  one_mul := Rat.one_mul

instance : NeutralOne ExtendedRat where
  mul_one x := by
    cases x with
    | finite q => exact congrArg ExtendedRat.finite (Rat.mul_one q)
    | _ => rfl
  one_mul x := by
    cases x with
    | finite q => exact congrArg ExtendedRat.finite (Rat.one_mul q)
    | _ => rfl

namespace Binary64

open Float.Model (UnpackedFloat Format)
open Float.Model.UnpackedFloat

variable {s : Sign} {m : Nat} {e : Int} {hm : 0 < m}

/-- The mantissa of a number is on the grid that its magnitude is rounded to. -/
theorem grid_of_canonical (h : Canonical (.finite s m e hm)) : grid m e = e := by
  obtain ⟨hlt, hle, hlong⟩ := h
  have hlog : m.log2 < 53 := (Nat.log2_lt hm.ne').2 hlt
  rw [grid]
  rcases hlong with hlong | rfl
  · have hlog' : 52 ≤ m.log2 := (Nat.le_log2 hm.ne').2 hlong
    omega
  · omega

/-- Rounding cuts zeros behind the mantissa of a number off and changes nothing else. -/
theorem roundWithAccuracy_shiftLeft (h : Canonical (.finite s m e hm)) (j : Nat) :
    roundWithAccuracy Format.binary64 s (m <<< j) (e - j) .exact = .finite s m e hm := by
  obtain ⟨em, hem⟩ : ∃ em, em =
      ExtendedMantissa.ofMantissaAndAccuracy (m <<< j) .exact >>> j := ⟨_, rfl⟩
  have hmantissa : em.mantissa = m := by
    rw [hem, mantissa_shiftRight]
    show m <<< j / 2 ^ j = m
    rw [Nat.shiftLeft_eq, Nat.mul_div_cancel _ (Nat.two_pow_pos j)]
  have hbits : em.roundBit = false ∧ em.stickyBit = false := by
    rw [hem]
    exact bits_shiftRight (by rw [Nat.shiftLeft_eq, Nat.mul_mod_left])
  have hrounded : em.roundedMantissa = m :=
    ((roundedMantissa_cases em).resolve_right fun hcases => hcases.2 hbits).trans hmantissa
  have hgrid : grid (m <<< j) (e - j) = e := (grid_shiftLeft hm j e).trans (grid_of_canonical h)
  have hfirst : shiftToTargetExponent Format.binary64 (m <<< j) (e - j) .exact = (em, e) := by
    simp [shiftToTargetExponent, shiftToExponent, targetExponent_eq, hgrid, hem]
  have hsecond : shiftToTargetExponent Format.binary64 m e .exact =
      (ExtendedMantissa.ofMantissaAndAccuracy m .exact, e) := by
    simp [shiftToTargetExponent, shiftToExponent, targetExponent_eq, grid_of_canonical h]
    rfl
  simp only [roundWithAccuracy, hfirst, hrounded, hsecond]
  exact dif_neg hm.ne'

theorem sign_mul_positive (s : Sign) : s * .positive = s := by
  cases s <;> rfl

theorem sign_positive_mul (s : Sign) : .positive * s = s := by
  cases s <;> rfl

theorem unpack_one : ∃ hm, (One.one : Float).toModel.unpack = .finite .positive (2 ^ 52) (-52) hm :=
  ⟨Nat.two_pow_pos 52, rfl⟩

theorem unpacked_mul_one {u : UnpackedFloat} (hu : Canonical u) {h : 0 < 2 ^ 52} :
    UnpackedFloat.mul Format.binary64 u (.finite .positive (2 ^ 52) (-52) h) = u := by
  cases u with
  | infinity s => exact congrArg UnpackedFloat.infinity (sign_mul_positive s)
  | notANumber => rfl
  | zero s => exact congrArg UnpackedFloat.zero (sign_mul_positive s)
  | finite s m e hm =>
      show roundWithAccuracy Format.binary64 (s * .positive) (m * 2 ^ 52) (e + -52) .exact = _
      rw [sign_mul_positive, ← Nat.shiftLeft_eq]
      exact roundWithAccuracy_shiftLeft hu 52

theorem unpacked_one_mul {u : UnpackedFloat} (hu : Canonical u) {h : 0 < 2 ^ 52} :
    UnpackedFloat.mul Format.binary64 (.finite .positive (2 ^ 52) (-52) h) u = u := by
  cases u with
  | infinity s => exact congrArg UnpackedFloat.infinity (sign_positive_mul s)
  | notANumber => rfl
  | zero s => exact congrArg UnpackedFloat.zero (sign_positive_mul s)
  | finite s m e hm =>
      show roundWithAccuracy Format.binary64 (.positive * s) (2 ^ 52 * m) (-52 + e) .exact = _
      rw [sign_positive_mul, Nat.mul_comm, Int.add_comm, ← Nat.shiftLeft_eq]
      exact roundWithAccuracy_shiftLeft hu 52

theorem mul_eq (x y : Float) : x * y = .ofModel (.pack (UnpackedFloat.mul Format.binary64
    x.toModel.unpack y.toModel.unpack)) := rfl

end Binary64

instance : NeutralOne Float where
  mul_one x := by
    obtain ⟨hm, hone⟩ := Binary64.unpack_one
    have hx : Binary64.Canonical x.toModel.unpack := Binary64.canonical_unpack _
    show x * One.one = x
    rw [Binary64.mul_eq, hone, Binary64.unpacked_mul_one hx, Binary64.ofModel_pack_unpack]
  one_mul x := by
    obtain ⟨hm, hone⟩ := Binary64.unpack_one
    have hx : Binary64.Canonical x.toModel.unpack := Binary64.canonical_unpack _
    show One.one * x = x
    rw [Binary64.mul_eq, hone, Binary64.unpacked_one_mul hx, Binary64.ofModel_pack_unpack]

end LinearModel
