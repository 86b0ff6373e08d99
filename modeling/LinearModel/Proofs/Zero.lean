import Mathlib
import LinearModel.Scalar.Binary64

/-!
# Numbers that equal zero

What a sparse list leaves out are the numbers that compare equal to zero. `LawfulNumber` says what
that means: a number equals zero exactly when zero is the value it stands for, whatever its sign,
and two numbers that are equal without being the same are both zero. A value that is no number is
therefore not zero. Floating point is lawful: apart from the two zeros, a bit pattern can be read
back from the sign, mantissa and exponent it unpacks to.
-/

namespace LinearModel

/-- Numbers whose equality is that of the values they stand for, only zero having several forms. -/
class LawfulNumber (α : Type) [Number α] : Prop where
  exact_zero : Number.exact (0 : α) = .finite 0
  beq_zero_iff (x : α) : (x == 0) = true ↔ Number.exact x = .finite 0
  eq_or_zero_of_beq {x y : α} (h : (x == y) = true) :
    x = y ∨ Number.exact x = .finite 0 ∧ Number.exact y = .finite 0

instance : LawfulNumber ExtendedRat where
  exact_zero := rfl
  beq_zero_iff x := by
    cases x with
    | finite q => simp [Number.exact, show (0 : ExtendedRat) = .finite 0 from rfl]
    | _ => exact ⟨fun h => absurd h (by decide), fun h => absurd h (by decide)⟩
  eq_or_zero_of_beq {x y} h := by
    left
    cases x <;> cases y <;> first | rfl | exact absurd h Bool.false_ne_true | simp_all

namespace Binary64

open Float.Model (UnpackedFloat Format)
open Float.Model.UnpackedFloat

def fraction (b : BitVec 64) : BitVec 52 := @unpackMantissa Format.binary64 b

def exponent (b : BitVec 64) : BitVec 11 := @unpackExponent Format.binary64 b

def signBit (b : BitVec 64) : BitVec 1 := @unpackSign Format.binary64 b

theorem toNat_fraction (b : BitVec 64) : (fraction b).toNat = b.toNat % 2 ^ 52 := by
  simp [fraction, unpackMantissa, BitVec.extractLsb, BitVec.extractLsb']

theorem toNat_exponent (b : BitVec 64) : (exponent b).toNat = b.toNat / 2 ^ 52 % 2 ^ 11 := by
  simp [exponent, unpackExponent, BitVec.extractLsb, BitVec.extractLsb', Nat.shiftRight_eq_div_pow]

theorem toNat_signBit (b : BitVec 64) : (signBit b).toNat = b.toNat / 2 ^ 63 % 2 := by
  simp [signBit, unpackSign, BitVec.extractLsb, BitVec.extractLsb', Nat.shiftRight_eq_div_pow]

theorem eq_of_parts {b c : BitVec 64} (hsign : signBit b = signBit c)
    (hexponent : exponent b = exponent c) (hfraction : fraction b = fraction c) : b = c := by
  have hs := congrArg BitVec.toNat hsign
  have he := congrArg BitVec.toNat hexponent
  have hf := congrArg BitVec.toNat hfraction
  rw [toNat_signBit, toNat_signBit] at hs
  rw [toNat_exponent, toNat_exponent] at he
  rw [toNat_fraction, toNat_fraction] at hf
  have hb := b.isLt
  have hc := c.isLt
  apply BitVec.eq_of_toNat_eq
  omega

theorem eq_zero_or_one (s : BitVec 1) : s = 0#1 ∨ s = 1#1 := by
  revert s
  decide

theorem ofBitVec_injective {s t : BitVec 1} (h : Sign.ofBitVec s = Sign.ofBitVec t) : s = t := by
  rcases eq_zero_or_one s with rfl | rfl <;> rcases eq_zero_or_one t with rfl | rfl <;>
    first | rfl | cases h

/-- The four forms that a bit pattern unpacks to, with the parts that make it so. The mantissa of a
finite number tells by its size whether the exponent was zero, which stands for the same power of
two as one does. -/
theorem unpack_cases (b : BitVec 64) :
    (exponent b = -1#11 ∧ fraction b = 0#52 ∧
      unpack Format.binary64 b = .infinity (Sign.ofBitVec (signBit b))) ∨
    (exponent b = -1#11 ∧ fraction b ≠ 0#52 ∧ unpack Format.binary64 b = .notANumber) ∨
    (exponent b = 0#11 ∧ fraction b = 0#52 ∧
      unpack Format.binary64 b = .zero (Sign.ofBitVec (signBit b))) ∨
    ∃ m e hm, unpack Format.binary64 b = .finite (Sign.ofBitVec (signBit b)) m e hm ∧
      (m = (fraction b).toNat ∧ exponent b = 0#11 ∧ e = -1074 ∨
        m = 2 ^ 52 + (fraction b).toNat ∧ exponent b ≠ 0#11 ∧ e = (exponent b).toNat - 1075) := by
  by_cases hinf : exponent b = -1#11
  · by_cases hzero : fraction b = 0#52
    · left
      refine ⟨hinf, hzero, ?_⟩
      unfold unpack
      exact (if_pos hinf).trans (if_pos hzero)
    · right; left
      refine ⟨hinf, hzero, ?_⟩
      unfold unpack
      exact (if_pos hinf).trans (if_neg hzero)
  · right; right
    by_cases hsub : exponent b = 0#11
    · by_cases hzero : fraction b = 0#52
      · left
        refine ⟨hsub, hzero, ?_⟩
        unfold unpack
        exact ((if_neg hinf).trans (if_pos hsub)).trans (dif_pos hzero)
      · right
        have hpos : 0 < (fraction b).toNat :=
          Nat.pos_of_ne_zero fun h => hzero (BitVec.eq_of_toNat_eq h)
        have hexponent : ((exponent b).toNat : Int) - (1023 + 52) + 1 = -1074 := by rw [hsub]; rfl
        unfold unpack
        exact ⟨(fraction b).toNat, _, hpos,
          ((if_neg hinf).trans (if_pos hsub)).trans (dif_neg hzero), .inl ⟨rfl, hsub, hexponent⟩⟩
    · right
      have happend := BitVec.toNat_append 1#1 (fraction b)
      rw [← Nat.shiftLeft_add_eq_or_of_lt (fraction b).isLt] at happend
      have hmantissa : (1#1 ++ fraction b).toNat = 2 ^ 52 + (fraction b).toNat := happend
      have hpos : 0 < (1#1 ++ fraction b).toNat := by omega
      unfold unpack
      exact ⟨(1#1 ++ fraction b).toNat, _, hpos, (if_neg hinf).trans (if_neg hsub),
        .inr ⟨hmantissa, hsub, rfl⟩⟩

theorem eq_of_unpack_eq {b c : BitVec 64} (hb : Format.binary64.Valid b)
    (hc : Format.binary64.Valid c)
    (h : unpack Format.binary64 b = unpack Format.binary64 c) : b = c := by
  have hfb : (fraction b).toNat < 2 ^ 52 := (fraction b).isLt
  have hfc : (fraction c).toNat < 2 ^ 52 := (fraction c).isLt
  rcases unpack_cases b with ⟨heb, hmb, hub⟩ | ⟨heb, hmb, hub⟩ | ⟨heb, hmb, hub⟩ |
      ⟨m, e, hm, hub, hpb⟩ <;>
    rcases unpack_cases c with ⟨hec, hmc, huc⟩ | ⟨hec, hmc, huc⟩ | ⟨hec, hmc, huc⟩ |
      ⟨m', e', hm', huc, hpc⟩ <;>
    rw [hub, huc] at h <;> try cases h
  · exact eq_of_parts (ofBitVec_injective (UnpackedFloat.infinity.inj h)) (heb.trans hec.symm)
      (hmb.trans hmc.symm)
  · exact (hb.eq_packedNaN heb hmb).trans (hc.eq_packedNaN hec hmc).symm
  · exact eq_of_parts (ofBitVec_injective (UnpackedFloat.zero.inj h)) (heb.trans hec.symm)
      (hmb.trans hmc.symm)
  · obtain ⟨hs, rfl, rfl⟩ := UnpackedFloat.finite.inj h
    have hsign := ofBitVec_injective hs
    rcases hpb with ⟨hmb, heb, -⟩ | ⟨hmb, -, heb⟩ <;> rcases hpc with ⟨hmc, hec, -⟩ | ⟨hmc, -, hec⟩
    · exact eq_of_parts hsign (heb.trans hec.symm) (BitVec.eq_of_toNat_eq (hmb.symm.trans hmc))
    · omega
    · omega
    · exact eq_of_parts hsign (BitVec.eq_of_toNat_eq (by omega)) (BitVec.eq_of_toNat_eq (by omega))

theorem unpack_injective {x y : Float} (h : x.toModel.unpack = y.toModel.unpack) : x = y := by
  obtain ⟨⟨⟨b⟩, hb⟩⟩ := x
  obtain ⟨⟨⟨c⟩, hc⟩⟩ := y
  cases eq_of_unpack_eq hb hc h
  rfl

theorem scaled_eq_zero_iff (m e : Int) : scaled m e = 0 ↔ m = 0 := by
  unfold scaled
  split
  · have hpow : (2 : Int) ^ e.toNat ≠ 0 := Int.pow_ne_zero (by decide)
    rw [Rat.intCast_eq_zero_iff, Int.mul_eq_zero]
    simp [hpow]
  · exact Rat.mkRat_eq_zero (Nat.two_pow_pos _).ne'

/-- Zero is what the two zeros stand for, and no other number. -/
theorem exact_eq_zero_iff (x : Float) :
    exact x = .finite 0 ↔ ∃ s, x.toModel.unpack = .zero s := by
  unfold exact
  cases hx : x.toModel.unpack with
  | infinity s => cases s <;> simp
  | notANumber => simp
  | zero s => simp
  | finite s m e hm =>
      have hne : s.apply (m : Int) ≠ 0 := by
        cases s <;> simp [Sign.apply] <;> omega
      simp [scaled_eq_zero_iff, hne]

theorem beq_zero_iff (x : Float) : (x == (Zero.zero : Float)) = true ↔ exact x = .finite 0 := by
  rw [exact_eq_zero_iff]
  show (UnpackedFloat.compare x.toModel.unpack (.zero .positive) == some .eq) = true ↔ _
  cases x.toModel.unpack with
  | infinity s => cases s <;> simp [UnpackedFloat.compare]
  | notANumber => simp [UnpackedFloat.compare]
  | zero s => simp [UnpackedFloat.compare]
  | finite s m e hm => cases s <;> simp [UnpackedFloat.compare]

/-- Forms that compare as equal are the same or both zero. -/
theorem eq_or_zero_of_compare_eq {u v : UnpackedFloat} (h : u.compare v = some .eq) :
    u = v ∨ (∃ s, u = .zero s) ∧ ∃ s, v = .zero s := by
  cases u with
  | infinity s =>
      cases v with
      | infinity t => cases s <;> cases t <;> simp_all [UnpackedFloat.compare, compare]
      | _ => cases s <;> simp [UnpackedFloat.compare] at h
  | notANumber => simp [UnpackedFloat.compare] at h
  | zero s =>
      cases v with
      | zero t => simp
      | infinity t => cases t <;> simp [UnpackedFloat.compare] at h
      | notANumber => simp [UnpackedFloat.compare] at h
      | finite t m e hm => cases t <;> simp [UnpackedFloat.compare] at h
  | finite s m e hm =>
      cases v with
      | finite t m' e' hm' =>
          left
          cases s <;> cases t <;>
            simp_all [UnpackedFloat.compare, Ordering.then_eq_eq]
      | infinity t => cases s <;> cases t <;> simp [UnpackedFloat.compare] at h
      | notANumber => cases s <;> simp [UnpackedFloat.compare] at h
      | zero t => cases s <;> simp [UnpackedFloat.compare] at h

end Binary64

instance : LawfulNumber Float where
  exact_zero := rfl
  beq_zero_iff := Binary64.beq_zero_iff
  eq_or_zero_of_beq {x y} h := by
    have hcompare : x.toModel.unpack.compare y.toModel.unpack = some .eq := eq_of_beq h
    rcases Binary64.eq_or_zero_of_compare_eq hcompare with heq | ⟨hx, hy⟩
    · exact .inl (Binary64.unpack_injective heq)
    · exact .inr ⟨(Binary64.exact_eq_zero_iff x).2 hx, (Binary64.exact_eq_zero_iff y).2 hy⟩

end LinearModel
