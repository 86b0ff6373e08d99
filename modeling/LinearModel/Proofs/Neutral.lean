import Mathlib
import LinearModel.Proofs.Order

/-!
# Numbers that a zero leaves alone

Sums and products round, and floating point zero has two forms. What can still be said of the values
that numbers stand for is collected in `NeutralZero`: adding a zero, of either form, changes
nothing, and a product with a zero is what it is without rounding, which is zero for a finite number
and no number for an infinity. Hence arithmetic cannot tell numbers apart that stand for the same
value. For floating point this rests on packing: a bit pattern is packed again to itself
(`Binary64.pack_unpack`).
-/

namespace LinearModel

/-- Numbers whose arithmetic reads no more than the values they stand for. -/
class NeutralZero (α : Type) [Number α] : Prop extends OrderedNumber α where
  eq_or_zero_of_exact_eq {x y : α} (h : Number.exact x = Number.exact y) :
    x = y ∨ Number.exact x = .finite 0
  exact_neg_zero : Number.exact (-0 : α) = .finite 0
  exact_add_zero (x : α) {z : α} (hz : Number.exact z = .finite 0) :
    Number.exact (x + z) = Number.exact x
  exact_zero_add {z : α} (hz : Number.exact z = .finite 0) (x : α) :
    Number.exact (z + x) = Number.exact x
  exact_mul_zero (x : α) {z : α} (hz : Number.exact z = .finite 0) :
    Number.exact (x * z) = Number.exact x * .finite 0
  exact_zero_mul {z : α} (hz : Number.exact z = .finite 0) (x : α) :
    Number.exact (z * x) = .finite 0 * Number.exact x
  exact_zero_sub {y z : α} (hy : Number.exact y = .finite 0) (hz : Number.exact z = .finite 0)
    (x : α) : Number.exact (y - x) = Number.exact (z - x)
  exact_abs_zero {z : α} (hz : Number.exact z = .finite 0) : Number.exact (Number.abs z) = .finite 0

instance : NeutralZero ExtendedRat where
  eq_or_zero_of_exact_eq h := .inl h
  exact_neg_zero := rfl
  exact_add_zero x z hz := by
    cases hz
    exact add_zero x
  exact_zero_add hz x := by
    cases hz
    exact zero_add x
  exact_mul_zero x z hz := by
    cases hz
    rfl
  exact_zero_mul hz x := by
    cases hz
    rfl
  exact_zero_sub hy hz x := by
    cases hy
    cases hz
    rfl
  exact_abs_zero hz := by
    cases hz
    rfl

namespace Binary64

open Float.Model (UnpackedFloat Format)
open Float.Model.UnpackedFloat

section Packing

theorem unpackSign_packComponents {format : Format} {s : Sign}
    {e : BitVec format.exponentBits} {m : BitVec format.mantissaBitsWithoutImplicit} :
    unpackSign (packComponents format s e m) = s.toBitVec := by
  ext i hi
  obtain rfl : i = 0 := by omega
  have hsign : (s.toBitVec ++ e)[format.exponentBits] = s.toBitVec[0] := by
    rw [BitVec.getElem_append]
    simp
  simpa [unpackSign, packComponents, BitVec.getLsbD_append] using hsign

theorem toBitVec_ofBitVec (b : BitVec 1) : (Sign.ofBitVec b).toBitVec = b := by
  rcases eq_zero_or_one b with rfl | rfl <;> rfl

/-- Parts with the sign of a bit pattern make up that pattern once exponent and fraction are its. -/
theorem packComponents_eq {b : BitVec 64} {e : BitVec 11} {m : BitVec 52} (he : exponent b = e)
    (hm : fraction b = m) :
    packComponents Format.binary64 (Sign.ofBitVec (signBit b)) e m = b :=
  eq_of_parts (unpackSign_packComponents.trans (toBitVec_ofBitVec _))
    (unpackExponent_packComponents.trans he.symm) (unpackMantissa_packComponents.trans hm.symm)

/-- The exponent of a finite number is not the one that infinities have. -/
theorem exponent_ne_of_finite {b : BitVec 64} {s : Sign} {m : Nat} {e : Int} {hm : 0 < m}
    (h : unpack Format.binary64 b = .finite s m e hm) : exponent b ≠ -1#11 := by
  intro hinf
  have hform : unpack Format.binary64 b =
      if fraction b = 0#52 then .infinity (Sign.ofBitVec (signBit b)) else .notANumber := by
    unfold unpack
    exact if_pos hinf
  rw [h] at hform
  split at hform <;> cases hform

/-- What is unpacked from a valid bit pattern is packed to that pattern. -/
theorem pack_unpack {b : BitVec 64} (hb : Format.binary64.Valid b) :
    UnpackedFloat.pack Format.binary64 (unpack Format.binary64 b) = b := by
  rcases unpack_cases b with ⟨he, hm, hu⟩ | ⟨he, hm, hu⟩ | ⟨he, hm, hu⟩ | ⟨m, e, hm, hu, hparts⟩ <;>
    rw [hu]
  · exact packComponents_eq he hm
  · exact (hb.eq_packedNaN he hm).symm
  · exact packComponents_eq he hm
  · have hfraction := (fraction b).isLt
    -- Packing takes a number for normal when its mantissa has all 53 bits.
    show (if 2 ^ 11 ≤ (e + 1023 + 52).toNat + 1 then _ else if m.log2 + 1 = 53 then
      packComponents Format.binary64 _ (BitVec.ofNat 11 (e + 1023 + 52).toNat) (BitVec.ofNat 52 m)
      else packComponents Format.binary64 _ 0#11 (BitVec.ofNat 52 m)) = b
    rcases hparts with ⟨hm', he, he'⟩ | ⟨hm', he, he'⟩
    · have hlog : ¬ m.log2 + 1 = 53 := by
        have := (Nat.log2_lt hm.ne').2 (show m < 2 ^ 52 by omega)
        omega
      have hbiased : (e + 1023 + 52).toNat = 1 := by omega
      rw [hbiased, if_neg (by norm_num), if_neg hlog]
      apply packComponents_eq he
      rw [hm', BitVec.ofNat_toNat, BitVec.setWidth_eq]
    · have hlog : m.log2 + 1 = 53 := by
        have := (Nat.log2_lt hm.ne').2 (show m < 2 ^ 53 by omega)
        have := (Nat.le_log2 hm.ne').2 (show 2 ^ 52 ≤ m by omega)
        omega
      have hbiased : (e + 1023 + 52).toNat = (exponent b).toNat := by omega
      have hle : ¬ 2 ^ 11 ≤ (exponent b).toNat + 1 := fun hle =>
        exponent_ne_of_finite hu (BitVec.eq_of_toNat_eq (by
          have := (exponent b).isLt
          simp
          omega))
      rw [hbiased, if_neg hle, if_pos hlog]
      apply packComponents_eq
      · rw [BitVec.ofNat_toNat, BitVec.setWidth_eq]
      · apply BitVec.eq_of_toNat_eq
        rw [BitVec.toNat_ofNat]
        omega

theorem ofModel_pack_unpack (x : Float) : .ofModel (.pack x.toModel.unpack) = x := by
  obtain ⟨⟨⟨b⟩, hb⟩⟩ := x
  apply unpack_injective
  show unpack Format.binary64 (UnpackedFloat.pack Format.binary64 (unpack Format.binary64 b)) =
    unpack Format.binary64 b
  rw [pack_unpack hb]

end Packing

theorem exact_pack_zero (s : Sign) : exact (.ofModel (.pack (.zero s))) = .finite 0 := by
  cases s <;> rfl

theorem exact_pack_nan : exact (.ofModel (.pack .notANumber)) = .nan := rfl

/-- Adding a zero gives the other number, or a zero when that is one. -/
theorem add_zero_cases (u : UnpackedFloat) (s : Sign) :
    UnpackedFloat.add Format.binary64 u (.zero s) = u ∨
      (∃ t, u = .zero t) ∧ ∃ t, UnpackedFloat.add Format.binary64 u (.zero s) = .zero t := by
  cases u with
  | zero t => cases s <;> cases t <;> exact .inr ⟨⟨_, rfl⟩, _, rfl⟩
  | _ => exact .inl rfl

theorem zero_add_cases (s : Sign) (u : UnpackedFloat) :
    UnpackedFloat.add Format.binary64 (.zero s) u = u ∨
      (∃ t, u = .zero t) ∧ ∃ t, UnpackedFloat.add Format.binary64 (.zero s) u = .zero t := by
  cases u with
  | zero t => cases s <;> cases t <;> exact .inr ⟨⟨_, rfl⟩, _, rfl⟩
  | _ => exact .inl rfl

/-- What stays the same or is a zero in both places stands for one value. -/
theorem exact_pack_of_cases {x : Float} {u : UnpackedFloat}
    (h : u = x.toModel.unpack ∨ (∃ t, x.toModel.unpack = .zero t) ∧ ∃ t, u = .zero t) :
    exact (.ofModel (.pack u)) = exact x := by
  rcases h with rfl | ⟨hx, t, rfl⟩
  · rw [ofModel_pack_unpack]
  · rw [exact_pack_zero, (exact_eq_zero_iff x).2 hx]

theorem exact_add_zero (x : Float) {z : Float} (hz : exact z = .finite 0) :
    exact (x + z) = exact x := by
  obtain ⟨s, hs⟩ := (exact_eq_zero_iff z).1 hz
  have hsum : x + z = .ofModel (.pack (UnpackedFloat.add Format.binary64 x.toModel.unpack
    z.toModel.unpack)) := rfl
  rw [hsum, hs]
  exact exact_pack_of_cases (add_zero_cases _ s)

theorem exact_zero_add {z : Float} (hz : exact z = .finite 0) (x : Float) :
    exact (z + x) = exact x := by
  obtain ⟨s, hs⟩ := (exact_eq_zero_iff z).1 hz
  have hsum : z + x = .ofModel (.pack (UnpackedFloat.add Format.binary64 z.toModel.unpack
    x.toModel.unpack)) := rfl
  rw [hsum, hs]
  exact exact_pack_of_cases (zero_add_cases s _)

theorem exact_mul_zero (x : Float) {z : Float} (hz : exact z = .finite 0) :
    exact (x * z) = exact x * .finite 0 := by
  obtain ⟨s, hs⟩ := (exact_eq_zero_iff z).1 hz
  have hproduct : x * z = .ofModel (.pack (UnpackedFloat.mul Format.binary64 x.toModel.unpack
    z.toModel.unpack)) := rfl
  rw [hproduct, hs, exact_eq_value x]
  cases x.toModel.unpack with
  | infinity t => cases t <;> exact exact_pack_nan
  | notANumber => exact exact_pack_nan
  | zero t => exact (exact_pack_zero _).trans (congrArg ExtendedRat.finite (Rat.mul_zero _).symm)
  | finite t m e hm =>
      exact (exact_pack_zero _).trans (congrArg ExtendedRat.finite (Rat.mul_zero _).symm)

theorem exact_zero_mul {z : Float} (hz : exact z = .finite 0) (x : Float) :
    exact (z * x) = .finite 0 * exact x := by
  obtain ⟨s, hs⟩ := (exact_eq_zero_iff z).1 hz
  have hproduct : z * x = .ofModel (.pack (UnpackedFloat.mul Format.binary64 z.toModel.unpack
    x.toModel.unpack)) := rfl
  rw [hproduct, hs, exact_eq_value x]
  cases x.toModel.unpack with
  | infinity t => cases t <;> exact exact_pack_nan
  | notANumber => exact exact_pack_nan
  | zero t => exact (exact_pack_zero _).trans (congrArg ExtendedRat.finite (Rat.zero_mul _).symm)
  | finite t m e hm =>
      exact (exact_pack_zero _).trans (congrArg ExtendedRat.finite (Rat.zero_mul _).symm)

theorem exact_zero_sub {y z : Float} (hy : exact y = .finite 0) (hz : exact z = .finite 0)
    (x : Float) : exact (y - x) = exact (z - x) := by
  obtain ⟨s, hs⟩ := (exact_eq_zero_iff y).1 hy
  obtain ⟨t, ht⟩ := (exact_eq_zero_iff z).1 hz
  have hdifference (a : Float) : a - x = .ofModel (.pack (UnpackedFloat.sub Format.binary64
    a.toModel.unpack x.toModel.unpack)) := rfl
  rw [hdifference, hdifference, hs, ht]
  cases x.toModel.unpack with
  | zero r => cases s <;> cases t <;> cases r <;> rfl
  | _ => rfl

theorem exact_abs_zero {z : Float} (hz : exact z = .finite 0) : exact z.abs = .finite 0 := by
  obtain ⟨s, hs⟩ := (exact_eq_zero_iff z).1 hz
  have habs : z.abs = .ofModel (.pack z.toModel.unpack.abs) := rfl
  rw [habs, hs]
  exact exact_pack_zero _

theorem exact_eq_nan_iff (x : Float) : exact x = .nan ↔ x.toModel.unpack = .notANumber := by
  rw [exact_eq_value]
  cases x.toModel.unpack with
  | infinity s => cases s <;> simp [value]
  | _ => simp [value]

theorem eq_or_zero_of_exact_eq {x y : Float} (h : exact x = exact y) :
    x = y ∨ exact x = .finite 0 := by
  by_cases hnan : exact x = .nan
  · have hx := (exact_eq_nan_iff x).1 hnan
    have hy := (exact_eq_nan_iff y).1 (h ▸ hnan)
    exact .inl (unpack_injective (hx.trans hy.symm))
  · have hbeq : (x == y) = true := by
      rw [OrderedNumber.beq_eq]
      show (exact x == exact y) = true
      rw [← h]
      cases hx : exact x with
      | nan => exact absurd hx hnan
      | finite q => simp
      | _ => rfl
    exact (LawfulNumber.eq_or_zero_of_beq hbeq).imp id And.left

end Binary64

instance : NeutralZero Float where
  eq_or_zero_of_exact_eq := Binary64.eq_or_zero_of_exact_eq
  exact_neg_zero := rfl
  exact_add_zero := Binary64.exact_add_zero
  exact_zero_add := Binary64.exact_zero_add
  exact_mul_zero := Binary64.exact_mul_zero
  exact_zero_mul := Binary64.exact_zero_mul
  exact_zero_sub := Binary64.exact_zero_sub
  exact_abs_zero := Binary64.exact_abs_zero

end LinearModel
