import Mathlib
import LinearModel.Proofs.ExactArithmetic
import LinearModel.Proofs.Zero

/-!
# The order of numbers

Numbers are compared by machine instructions, and yet an `OrderedNumber` is compared as the value it
stands for. For floating point this rests on the form that a bit pattern unpacks to: a mantissa is
as long as it can be unless the exponent is the least there is (`Binary64.Canonical`), so that the
larger exponent makes the larger number, and only equal exponents leave it to the mantissas.
-/

namespace LinearModel

/-- Numbers that are compared as the values they stand for, infinities among them. -/
class OrderedNumber (α : Type) [Number α] : Prop extends LawfulNumber α where
  exact_posInf : Number.exact (Number.posInf : α) = .posInf
  exact_negInf : Number.exact (Number.negInf : α) = .negInf
  lt_eq (x y : α) : Number.lt x y = (Number.exact x).lt (Number.exact y)
  le_eq (x y : α) : Number.le x y = (Number.exact x).le (Number.exact y)
  beq_eq (x y : α) : (x == y) = (Number.exact x == Number.exact y)

instance : OrderedNumber ExtendedRat where
  exact_posInf := rfl
  exact_negInf := rfl
  lt_eq _ _ := rfl
  le_eq _ _ := rfl
  beq_eq _ _ := rfl

namespace ExtendedRat

/-- How two values compare; not at all when one is no number. -/
def order : ExtendedRat → ExtendedRat → Option Ordering
  | .nan, _ | _, .nan => none
  | .finite p, .finite q => some (compare p q)
  | .negInf, .negInf | .posInf, .posInf => some .eq
  | .negInf, _ | _, .posInf => some .lt
  | .posInf, _ | _, .negInf => some .gt

theorem lt_eq_order (a b : ExtendedRat) : a.lt b = (a.order b == some .lt) := by
  cases a with
  | finite p =>
      cases b with
      | finite q => rw [Bool.eq_iff_iff]; simp [order, compare_lt_iff_lt]
      | _ => rfl
  | _ => cases b <;> rfl

theorem beq_eq_order (a b : ExtendedRat) : (a == b) = (a.order b == some .eq) := by
  cases a with
  | finite p =>
      cases b with
      | finite q => rw [Bool.eq_iff_iff]; simp [order]
      | _ => rfl
  | _ => cases b <;> rfl

theorem le_eq_order (a b : ExtendedRat) : a.le b = (a.order b).any Ordering.isLE := by
  show (a.lt b || a == b) = _
  rw [lt_eq_order, beq_eq_order]
  rcases a.order b with _ | o
  · rfl
  · cases o <;> rfl

end ExtendedRat

namespace Binary64

open Float.Model (UnpackedFloat Format)
open Float.Model.UnpackedFloat

/-- A finite number has the longest mantissa that its exponent may have, shorter only where the
exponent can be no less. -/
def Canonical : UnpackedFloat → Prop
  | .finite _ m e _ => m < 2 ^ 53 ∧ -1074 ≤ e ∧ (2 ^ 52 ≤ m ∨ e = -1074)
  | _ => True

theorem canonical_unpack (b : BitVec 64) : Canonical (unpack Format.binary64 b) := by
  have hfraction : (fraction b).toNat < 2 ^ 52 := (fraction b).isLt
  rcases unpack_cases b with ⟨-, -, hb⟩ | ⟨-, -, hb⟩ | ⟨-, -, hb⟩ | ⟨m, e, hm, hb, hparts⟩ <;>
    rw [hb]
  · trivial
  · trivial
  · trivial
  · rcases hparts with ⟨hm', -, he⟩ | ⟨hm', hexponent, he⟩
    · exact ⟨by omega, by omega, .inr he⟩
    · have hpos : (exponent b).toNat ≠ 0 := fun h => hexponent (BitVec.eq_of_toNat_eq h)
      exact ⟨by omega, by omega, .inl (by omega)⟩

theorem scaled_eq (m e : Int) : scaled m e = m * 2 ^ e := by
  unfold scaled
  split
  · next he =>
    lift e to Nat using he
    show ((m * 2 ^ e : Int) : Rat) = _
    rw [Int.cast_mul, Int.cast_pow, zpow_natCast]
    rfl
  · next he =>
    obtain ⟨k, rfl⟩ : ∃ k : Nat, e = -k := ⟨(-e).toNat, by omega⟩
    show mkRat m (2 ^ (- -(k : Int)).toNat) = _
    rw [Rat.mkRat_eq_div, neg_neg, Int.toNat_natCast, zpow_neg, zpow_natCast, div_eq_mul_inv]
    norm_num

/-- Of two magnitudes, the one with the larger exponent is the larger. -/
theorem magnitude_lt_of_exponent_lt {m n : Nat} {e f : Int} (hm : m < 2 ^ 53) (hn : 2 ^ 52 ≤ n)
    (hef : e < f) : (m * 2 ^ e : Rat) < n * 2 ^ f := by
  have hm' : (m : Rat) < 2 ^ 53 := by exact_mod_cast hm
  have hn' : (2 ^ 52 : Rat) ≤ n := by exact_mod_cast hn
  calc (m * 2 ^ e : Rat) < 2 ^ 53 * 2 ^ e := by gcongr
    _ = 2 ^ 52 * 2 ^ (e + 1) := by rw [zpow_add_one₀ (by norm_num)]; ring
    _ ≤ 2 ^ 52 * 2 ^ f := by gcongr; norm_num; omega
    _ ≤ n * 2 ^ f := by gcongr

/-- Magnitudes are ordered by exponent first and mantissa second. -/
theorem compare_magnitude {m n : Nat} {e f : Int} {s t : Sign} {hm : 0 < m} {hn : 0 < n}
    (h : Canonical (.finite s m e hm)) (h' : Canonical (.finite t n f hn)) :
    compare (m * 2 ^ e : Rat) (n * 2 ^ f) = (compare e f).then (compare m n) := by
  obtain ⟨hlt, hle, hlong⟩ := h
  obtain ⟨hlt', hle', hlong'⟩ := h'
  rcases lt_trichotomy e f with hef | rfl | hef
  · have hless := magnitude_lt_of_exponent_lt hlt (hlong'.resolve_right (by omega)) hef
    rw [compare_lt_iff_lt.2 hless, compare_lt_iff_lt.2 hef]
    rfl
  · have hpos : (0 : Rat) < 2 ^ e := by positivity
    rw [compare_eq_iff_eq.2 (rfl : e = e), ← cmp_eq_compare, cmp_mul_pos_right hpos,
      Nat.strictMono_cast.cmp_map_eq, cmp_eq_compare]
    rfl
  · have hless := magnitude_lt_of_exponent_lt hlt' (hlong.resolve_right (by omega)) hef
    rw [compare_gt_iff_gt.2 hless, compare_gt_iff_gt.2 hef]
    rfl

theorem compare_neg_neg (p q : Rat) : compare (-p) (-q) = (compare p q).swap := by
  have hneg : StrictAnti fun q : Rat => -q := fun _ _ => neg_lt_neg
  rw [← cmp_eq_compare, ← cmp_eq_compare, cmp_swap]
  exact hneg.cmp_map_eq p q

/-- The value that an unpacked number stands for. -/
def value : UnpackedFloat → ExtendedRat
  | .infinity .positive => .posInf
  | .infinity .negative => .negInf
  | .notANumber => .nan
  | .zero _ => .finite 0
  | .finite sign m e _ => .finite (scaled (sign.apply m) e)

theorem exact_eq_value (x : Float) : exact x = value x.toModel.unpack := rfl

theorem value_positive (m : Nat) (e : Int) (hm : 0 < m) :
    value (.finite .positive m e hm) = .finite (m * 2 ^ e) := by
  simp [value, scaled_eq, Sign.apply]

theorem value_negative (m : Nat) (e : Int) (hm : 0 < m) :
    value (.finite .negative m e hm) = .finite (-(m * 2 ^ e)) := by
  simp [value, scaled_eq, Sign.apply]

/-- Canonical numbers are compared as the values they stand for. -/
theorem compare_eq_order {u v : UnpackedFloat} (hu : Canonical u) (hv : Canonical v) :
    u.compare v = (value u).order (value v) := by
  have hpos (m : Nat) (e : Int) (hm : 0 < m) : (0 : Rat) < m * 2 ^ e := by positivity
  -- The forms and signs decide all pairs but two finite numbers of one sign.
  cases u with
  | notANumber => rfl
  | infinity s =>
      cases v with
      | infinity t => cases s <;> cases t <;> rfl
      | _ => cases s <;> rfl
  | zero s =>
      cases v with
      | infinity t => cases t <;> rfl
      | notANumber => rfl
      | zero t => rfl
      | finite t n f hn =>
          cases t with
          | positive =>
              rw [value_positive]
              exact congrArg some (compare_lt_iff_lt.2 (hpos n f hn)).symm
          | negative =>
              rw [value_negative]
              exact congrArg some (compare_gt_iff_gt.2 (neg_neg_of_pos (hpos n f hn))).symm
  | finite s m e hm =>
      cases v with
      | infinity t => cases s <;> cases t <;> rfl
      | notANumber => cases s <;> rfl
      | zero t =>
          cases s with
          | positive =>
              rw [value_positive]
              exact congrArg some (compare_gt_iff_gt.2 (hpos m e hm)).symm
          | negative =>
              rw [value_negative]
              exact congrArg some (compare_lt_iff_lt.2 (neg_neg_of_pos (hpos m e hm))).symm
      | finite t n f hn =>
          cases s with
          | positive =>
              cases t with
              | positive =>
                  rw [value_positive, value_positive]
                  exact congrArg some (compare_magnitude hu hv).symm
              | negative =>
                  rw [value_positive, value_negative]
                  exact congrArg some (compare_gt_iff_gt.2
                    ((neg_neg_of_pos (hpos n f hn)).trans (hpos m e hm))).symm
          | negative =>
              cases t with
              | positive =>
                  rw [value_negative, value_positive]
                  exact congrArg some (compare_lt_iff_lt.2
                    ((neg_neg_of_pos (hpos m e hm)).trans (hpos n f hn))).symm
              | negative =>
                  rw [value_negative, value_negative]
                  exact congrArg some ((compare_neg_neg _ _).trans
                    (congrArg Ordering.swap (compare_magnitude hu hv))).symm

/-- What a bit pattern unpacks to is canonical, so floating point numbers are compared as the values
they stand for. -/
theorem compare_unpack (x y : Float) :
    x.toModel.unpack.compare y.toModel.unpack = (exact x).order (exact y) := by
  rw [exact_eq_value, exact_eq_value]
  exact compare_eq_order (canonical_unpack _) (canonical_unpack _)

end Binary64

instance : OrderedNumber Float where
  exact_posInf := rfl
  exact_negInf := rfl
  lt_eq x y := by
    have hlt : Number.lt x y = (x.toModel.unpack.compare y.toModel.unpack == some .lt) :=
      Bool.decide_eq_true
    rw [hlt, Binary64.compare_unpack, ExtendedRat.lt_eq_order]
    rfl
  le_eq x y := by
    have hle : Number.le x y = (x.toModel.unpack.compare y.toModel.unpack).any Ordering.isLE :=
      Bool.decide_eq_true
    rw [hle, Binary64.compare_unpack, ExtendedRat.le_eq_order]
    rfl
  beq_eq x y := by
    have hbeq : (x == y) = (x.toModel.unpack.compare y.toModel.unpack == some .eq) := rfl
    rw [hbeq, Binary64.compare_unpack, ExtendedRat.beq_eq_order]
    rfl

end LinearModel
