import Mathlib
import LinearModel.Proofs.Neutral

/-!
# Rounding passes no number

A sum of floating point numbers is the sum of the values they stand for, rounded. To round is to cut
the mantissa off at a grid, the coarsest that a mantissa of 53 bits allows, and to take one of the
two neighbours there. Numbers that are large enough lie on that grid and all smaller ones below it,
so that no number lies strictly between a value and what it is rounded to (`Binary64.Rounds`). A
number on one side of an exact sum is therefore on the same side of the rounded sum, whether or not
that overflows (`Binary64.add_between`), and a difference is the sum with the opposite number.
-/

namespace LinearModel

theorem ExtendedRat.neg_le_neg (a b : ExtendedRat) : -a ≤ -b ↔ b ≤ a := by
  cases a with
  | finite p =>
      cases b with
      | finite q => simp
      | _ => exact Iff.rfl
  | _ => cases b <;> exact Iff.rfl

namespace Binary64

open Float.Model (UnpackedFloat Format totalExponent)
open Float.Model.UnpackedFloat

section Packing

/-- The largest exponent that a number can have, one that is counted from the last bit of the
mantissa. -/
def greatestExponent : Int := 971

/-- The form is that of a number: canonical, and not too large. -/
def Packable : UnpackedFloat → Prop
  | .finite s m e hm => Canonical (.finite s m e hm) ∧ e ≤ greatestExponent
  | _ => True

theorem packable_unpack (x : Float) : Packable x.toModel.unpack := by
  obtain ⟨⟨⟨b⟩, hb⟩⟩ := x
  show Packable (unpack Format.binary64 b)
  have hcanonical := canonical_unpack b
  cases hu : unpack Format.binary64 b with
  | finite s m e hm =>
      refine ⟨hu ▸ hcanonical, ?_⟩
      have hne : exponent b ≠ -1#11 := exponent_ne_of_finite hu
      have hlt : (exponent b).toNat < 2 ^ 11 := (exponent b).isLt
      have hne' : (exponent b).toNat ≠ 2047 := fun h => hne (BitVec.eq_of_toNat_eq h)
      rcases unpack_cases b with ⟨-, -, h⟩ | ⟨-, -, h⟩ | ⟨-, -, h⟩ | ⟨m', e', hm', h, hparts⟩ <;>
        rw [hu] at h <;> cases h
      rcases hparts with ⟨-, -, he⟩ | ⟨-, -, he⟩ <;> rw [greatestExponent] <;> omega
  | _ => trivial

theorem ofBitVec_toBitVec (s : Sign) : Sign.ofBitVec s.toBitVec = s := by
  cases s <;> rfl

/-- Parts that those of a finite number can be are unpacked to that number. -/
theorem unpack_packComponents {s : Sign} {E : BitVec 11} {M : BitVec 52} {m : Nat} {e : Int}
    {hm : 0 < m} (hE : E ≠ -1#11)
    (hparts : m = M.toNat ∧ E = 0#11 ∧ e = -1074 ∨
      m = 2 ^ 52 + M.toNat ∧ E ≠ 0#11 ∧ e = E.toNat - 1075) :
    unpack Format.binary64 (packComponents Format.binary64 s E M) = .finite s m e hm := by
  have hexponent : exponent (packComponents Format.binary64 s E M) = E :=
    unpackExponent_packComponents
  have hfraction : fraction (packComponents Format.binary64 s E M) = M :=
    unpackMantissa_packComponents
  have hsign : Sign.ofBitVec (signBit (packComponents Format.binary64 s E M)) = s :=
    (congrArg Sign.ofBitVec unpackSign_packComponents).trans (ofBitVec_toBitVec s)
  rcases unpack_cases (packComponents Format.binary64 s E M) with
    ⟨h, -, -⟩ | ⟨h, -, -⟩ | ⟨h, h', -⟩ | ⟨m', e', hm', hunpack, hparts'⟩
  · exact absurd (hexponent.symm.trans h) hE
  · exact absurd (hexponent.symm.trans h) hE
  · have hzero : M.toNat = 0 := congrArg BitVec.toNat (hfraction.symm.trans h')
    rcases hparts with ⟨hm', -, -⟩ | ⟨-, hE', -⟩
    · omega
    · exact absurd (hexponent.symm.trans h) hE'
  · rw [hexponent, hfraction] at hparts'
    rw [hunpack, hsign]
    obtain ⟨rfl, rfl⟩ : m' = m ∧ e' = e := by
      rcases hparts with ⟨h, hE', h'⟩ | ⟨h, hE', h'⟩ <;>
        rcases hparts' with ⟨k, kE, k'⟩ | ⟨k, kE, k'⟩
      · exact ⟨k.trans h.symm, k'.trans h'.symm⟩
      · exact absurd hE' kE
      · exact absurd kE hE'
      · exact ⟨k.trans h.symm, k'.trans h'.symm⟩
    rfl

/-- What is packed from the form of a number is unpacked to that form. -/
theorem unpack_pack {s : Sign} {m : Nat} {e : Int} {hm : 0 < m}
    (h : Packable (.finite s m e hm)) :
    unpack Format.binary64 (pack Format.binary64 (.finite s m e hm)) = .finite s m e hm := by
  obtain ⟨⟨hlt, hle, hlong⟩, hfits⟩ := h
  rw [greatestExponent] at hfits
  have hbiased : ¬ 2 ^ 11 ≤ (e + 1023 + 52).toNat + 1 := by omega
  have hpack : pack Format.binary64 (.finite s m e hm) =
      if m.log2 + 1 = 53 then
        packComponents Format.binary64 s (BitVec.ofNat 11 (e + 1023 + 52).toNat) (BitVec.ofNat 52 m)
      else packComponents Format.binary64 s 0#11 (BitVec.ofNat 52 m) := if_neg hbiased
  rw [hpack]
  by_cases hm' : m < 2 ^ 52
  · have hlog := (Nat.log2_lt hm.ne').2 hm'
    rw [if_neg (by omega)]
    refine unpack_packComponents (by decide) (.inl ⟨?_, rfl, by omega⟩)
    rw [BitVec.toNat_ofNat, Nat.mod_eq_of_lt hm']
  · have hlog : m.log2 = 52 := by
      have := (Nat.log2_lt hm.ne').2 hlt
      have := (Nat.le_log2 hm.ne').2 (not_lt.1 hm')
      omega
    have hE : (BitVec.ofNat 11 (e + 1023 + 52).toNat).toNat = (e + 1023 + 52).toNat := by
      rw [BitVec.toNat_ofNat, Nat.mod_eq_of_lt (by omega)]
    rw [if_pos (by omega)]
    refine unpack_packComponents ?_ (.inr ⟨?_, ?_, by omega⟩)
    · intro h
      have h' := congrArg BitVec.toNat h
      rw [hE] at h'
      have : (-1#11).toNat = 2047 := rfl
      omega
    · rw [BitVec.toNat_ofNat]
      omega
    · intro h
      have h' := congrArg BitVec.toNat h
      rw [hE] at h'
      have : (0#11).toNat = 0 := rfl
      omega

theorem exact_pack_of_packable {u : UnpackedFloat} (h : Packable u) :
    exact (.ofModel (.pack u)) = value u := by
  cases u with
  | finite s m e hm => exact congrArg value (unpack_pack h)
  | infinity s => cases s <;> rfl
  | notANumber => rfl
  | zero s => cases s <;> rfl

/-- A number that is too large is packed as an infinity. -/
theorem exact_pack_of_lt (s : Sign) {m : Nat} {e : Int} (hm : 0 < m) (he : greatestExponent < e) :
    exact (.ofModel (.pack (.finite s m e hm))) = value (.infinity s) := by
  rw [greatestExponent] at he
  have hbiased : 2 ^ 11 ≤ (e + 1023 + 52).toNat + 1 := by omega
  have hpack : pack Format.binary64 (.finite s m e hm) = packedInfinity Format.binary64 s :=
    if_pos hbiased
  show value (unpack Format.binary64 (pack Format.binary64 (.finite s m e hm))) = _
  rw [hpack]
  cases s <;> rfl

end Packing

section Grid

/-- Some mantissa of 53 bits, or a shorter one, has this magnitude at an exponent that is not too
small; the exponent may be too large. -/
def Magnitude (v : Rat) : Prop :=
  ∃ (n : Nat) (f : Int), v = n * 2 ^ f ∧ n < 2 ^ 53 ∧ -1074 ≤ f

/-- The exponent at which the magnitude `m * 2 ^ e` has a mantissa of 53 bits, or the least there
is. -/
def grid (m : Nat) (e : Int) : Int := max (m.log2 + e - 52) (-1074)

theorem targetExponent_eq (m : Nat) (e : Int) :
    Format.binary64.targetExponent (totalExponent m e) = grid m e := by
  have hmantissa : Format.binary64.mantissaBits = 53 := rfl
  have hleast : Format.binary64.minExponent = -1074 := rfl
  rw [Format.targetExponent, totalExponent, hmantissa, hleast, grid]
  congr 1
  push_cast
  ring

theorem le_grid (m : Nat) (e : Int) : -1074 ≤ grid m e := le_max_right _ _

variable {m r k : Nat} {e : Int} {v : Rat}

theorem two_zpow_pos (e : Int) : (0 : Rat) < 2 ^ e := by positivity

theorem lt_two_pow_grid (hk : e + k = grid m e) : m < 2 ^ (53 + k) := by
  have hle : m.log2 + 1 ≤ 53 + k := by
    have := le_max_left ((m.log2 : Int) + e - 52) (-1074)
    rw [grid] at hk
    omega
  exact Nat.lt_log2_self.trans_le (Nat.pow_le_pow_right Nat.two_pos hle)

/-- The mantissa has all its bits on the grid, unless that is the finest there is. -/
theorem grid_cases (hm : 0 < m) (hk : e + k = grid m e) : grid m e = -1074 ∨ 2 ^ (52 + k) ≤ m := by
  by_cases hgrid : grid m e = -1074
  · exact .inl hgrid
  · have hlog : m.log2 = 52 + k := by
      rw [grid] at hk hgrid
      omega
    exact .inr (hlog ▸ Nat.log2_self_le hm.ne')

/-- A number lies on a grid, unless it is too small for it. -/
theorem Magnitude.cases (hv : Magnitude v) (t : Int) :
    (∃ n : Nat, v = n * 2 ^ t) ∨ t ≠ -1074 ∧ v < 2 ^ 52 * 2 ^ t := by
  obtain ⟨n, f, rfl, hn, hf⟩ := hv
  rcases le_or_gt t f with htf | htf
  · left
    obtain ⟨j, rfl⟩ := Int.le.dest htf
    refine ⟨n * 2 ^ j, ?_⟩
    rw [zpow_add₀ two_ne_zero, zpow_natCast]
    push_cast
    ring
  · right
    refine ⟨by omega, ?_⟩
    exact_mod_cast magnitude_lt_of_exponent_lt hn le_rfl htf

/-- A number that is not above a magnitude is not above what is cut off it. -/
theorem Magnitude.le_cut (hv : Magnitude v) (hk : e + k = grid m e)
    (hm : grid m e = -1074 ∨ 2 ^ (52 + k) ≤ m) (h : v ≤ m * 2 ^ e) :
    v ≤ (m / 2 ^ k : Nat) * 2 ^ grid m e := by
  have hpow : (2 : Rat) ^ grid m e = 2 ^ k * 2 ^ e := by
    rw [← hk, zpow_add₀ two_ne_zero, zpow_natCast, mul_comm]
  rcases hv.cases (grid m e) with ⟨n, rfl⟩ | ⟨hgrid, hlt⟩
  · rw [hpow, ← mul_assoc, mul_le_mul_iff_of_pos_right (two_zpow_pos e)] at h
    have hle : n * 2 ^ k ≤ m := by exact_mod_cast h
    have hle' : n ≤ m / 2 ^ k := (Nat.le_div_iff_mul_le (by positivity)).2 hle
    gcongr
  · have hle : 2 ^ 52 ≤ m / 2 ^ k := by
      rw [Nat.le_div_iff_mul_le (by positivity), ← Nat.pow_add]
      exact hm.resolve_left hgrid
    refine hlt.le.trans ?_
    gcongr
    exact_mod_cast hle

/-- A number that is not below a magnitude is not below the next point of the grid. -/
theorem Magnitude.ceil_le (hv : Magnitude v) (hk : e + k = grid m e)
    (hm : grid m e = -1074 ∨ 2 ^ (52 + k) ≤ m) (hr : r * 2 ^ k < m + 2 ^ k)
    (h : m * 2 ^ e ≤ v) : r * 2 ^ grid m e ≤ v := by
  have hpow : (2 : Rat) ^ grid m e = 2 ^ k * 2 ^ e := by
    rw [← hk, zpow_add₀ two_ne_zero, zpow_natCast, mul_comm]
  rcases hv.cases (grid m e) with ⟨n, rfl⟩ | ⟨hgrid, hlt⟩
  · rw [hpow, ← mul_assoc, mul_le_mul_iff_of_pos_right (two_zpow_pos e)] at h
    have hle : m ≤ n * 2 ^ k := by exact_mod_cast h
    have hlt : r * 2 ^ k < (n + 1) * 2 ^ k := by
      rw [Nat.add_mul, Nat.one_mul]
      omega
    have hle' : r ≤ n := Nat.lt_succ_iff.1 (Nat.lt_of_mul_lt_mul_right hlt)
    gcongr
  · have hle : 2 ^ (52 + k) ≤ m := hm.resolve_left hgrid
    rw [hpow, ← mul_assoc, ← pow_add] at hlt
    have hle' : (2 ^ (52 + k) * 2 ^ e : Rat) ≤ m * 2 ^ e := by
      gcongr
      exact_mod_cast hle
    exact absurd (hle'.trans h) hlt.not_ge

end Grid

section Cut

theorem shiftRight_succ (em : ExtendedMantissa) (k : Nat) :
    em >>> (k + 1) = (em >>> k).shiftRightOne := rfl

theorem mantissa_shiftRight (em : ExtendedMantissa) (k : Nat) :
    (em >>> k).mantissa = em.mantissa / 2 ^ k := by
  induction k with
  | zero => exact (Nat.div_one _).symm
  | succ k ih =>
      show (em >>> k).mantissa / 2 = _
      rw [ih, Nat.div_div_eq_div_mul, Nat.pow_succ]

/-- An exact mantissa that ends in zeros leaves no bit behind when they are cut off. -/
theorem bits_shiftRight {m k : Nat} (h : m % 2 ^ k = 0) :
    (ExtendedMantissa.ofMantissaAndAccuracy m .exact >>> k).roundBit = false ∧
      (ExtendedMantissa.ofMantissaAndAccuracy m .exact >>> k).stickyBit = false := by
  induction k with
  | zero => exact ⟨rfl, rfl⟩
  | succ k ih =>
      rw [Nat.pow_succ, Nat.mod_mul] at h
      have hbit : m / 2 ^ k % 2 = 0 :=
        (Nat.mul_eq_zero.1 (Nat.eq_zero_of_add_eq_zero_left h)).resolve_left
          (Nat.two_pow_pos k).ne'
      obtain ⟨hround, hsticky⟩ := ih (Nat.eq_zero_of_add_eq_zero_right h)
      rw [shiftRight_succ]
      constructor
      · show ((ExtendedMantissa.ofMantissaAndAccuracy m .exact >>> k).mantissa % 2 != 0) = false
        rw [mantissa_shiftRight, bne_eq_false_iff_eq]
        exact hbit
      · show (_ || _) = false
        rw [hround, hsticky]
        rfl

theorem roundedMantissa_cases (em : ExtendedMantissa) :
    em.roundedMantissa = em.mantissa ∨ em.roundedMantissa = em.mantissa + 1 ∧
      ¬ (em.roundBit = false ∧ em.stickyBit = false) := by
  obtain ⟨m, roundBit, stickyBit⟩ := em
  have hmod := Nat.mod_two_eq_zero_or_one m
  cases roundBit <;> cases stickyBit
  · exact .inl rfl
  · exact .inl rfl
  · show m + m % 2 = m ∨ m + m % 2 = m + 1 ∧ _
    rcases hmod with hmod | hmod <;> rw [hmod]
    · exact .inl rfl
    · exact .inr ⟨rfl, by simp⟩
  · exact .inr ⟨rfl, by simp⟩

/-- An exact mantissa, cut and rounded, stays between the two neighbours on the grid. -/
theorem roundedMantissa_between (m k : Nat) :
    m / 2 ^ k ≤ (ExtendedMantissa.ofMantissaAndAccuracy m .exact >>> k).roundedMantissa ∧
      (ExtendedMantissa.ofMantissaAndAccuracy m .exact >>> k).roundedMantissa * 2 ^ k <
        m + 2 ^ k := by
  have hpos : 0 < 2 ^ k := Nat.two_pow_pos k
  have hdivision := Nat.div_add_mod m (2 ^ k)
  have hcut : (ExtendedMantissa.ofMantissaAndAccuracy m .exact >>> k).mantissa = m / 2 ^ k :=
    mantissa_shiftRight _ k
  rcases roundedMantissa_cases (ExtendedMantissa.ofMantissaAndAccuracy m .exact >>> k) with
    h | ⟨h, hbits⟩
  · rw [h, hcut, Nat.mul_comm]
    exact ⟨le_rfl, by omega⟩
  · have hmod : m % 2 ^ k ≠ 0 := fun hmod => hbits (bits_shiftRight hmod)
    rw [h, hcut, Nat.add_mul, Nat.mul_comm]
    exact ⟨Nat.le_succ _, by omega⟩

end Cut

section Round

/-- The magnitude `m * 2 ^ e` may be rounded to `n * 2 ^ f`: that is in the form of a number, and no
number lies strictly between the two. -/
structure Rounds (m : Nat) (e : Int) (n : Nat) (f : Int) : Prop where
  lt : n < 2 ^ 53
  le : -1074 ≤ f
  long : 2 ^ 52 ≤ n ∨ f = -1074
  below : ∀ v, Magnitude v → v ≤ m * 2 ^ e → v ≤ n * 2 ^ f
  above : ∀ v, Magnitude v → m * 2 ^ e ≤ v → n * 2 ^ f ≤ v

/-- Rounded up, a mantissa may have become too long; it is cut once more, and the grid it is cut at
is no finer. -/
theorem rounds_of_steps {m r k k' : Nat} {e : Int} (hm : 0 < m) (hk : e + k = grid m e)
    (hcut : m / 2 ^ k ≤ r) (hceil : r * 2 ^ k < m + 2 ^ k)
    (hk' : k' = (grid r (grid m e) - grid m e).toNat) :
    Rounds m e (r / 2 ^ k') (grid m e + k') := by
  have hfirst := grid_cases hm hk
  have hlong : grid m e = -1074 ∨ 2 ^ 52 ≤ r := by
    refine hfirst.imp_right fun hle => le_trans ?_ hcut
    rwa [Nat.le_div_iff_mul_le (by positivity), ← Nat.pow_add]
  have hcoarser : grid m e ≤ grid r (grid m e) := by
    rcases hlong with hgrid | hlong
    · exact hgrid ▸ le_grid r _
    · have hlog := (Nat.le_log2 (by omega)).2 hlong
      refine le_trans ?_ (le_max_left _ _)
      omega
  have hsecond : grid m e + k' = grid r (grid m e) := by omega
  have hagain : grid r (grid m e) = -1074 ∨ 2 ^ (52 + k') ≤ r := by
    rcases Nat.eq_zero_or_pos r with rfl | hr
    · rw [hlong.resolve_right (by norm_num)]
      exact .inl (by decide)
    · exact grid_cases hr hsecond
  refine ⟨?_, hsecond ▸ le_grid r _, ?_, ?_, ?_⟩
  · rw [Nat.div_lt_iff_lt_mul (by positivity), ← Nat.pow_add]
    exact lt_two_pow_grid hsecond
  · rw [Nat.le_div_iff_mul_le (by positivity), ← Nat.pow_add, hsecond]
    exact hagain.symm
  · intro v hv h
    rw [hsecond]
    refine hv.le_cut hsecond hagain ((hv.le_cut hk hfirst h).trans ?_)
    gcongr
  · intro v hv h
    refine le_trans ?_ (hv.ceil_le hk hfirst hceil h)
    have hle : r / 2 ^ k' * 2 ^ k' ≤ r := Nat.div_mul_le_self r _
    calc ((r / 2 ^ k' : Nat) * 2 ^ (grid m e + k') : Rat)
        = (r / 2 ^ k' * 2 ^ k' : Nat) * 2 ^ grid m e := by
          rw [zpow_add₀ two_ne_zero, zpow_natCast]
          push_cast
          ring
      _ ≤ r * 2 ^ grid m e := by gcongr

theorem log2_shiftLeft {m : Nat} (hm : 0 < m) (j : Nat) : (m <<< j).log2 = m.log2 + j := by
  rw [Nat.shiftLeft_eq, Nat.log2_eq_iff (Nat.mul_pos hm (Nat.two_pow_pos j)).ne']
  have hpos := Nat.two_pow_pos j
  constructor
  · rw [Nat.pow_add]
    exact Nat.mul_le_mul_right _ (Nat.log2_self_le hm.ne')
  · rw [Nat.add_right_comm, Nat.pow_add]
    exact Nat.mul_lt_mul_of_pos_right Nat.lt_log2_self hpos

/-- A longer mantissa with a smaller exponent is the same magnitude. -/
theorem shiftLeft_mul_zpow (m j : Nat) (e : Int) :
    ((m <<< j : Nat) * 2 ^ (e - j) : Rat) = m * 2 ^ e := by
  rw [Nat.shiftLeft_eq, zpow_sub₀ two_ne_zero, zpow_natCast]
  push_cast
  field_simp

theorem grid_shiftLeft {m : Nat} (hm : 0 < m) (j : Nat) (e : Int) :
    grid (m <<< j) (e - j) = grid m e := by
  rw [grid, grid, log2_shiftLeft hm]
  congr 1
  push_cast
  ring

/-- What `round` gives is a magnitude that may be rounded to, with the sign. -/
theorem exists_rounds (s : Sign) {m : Nat} (e : Int) (hm : 0 < m) :
    ∃ n f, Rounds m e n f ∧ UnpackedFloat.round Format.binary64 s m e =
      if h : n = 0 then .zero s else .finite s n f (Nat.pos_of_ne_zero h) := by
  obtain ⟨j, hj⟩ : ∃ j, j = (e - grid m e).toNat := ⟨_, rfl⟩
  obtain ⟨k, hk⟩ : ∃ k, k = (grid m e - (e - j)).toNat := ⟨_, rfl⟩
  obtain ⟨r, hr⟩ : ∃ r, r =
    (ExtendedMantissa.ofMantissaAndAccuracy (m <<< j) .exact >>> k).roundedMantissa := ⟨_, rfl⟩
  obtain ⟨k', hk'⟩ : ∃ k', k' = (grid r (grid m e) - grid m e).toNat := ⟨_, rfl⟩
  have hgrid : grid (m <<< j) (e - j) = grid m e := grid_shiftLeft hm j e
  have hreach : e - j + k = grid m e := by omega
  obtain ⟨hcut, hceil⟩ := roundedMantissa_between (m <<< j) k
  rw [← hr] at hcut hceil
  have hshifted : Rounds (m <<< j) (e - j) (r / 2 ^ k') (grid m e + k') := by
    rw [← hgrid]
    refine rounds_of_steps ?_ (hreach.trans hgrid.symm) hcut hceil (by rw [hgrid]; exact hk')
    rw [Nat.shiftLeft_eq]
    positivity
  refine ⟨r / 2 ^ k', grid m e + k', ⟨hshifted.lt, hshifted.le, hshifted.long, ?_, ?_⟩, ?_⟩
  · intro v hv h
    exact hshifted.below v hv (by rwa [shiftLeft_mul_zpow])
  · intro v hv h
    exact hshifted.above v hv (by rwa [shiftLeft_mul_zpow])
  · have hmantissa : (ExtendedMantissa.ofMantissaAndAccuracy r .exact >>> k').mantissa =
        r / 2 ^ k' := mantissa_shiftRight _ k'
    simp only [UnpackedFloat.round, decreaseExponent, roundWithAccuracy, shiftToTargetExponent,
      shiftToExponent, targetExponent_eq]
    simp only [← hj, hgrid, ← hk, ← hr, hreach, ← hk', hmantissa]

end Round

section Sum

/-- Some number has this value. -/
structure Represented (q : Rat) : Prop where
  magnitude : Magnitude |q|
  lt : |q| < 2 ^ 53 * 2 ^ greatestExponent

theorem Represented.neg {q : Rat} (h : Represented q) : Represented (-q) := by
  obtain ⟨hmagnitude, hlt⟩ := h
  exact ⟨by rwa [abs_neg], by rwa [abs_neg]⟩

theorem value_finite (s : Sign) (m : Nat) (e : Int) (hm : 0 < m) :
    value (.finite s m e hm) = .finite ((s.apply m : Int) * 2 ^ e) :=
  congrArg ExtendedRat.finite (scaled_eq _ e)

theorem abs_apply (s : Sign) (m : Nat) (e : Int) :
    |((s.apply m : Int) * 2 ^ e : Rat)| = m * 2 ^ e := by
  have hnonneg : (0 : Rat) ≤ m * 2 ^ e := by positivity
  cases s with
  | positive => exact abs_of_nonneg (by simpa [Sign.apply] using hnonneg)
  | negative =>
      rw [Sign.apply, Int.cast_neg, neg_mul, abs_neg]
      exact abs_of_nonneg (by simpa using hnonneg)

theorem represented_of_packable {u : UnpackedFloat} {q : Rat} (hu : Packable u)
    (hq : value u = .finite q) : Represented q := by
  cases u with
  | infinity s => cases s <;> cases hq
  | notANumber => cases hq
  | zero s =>
      cases hq
      exact ⟨⟨0, -1074, by simp, by norm_num, le_rfl⟩, by rw [abs_zero]; positivity⟩
  | finite s m e hm =>
      rw [value_finite] at hq
      cases hq
      obtain ⟨⟨hlt, hle, -⟩, hfits⟩ := hu
      constructor
      · exact ⟨m, e, abs_apply s m e, hlt, hle⟩
      · rw [abs_apply]
        have hlt' : (m : Rat) < 2 ^ 53 := by exact_mod_cast hlt
        calc (m * 2 ^ e : Rat) < 2 ^ 53 * 2 ^ e := by gcongr
          _ ≤ 2 ^ 53 * 2 ^ greatestExponent := by gcongr; norm_num

theorem represented_exact {x : Float} {q : Rat} (hx : exact x = .finite q) : Represented q :=
  represented_of_packable (packable_unpack x) hx

/-- The value that a rounded magnitude is packed to. -/
def saturated (n : Nat) (f : Int) : ExtendedRat :=
  if f ≤ greatestExponent then .finite (n * 2 ^ f) else .posInf

def signed : Sign → ExtendedRat → ExtendedRat
  | .positive, v => v
  | .negative, v => -v

theorem exact_pack_rounds {m : Nat} {e : Int} {n : Nat} {f : Int} (h : Rounds m e n f) (s : Sign) :
    exact (.ofModel (.pack (if h : n = 0 then .zero s else .finite s n f (Nat.pos_of_ne_zero h)))) =
      signed s (saturated n f) := by
  rcases Nat.eq_zero_or_pos n with rfl | hn
  · obtain rfl : f = -1074 := h.long.resolve_left (by norm_num)
    rw [dif_pos rfl, exact_pack_zero, saturated, if_pos (by decide)]
    cases s <;> simp [signed]
  · rw [dif_neg hn.ne', saturated]
    split
    · next hf =>
      have hpackable : Packable (.finite s n f hn) := ⟨⟨h.lt, h.le, h.long⟩, hf⟩
      rw [exact_pack_of_packable hpackable, value_finite]
      cases s <;> simp [signed, Sign.apply]
    · next hf =>
      rw [exact_pack_of_lt s hn (not_le.1 hf)]
      cases s <;> rfl

namespace Rounds

variable {m n : Nat} {e f : Int} {q : Rat}

theorem le_saturated (h : Rounds m e n f) (hq : Represented q) (hle : q ≤ m * 2 ^ e) :
    ExtendedRat.finite q ≤ saturated n f := by
  rw [saturated]
  split
  · rw [ExtendedRat.finite_le_finite]
    rcases le_total q 0 with hneg | hpos
    · exact hneg.trans (by positivity)
    · exact h.below q (abs_of_nonneg hpos ▸ hq.magnitude) hle
  · rfl

theorem saturated_le (h : Rounds m e n f) (hq : Represented q) (hle : m * 2 ^ e ≤ q) :
    saturated n f ≤ ExtendedRat.finite q := by
  have hpos : 0 ≤ q := le_trans (by positivity) hle
  have hbound : (n * 2 ^ f : Rat) ≤ q := h.above q (abs_of_nonneg hpos ▸ hq.magnitude) hle
  rw [saturated, if_pos]
  · exact ExtendedRat.finite_le_finite.2 hbound
  · -- Beyond the greatest exponent the mantissa is long, which makes the magnitude too large.
    by_contra hf
    rw [not_le] at hf
    have hlong : 2 ^ 52 ≤ n := h.long.resolve_right (by rw [greatestExponent] at hf; omega)
    have hlong' : (2 ^ 52 : Rat) ≤ n := by exact_mod_cast hlong
    have hge : (2 ^ 53 * 2 ^ greatestExponent : Rat) ≤ n * 2 ^ f := by
      calc (2 ^ 53 * 2 ^ greatestExponent : Rat) = 2 ^ 52 * 2 ^ (greatestExponent + 1) := by
            rw [zpow_add_one₀ two_ne_zero]
            ring
        _ ≤ 2 ^ 52 * 2 ^ f := by gcongr; norm_num; omega
        _ ≤ n * 2 ^ f := by gcongr
    have hlt := hq.lt
    rw [abs_of_nonneg hpos] at hlt
    exact absurd (hge.trans hbound) hlt.not_ge

end Rounds

theorem normalize_of_neg {m : Nat} {e : Int} {t : Sign} (hm : (-m : Int) < 0) :
    UnpackedFloat.normalize Format.binary64 (-m) e t =
      UnpackedFloat.round Format.binary64 .negative m e := by
  unfold UnpackedFloat.normalize
  rw [compare_lt_iff_lt.2 hm]
  simp

theorem normalize_of_pos {m : Nat} {e : Int} {t : Sign} (hm : 0 < (m : Int)) :
    UnpackedFloat.normalize Format.binary64 m e t =
      UnpackedFloat.round Format.binary64 .positive m e := by
  unfold UnpackedFloat.normalize
  rw [compare_gt_iff_gt.2 hm]
  simp

/-- No value of a number lies strictly between a value and what it is normalized to. -/
theorem normalize_between (k : Int) (e : Int) (t : Sign) {q : Rat} (hq : Represented q) :
    (q ≤ k * 2 ^ e →
      .finite q ≤ exact (.ofModel (.pack (UnpackedFloat.normalize Format.binary64 k e t)))) ∧
    (k * 2 ^ e ≤ q →
      exact (.ofModel (.pack (UnpackedFloat.normalize Format.binary64 k e t))) ≤ .finite q) := by
  rcases lt_trichotomy k 0 with hk | rfl | hk
  · obtain ⟨m, rfl⟩ : ∃ m : Nat, k = -m := ⟨(-k).toNat, by omega⟩
    obtain ⟨n, f, hrounds, hround⟩ := exists_rounds .negative e (m := m) (by omega)
    rw [normalize_of_neg hk, hround, exact_pack_rounds hrounds]
    have hneg : (ExtendedRat.finite q) = -.finite (-q) := by simp
    rw [hneg, signed, ExtendedRat.neg_le_neg, ExtendedRat.neg_le_neg, Int.cast_neg,
      Int.cast_natCast, neg_mul]
    exact ⟨fun h => hrounds.saturated_le hq.neg (le_neg.1 h),
      fun h => hrounds.le_saturated hq.neg (neg_le.1 h)⟩
  · have hnormalize : UnpackedFloat.normalize Format.binary64 0 e t = .zero t := rfl
    rw [hnormalize, exact_pack_zero]
    simp
  · obtain ⟨m, rfl⟩ : ∃ m : Nat, k = m := ⟨k.toNat, by omega⟩
    obtain ⟨n, f, hrounds, hround⟩ := exists_rounds .positive e (m := m) (by omega)
    rw [normalize_of_pos hk, hround, exact_pack_rounds hrounds, signed, Int.cast_natCast]
    exact ⟨hrounds.le_saturated hq, hrounds.saturated_le hq⟩

/-- A signed mantissa is lengthened to reach a smaller exponent. -/
theorem apply_decreaseExponent (s : Sign) (m : Nat) {e e' : Int} (h : e' ≤ e) :
    ((s.apply (decreaseExponent m e e').1 : Int) * 2 ^ e' : Rat) = (s.apply m : Int) * 2 ^ e := by
  have hexponent : e' = e - (e - e').toNat := by omega
  have hshift := shiftLeft_mul_zpow m (e - e').toNat e
  rw [← hexponent] at hshift
  show ((s.apply (m <<< (e - e').toNat : Nat) : Int) * 2 ^ e' : Rat) = _
  cases s with
  | positive => exact hshift
  | negative =>
      rw [Sign.apply, Sign.apply, Int.cast_neg, Int.cast_neg, neg_mul, neg_mul]
      exact congrArg Neg.neg hshift

/-- No value of a number lies strictly between a sum and what it is rounded to. -/
theorem add_between {u v : UnpackedFloat} {a b q : Rat} (hu : Packable u) (hv : Packable v)
    (ha : value u = .finite a) (hb : value v = .finite b) (hq : Represented q) :
    (q ≤ a + b →
      .finite q ≤ exact (.ofModel (.pack (UnpackedFloat.add Format.binary64 u v)))) ∧
    (a + b ≤ q →
      exact (.ofModel (.pack (UnpackedFloat.add Format.binary64 u v))) ≤ .finite q) := by
  cases u with
  | infinity s => cases s <;> cases ha
  | notANumber => cases ha
  | zero s =>
      cases ha
      rw [zero_add]
      have hsum : exact (.ofModel (.pack (UnpackedFloat.add Format.binary64 (.zero s) v))) =
          .finite b := by
        rcases zero_add_cases s v with h | ⟨⟨t, rfl⟩, t', h⟩
        · rw [h, exact_pack_of_packable hv, hb]
        · rw [h, exact_pack_zero, ← hb]
          rfl
      rw [hsum]
      exact ⟨ExtendedRat.finite_le_finite.2, ExtendedRat.finite_le_finite.2⟩
  | finite s m e hm =>
      cases v with
      | infinity t => cases t <;> cases hb
      | notANumber => cases hb
      | zero t =>
          cases hb
          rw [add_zero]
          have hsum : UnpackedFloat.add Format.binary64 (.finite s m e hm) (.zero t) =
              .finite s m e hm := rfl
          rw [hsum, exact_pack_of_packable hu, ha]
          exact ⟨ExtendedRat.finite_le_finite.2, ExtendedRat.finite_le_finite.2⟩
      | finite t n f hn =>
          rw [value_finite] at ha hb
          cases ha
          cases hb
          rw [← apply_decreaseExponent s m (min_le_left e f),
            ← apply_decreaseExponent t n (min_le_right e f), ← add_mul, ← Int.cast_add]
          exact normalize_between _ _ _ hq

theorem sub_eq_add (u v : UnpackedFloat) :
    UnpackedFloat.sub Format.binary64 u v = UnpackedFloat.add Format.binary64 u v.neg := by
  cases u with
  | finite s m e hm =>
      cases v with
      | finite t n f hn =>
          have hmantissa (k l : Int) : s.apply k - t.apply l = s.apply k + (-t).apply l := by
            cases t with
            | positive => exact sub_eq_add_neg _ _
            | negative => exact sub_neg_eq_add _ _
          simp [UnpackedFloat.sub, UnpackedFloat.add, UnpackedFloat.neg, hmantissa]
      | _ => rfl
  | _ => cases v <;> rfl

theorem packable_neg {u : UnpackedFloat} (h : Packable u) : Packable u.neg := by
  cases u <;> exact h

theorem value_neg (u : UnpackedFloat) : value u.neg = -value u := by
  cases u with
  | infinity s => cases s <;> rfl
  | notANumber => rfl
  | zero s => simp [UnpackedFloat.neg, value]
  | finite s m e hm =>
      rw [UnpackedFloat.neg, value_finite, value_finite, ExtendedRat.neg_finite]
      cases s with
      | positive => simp [Sign.apply]
      | negative => simp [Sign.apply]

/-- Adding a finite number changes no infinity, and makes no number of none. -/
theorem add_of_ne_finite {u v : UnpackedFloat} {b : Rat} (hu : ∀ a, value u ≠ .finite a)
    (hv : value v = .finite b) : UnpackedFloat.add Format.binary64 u v = u := by
  cases u with
  | notANumber => rfl
  | zero s => exact absurd rfl (hu 0)
  | finite s m e hm => exact absurd rfl (hu _)
  | infinity s =>
      cases v with
      | notANumber => cases hv
      | infinity t => cases t <;> cases hv
      | _ => rfl

section Floats

variable {x y : Float} {a b q : Rat}

theorem add_eq (x y : Float) : x + y = .ofModel (.pack (UnpackedFloat.add Format.binary64
    x.toModel.unpack y.toModel.unpack)) := rfl

theorem sub_eq (x y : Float) : x - y = .ofModel (.pack (UnpackedFloat.add Format.binary64
    x.toModel.unpack y.toModel.unpack.neg)) := by
  rw [← sub_eq_add]
  rfl

theorem value_neg_unpack (hy : exact y = .finite b) :
    value y.toModel.unpack.neg = .finite (-b) := by
  rw [value_neg, ← exact_eq_value, hy, ExtendedRat.neg_finite]

/-- A number that is not above an exact sum is not above the rounded sum. -/
theorem represented_le_add (hx : exact x = .finite a) (hy : exact y = .finite b)
    (hq : Represented q) (h : q ≤ a + b) : .finite q ≤ exact (x + y) :=
  (add_between (packable_unpack x) (packable_unpack y) hx hy hq).1 h

/-- A number that is not below an exact difference is not below the rounded difference. -/
theorem sub_le_represented (hx : exact x = .finite a) (hy : exact y = .finite b)
    (hq : Represented q) (h : a - b ≤ q) : exact (x - y) ≤ .finite q := by
  rw [sub_eq]
  exact (add_between (packable_unpack x) (packable_neg (packable_unpack y)) hx
    (value_neg_unpack hy) hq).2 (by rwa [← sub_eq_add_neg])

theorem exact_add_of_ne_finite (hx : ∀ a, exact x ≠ .finite a) (hy : exact y = .finite b) :
    exact (x + y) = exact x := by
  rw [add_eq, add_of_ne_finite hx hy, ofModel_pack_unpack]

theorem exact_sub_of_ne_finite (hx : ∀ a, exact x ≠ .finite a) (hy : exact y = .finite b) :
    exact (x - y) = exact x := by
  rw [sub_eq, add_of_ne_finite hx (value_neg_unpack hy), ofModel_pack_unpack]

end Floats

end Sum

end Binary64

end LinearModel
