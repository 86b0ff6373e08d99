import Mathlib
import LinearModel.Program.Edit
import LinearModel.Proofs.Described
import LinearModel.Proofs.Evaluation
import LinearModel.Proofs.Rounding

/-!
# Impossible bounds

Two checks ask whether bounds leave anything to choose. A column is refused when its limits admit
nothing; a point is infeasible when some value misses a limit by more than the tolerance. Limits
that lie further apart in the wrong order than the tolerance reaches, and infinite ones that point
inward, fail both checks, the second at every finite point (`LinearProgram.impossible_bounds`).
Adding the tolerance to a number must not make it smaller for this, nor taking it away make it
larger, which is what a `TolerantNumber` keeps through its rounding. A limit that is no number fails
only the first check: no value is smaller or larger than it, so that a point is feasible for it as
it would be without the limit (`LinearProgram.isFeasible_withoutNaN`).
-/

namespace LinearModel

open Number (exact tolerance isFinite isNaN posInf negInf)

/-- Numbers to which the tolerance is added without making them smaller, and from which it is taken
without making them larger. What is not finite stays as it is. -/
class TolerantNumber (α : Type) [Number α] : Prop extends OrderedNumber α where
  exact_sub_tolerance {x : α} (hx : isFinite x = false) : exact (x - tolerance) = exact x
  exact_add_tolerance {x : α} (hx : isFinite x = false) : exact (x + tolerance) = exact x
  sub_tolerance_le {x : α} (hx : isFinite x = true) : exact (x - tolerance) ≤ exact x
  le_add_tolerance {x : α} (hx : isFinite x = true) : exact x ≤ exact (x + tolerance)

instance : TolerantNumber ExtendedRat where
  exact_sub_tolerance {x} hx := by
    cases x with
    | finite q => cases hx
    | _ => rfl
  exact_add_tolerance {x} hx := by
    cases x with
    | finite q => cases hx
    | _ => rfl
  sub_tolerance_le {x} hx := by
    obtain ⟨q, rfl⟩ : ∃ q, x = .finite q := Number.isFinite_iff.1 hx
    show ExtendedRat.finite q - .finite (1 / 1000000000) ≤ .finite q
    rw [ExtendedRat.finite_sub_finite, ExtendedRat.finite_le_finite]
    linarith
  le_add_tolerance {x} hx := by
    obtain ⟨q, rfl⟩ : ∃ q, x = .finite q := Number.isFinite_iff.1 hx
    show ExtendedRat.finite q ≤ .finite q + .finite (1 / 1000000000)
    rw [ExtendedRat.finite_add_finite, ExtendedRat.finite_le_finite]
    linarith

theorem Number.ne_finite_of_isFinite_eq_false {α : Type} [Number α] {x : α}
    (hx : isFinite x = false) (q : Rat) : exact x ≠ .finite q := fun h =>
  Bool.false_ne_true (hx.symm.trans (Number.isFinite_iff.2 ⟨q, h⟩))

/-- The tolerance is a finite number, and not negative. -/
theorem exists_exact_tolerance :
    ∃ t : Rat, 0 ≤ t ∧ exact (tolerance : Float) = .finite t := by
  obtain ⟨t, ht⟩ := Number.isFinite_iff.1 (by decide +kernel : isFinite (tolerance : Float) = true)
  have hle : ExtendedRat.finite 0 ≤ exact (tolerance : Float) := by decide +kernel
  rw [ht, ExtendedRat.finite_le_finite] at hle
  exact ⟨t, hle, ht⟩

instance : TolerantNumber Float where
  exact_sub_tolerance hx := by
    obtain ⟨t, -, ht⟩ := exists_exact_tolerance
    exact Binary64.exact_sub_of_ne_finite (Number.ne_finite_of_isFinite_eq_false hx) ht
  exact_add_tolerance hx := by
    obtain ⟨t, -, ht⟩ := exists_exact_tolerance
    exact Binary64.exact_add_of_ne_finite (Number.ne_finite_of_isFinite_eq_false hx) ht
  sub_tolerance_le hx := by
    obtain ⟨t, hpos, ht⟩ := exists_exact_tolerance
    obtain ⟨q, hq⟩ := Number.isFinite_iff.1 hx
    rw [hq]
    exact Binary64.sub_le_represented hq ht (Binary64.represented_exact hq) (by linarith)
  le_add_tolerance hx := by
    obtain ⟨t, hpos, ht⟩ := exists_exact_tolerance
    obtain ⟨q, hq⟩ := Number.isFinite_iff.1 hx
    rw [hq]
    exact Binary64.represented_le_add hq ht (Binary64.represented_exact hq) (by linarith)

namespace ExtendedRat

theorem le_refl_of_ne_nan {a : ExtendedRat} (ha : a ≠ nan) : a ≤ a := by
  cases a with
  | nan => exact absurd rfl ha
  | finite q => exact finite_le_finite.2 le_rfl
  | _ => rfl

theorem ne_nan_of_lt {a b : ExtendedRat} (h : a.lt b = true) : a ≠ nan ∧ b ≠ nan := by
  constructor
  · rintro rfl
    cases b <;> cases h
  · rintro rfl
    cases a <;> cases h

theorem lt_of_le_of_lt {a b c : ExtendedRat} (hab : a ≤ b) (hbc : b.lt c = true) :
    a.lt c = true := by
  cases b with
  | nan => exact absurd rfl (ne_nan_of_lt hbc).1
  | posInf => cases c <;> cases hbc
  | negInf =>
      cases a with
      | negInf => exact hbc
      | _ => cases hab
  | finite q =>
      cases a with
      | nan => cases hab
      | posInf => cases hab
      | negInf =>
          cases c with
          | finite r => rfl
          | posInf => rfl
          | _ => cases hbc
      | finite p =>
          cases c with
          | finite r =>
              rw [lt_finite, decide_eq_true_eq] at hbc ⊢
              exact (finite_le_finite.1 hab).trans_lt hbc
          | posInf => rfl
          | _ => cases hbc

theorem neg_lt_neg (a b : ExtendedRat) : (-a).lt (-b) = b.lt a := by
  cases a with
  | finite p =>
      cases b with
      | finite q => simp
      | _ => rfl
  | _ => cases b <;> rfl

theorem lt_of_lt_of_le {a b c : ExtendedRat} (hab : a.lt b = true) (hbc : b ≤ c) :
    a.lt c = true := by
  rw [← neg_lt_neg] at hab ⊢
  exact lt_of_le_of_lt (ExtendedRat.neg_le_neg c b |>.2 hbc) hab

/-- Of two values in the wrong order, a rational is above the first or below the second. -/
theorem lt_or_lt_of_lt {a b : ExtendedRat} (h : a.lt b = true) (q : Rat) :
    a.lt (finite q) = true ∨ (finite q).lt b = true := by
  obtain ⟨ha, -⟩ := ne_nan_of_lt h
  cases hq : (finite q).lt b with
  | true => exact .inr rfl
  | false =>
      have hle : b ≤ finite q := (lt_eq_false_iff (by simp) (ne_nan_of_lt h).2).1 hq
      exact .inl (lt_of_lt_of_le h hle)

end ExtendedRat

section Limits

variable {α : Type} [Number α]

/-- The limits leave no room even with the tolerance on both sides. -/
def Impossible (lower upper : α) : Prop :=
  exact lower = .posInf ∨ exact upper = .negInf ∨
    Number.lt (upper + tolerance) (lower - tolerance) = true

variable [TolerantNumber α]

theorem exact_sub_tolerance_le {x : α} (hx : exact (x - tolerance) ≠ .nan) :
    exact (x - tolerance) ≤ exact x := by
  cases hfinite : isFinite x with
  | true => exact TolerantNumber.sub_tolerance_le hfinite
  | false =>
      rw [TolerantNumber.exact_sub_tolerance hfinite] at hx ⊢
      exact ExtendedRat.le_refl_of_ne_nan hx

theorem le_exact_add_tolerance {x : α} (hx : exact (x + tolerance) ≠ .nan) :
    exact x ≤ exact (x + tolerance) := by
  cases hfinite : isFinite x with
  | true => exact TolerantNumber.le_add_tolerance hfinite
  | false =>
      rw [TolerantNumber.exact_add_tolerance hfinite] at hx ⊢
      exact ExtendedRat.le_refl_of_ne_nan hx

/-- What is in the wrong order with the tolerance is so without it. -/
theorem lt_of_lt_tolerance {lower upper : α}
    (h : Number.lt (upper + tolerance) (lower - tolerance) = true) :
    Number.lt upper lower = true := by
  rw [OrderedNumber.lt_eq] at h ⊢
  obtain ⟨hupper, hlower⟩ := ExtendedRat.ne_nan_of_lt h
  exact ExtendedRat.lt_of_lt_of_le (ExtendedRat.lt_of_le_of_lt (le_exact_add_tolerance hupper) h)
    (exact_sub_tolerance_le hlower)

theorem Impossible.admitsNothing {lower upper : α} (h : Impossible lower upper) :
    LinearProgram.admitsNothing lower upper = true := by
  rw [LinearProgram.admitsNothing]
  rcases h with h | h | h
  · have hbeq : (lower == posInf) = true := by
      rw [OrderedNumber.beq_eq, h, OrderedNumber.exact_posInf]
      rfl
    simp [hbeq]
  · have hbeq : (upper == negInf) = true := by
      rw [OrderedNumber.beq_eq, h, OrderedNumber.exact_negInf]
      rfl
    simp [hbeq]
  · simp [lt_of_lt_tolerance h]

/-- No finite value keeps impossible limits. -/
theorem Variable.admits_eq_false {v : Variable α} (hbinary : v.binary = false)
    (h : Impossible v.lower v.upper) {x : α} (hx : isFinite x = true) : v.admits x = false := by
  have hmiss : Number.lt x (v.lower - tolerance) = true ∨
      Number.lt (v.upper + tolerance) x = true := by
    rw [OrderedNumber.lt_eq, OrderedNumber.lt_eq]
    obtain ⟨q, hq⟩ := Number.isFinite_iff.1 hx
    rw [hq]
    rcases h with h | h | h
    · left
      rw [TolerantNumber.exact_sub_tolerance (by simp [isFinite, h]), h]
      rfl
    · right
      rw [TolerantNumber.exact_add_tolerance (by simp [isFinite, h]), h]
      rfl
    · rw [OrderedNumber.lt_eq] at h
      exact (ExtendedRat.lt_or_lt_of_lt h q).symm
  rw [admits, effectiveBounds, hbinary]
  rcases hmiss with h | h <;> simp [h]

/-- No value is too small for a lower limit that is minus infinity or no number. -/
theorem lt_sub_tolerance_eq_false {lower : α} (h : exact lower = .nan ∨ exact lower = .negInf)
    (x : α) : Number.lt x (lower - tolerance) = false := by
  have hfinite : isFinite lower = false := by
    rcases h with h | h <;> simp [isFinite, h]
  rw [OrderedNumber.lt_eq, TolerantNumber.exact_sub_tolerance hfinite]
  rcases h with h | h <;> rw [h] <;> cases exact x <;> rfl

theorem add_tolerance_lt_eq_false {upper : α} (h : exact upper = .nan ∨ exact upper = .posInf)
    (x : α) : Number.lt (upper + tolerance) x = false := by
  have hfinite : isFinite upper = false := by
    rcases h with h | h <;> simp [isFinite, h]
  rw [OrderedNumber.lt_eq, TolerantNumber.exact_add_tolerance hfinite]
  rcases h with h | h <;> rw [h] <;> cases exact x <;> rfl

end Limits

section WithoutNaN

variable {α : Type} [Number α]

theorem Number.isNaN_iff {x : α} : isNaN x = true ↔ exact x = .nan := by
  unfold isNaN
  cases exact x <;> simp

/-- The variable without those of its limits that are no numbers. -/
def Variable.withoutNaN (v : Variable α) : Variable α :=
  { v with
    lower := if isNaN v.lower then negInf else v.lower
    upper := if isNaN v.upper then posInf else v.upper }

def LinearProgram.withoutNaN (lp : LinearProgram α) : LinearProgram α :=
  { lp with unknowns := lp.unknowns.map Variable.withoutNaN }

variable [TolerantNumber α]

theorem Variable.admits_withoutNaN (v : Variable α) (x : α) :
    v.withoutNaN.admits x = v.admits x := by
  have hlower : Number.lt x (v.withoutNaN.lower - tolerance) =
      Number.lt x (v.lower - tolerance) := by
    show Number.lt x ((if isNaN v.lower then negInf else v.lower) - tolerance) = _
    split
    · next hnan =>
      rw [lt_sub_tolerance_eq_false (.inr OrderedNumber.exact_negInf),
        lt_sub_tolerance_eq_false (.inl (Number.isNaN_iff.1 hnan))]
    · rfl
  have hupper : Number.lt (v.withoutNaN.upper + tolerance) x =
      Number.lt (v.upper + tolerance) x := by
    show Number.lt ((if isNaN v.upper then posInf else v.upper) + tolerance) x = _
    split
    · next hnan =>
      rw [add_tolerance_lt_eq_false (.inr OrderedNumber.exact_posInf),
        add_tolerance_lt_eq_false (.inl (Number.isNaN_iff.1 hnan))]
    · rfl
  have hkind : v.withoutNaN.integer = v.integer ∧ v.withoutNaN.binary = v.binary := ⟨rfl, rfl⟩
  rw [admits, admits, effectiveBounds, effectiveBounds, hkind.1, hkind.2]
  cases v.binary with
  | true => rfl
  | false => simp only [Bool.false_eq_true, if_false, hlower, hupper]

/-- Whether a point is feasible does not depend on limits that are no numbers. -/
theorem LinearProgram.isFeasible_withoutNaN (lp : LinearProgram α) (x : List α) :
    lp.withoutNaN.isFeasible x = lp.isFeasible x := by
  have hall : ((lp.unknowns.map Variable.withoutNaN).toList.zip x).all (fun e => e.1.admits e.2) =
      (lp.unknowns.toList.zip x).all fun e => e.1.admits e.2 := by
    rw [Vector.toList_map, List.zip_map_left, List.all_map]
    exact congrArg (List.all _) (funext fun e => Variable.admits_withoutNaN e.1 e.2)
  show (if x.length = lp.dimension then
      if ((lp.unknowns.map Variable.withoutNaN).toList.zip x).all fun e => e.1.admits e.2 then _
      else _
    else _) = _
  rw [hall]
  rfl

end WithoutNaN

namespace LinearProgram

theorem exists_variable_of_bounds {α : Type} {lp : LinearProgram α} {j : Nat} {lower upper : α}
    (h : lp.bounds j = .ok (lower, upper)) :
    ∃ v, lp.unknowns[j]? = some v ∧ v.lower = lower ∧ v.upper = upper := by
  rw [bounds] at h
  cases hv : lp.unknowns[j]? with
  | none => simp [hv] at h
  | some v =>
      rw [hv] at h
      cases h
      exact ⟨v, rfl, rfl, rfl⟩

variable {α : Type} [Number α] [TolerantNumber α]

/-- One variable with impossible limits makes every finite point infeasible. -/
theorem isFeasible_eq_ok_false (lp : LinearProgram α) {j : Nat} {v : Variable α}
    (hv : lp.unknowns[j]? = some v) (hbinary : v.binary = false)
    (h : Impossible v.lower v.upper) {x : List α} (hx : x.length = lp.dimension)
    (hfinite : ∀ a ∈ x, isFinite a = true) : lp.isFeasible x = .ok false := by
  have hj : j < lp.dimension := by
    by_contra hj
    simp [hj] at hv
  have hj' : j < x.length := hx ▸ hj
  have hmem : (v, x[j]) ∈ lp.unknowns.toList.zip x := by
    rw [List.mem_iff_getElem?]
    refine ⟨j, ?_⟩
    rw [List.getElem?_zip_eq_some]
    exact ⟨by simpa using hv, List.getElem?_eq_getElem hj'⟩
  have hmiss : ¬ v.admits x[j] = true := by
    rw [Variable.admits_eq_false hbinary h (hfinite _ (List.getElem_mem hj'))]
    exact Bool.false_ne_true
  rw [lp.isFeasible_of_length hx]
  refine congrArg Except.ok (Bool.and_eq_false_iff.2 (.inl ?_))
  rw [List.all_eq_false]
  exact ⟨(v, x[j]), hmem, hmiss⟩

/-- Limits that are impossible even with the tolerance are refused as those of a column, and leave
no finite point feasible. A limit that is no number is refused too, but does not keep any point from
being feasible. -/
theorem impossible_bounds (lp : LinearProgram α) {j : Nat} {lower upper : α}
    (hbounds : lp.bounds j = .ok (lower, upper)) (hbinary : lp.isBinary j = false) :
    (Impossible lower upper →
      lp.columnBound j = .error (.invalidBounds j lower upper) ∧
        ∀ x : List α, x.length = lp.dimension → (∀ a ∈ x, isFinite a = true) →
          lp.isFeasible x = .ok false) ∧
    (isNaN lower = true ∨ isNaN upper = true →
      lp.columnBound j = .error (.invalidBounds j lower upper) ∧
        ∀ x : List α, lp.isFeasible x = lp.withoutNaN.isFeasible x) := by
  obtain ⟨v, hv, rfl, rfl⟩ := exists_variable_of_bounds hbounds
  have hbinary' : v.binary = false := by simpa [isBinary, hv] using hbinary
  have hrefused (hnothing : admitsNothing v.lower v.upper = true) :
      lp.columnBound j = .error (.invalidBounds j v.lower v.upper) := by
    rw [lp.columnBound_eq hv, if_pos ⟨hbinary', hnothing⟩]
  constructor
  · intro h
    exact ⟨hrefused h.admitsNothing, fun x => lp.isFeasible_eq_ok_false hv hbinary' h⟩
  · intro hnan
    refine ⟨hrefused ?_, fun x => (lp.isFeasible_withoutNaN x).symm⟩
    rcases hnan with hnan | hnan <;> simp [admitsNothing, hnan]

/-- The first variable has limits in the wrong order, the second a lower limit that is no number. -/
def crossed : LinearProgram Float :=
  (ofDimension 2).revise [.lowerBound 0 3, .upperBound 0 1, .lowerBound 1 (Number.nearest .nan)]

theorem impossible_bounds_crossed :
    (crossed.columnBound 0 = .error (.invalidBounds 0 3 1) ∧
      crossed.isFeasible [2, 0] = .ok false) ∧
      crossed.columnBound 1 = .error (.invalidBounds 1 (Number.nearest .nan) posInf) := by
  have hfirst : crossed.bounds 0 = .ok (3, 1) := rfl
  have hsecond : crossed.bounds 1 = .ok (Number.nearest .nan, posInf) := rfl
  obtain ⟨himpossible, -⟩ := crossed.impossible_bounds hfirst rfl
  obtain ⟨-, hnan⟩ := crossed.impossible_bounds hsecond rfl
  obtain ⟨hrefused, hinfeasible⟩ := himpossible (.inr (.inr (by decide +kernel)))
  obtain ⟨hrefused', -⟩ := hnan (.inl (by decide +kernel))
  exact ⟨⟨hrefused, hinfeasible [2, 0] rfl (by decide +kernel)⟩, hrefused'⟩

/-- A point is feasible although a limit of its only variable is refused. -/
theorem feasible_beside_nan :
    let lp : LinearProgram Float :=
      (ofDimension 1).revise [.lowerBound 0 (Number.nearest .nan)]
    lp.columnBound 0 = .error (.invalidBounds 0 (Number.nearest .nan) posInf) ∧
      lp.isFeasible [0] = .ok true := by
  refine ⟨rfl, ?_⟩
  rw [isFeasible_of_length _ rfl]
  exact congrArg Except.ok (by decide +kernel)

end LinearProgram

end LinearModel
