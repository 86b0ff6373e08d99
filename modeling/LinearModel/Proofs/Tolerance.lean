import Mathlib
import LinearModel.Proofs.Described
import LinearModel.Proofs.LinearForm

/-!
# Feasibility within the tolerance

At a rational point nothing is rounded, so that every check of feasibility comes down to limits that
are widened by the tolerance (`Bound.Allows`). For a variable they are its effective bounds, which
the bound of its column has as limits; for a constraint they are those of its row, whichever way the
constraint compares.
-/

namespace LinearModel

/-- The value lies between the limits of the bound, each of which may be missed by `slack`. -/
def Bound.Allows (slack : ExtendedRat) (b : Bound ExtendedRat) (v : ExtendedRat) : Prop :=
  b.limits.1 - slack ≤ v ∧ v ≤ b.limits.2 + slack

namespace ExtendedRat

theorem abs_finite (q : Rat) : Number.abs (finite q) = finite |q| := by
  show finite q.abs = finite |q|
  congr 1
  rcases le_total 0 q with hq | hq
  · rw [Rat.abs_of_nonneg hq, abs_of_nonneg hq]
  · rw [Rat.abs_of_nonpos hq, abs_of_nonpos hq]

theorem tolerance_eq : (Number.tolerance : ExtendedRat) = finite (1 / 1000000000) := rfl

/-- Distance within a slack is lying between two widened limits. -/
theorem abs_sub_le_iff_allows (q t : Rat) (a : ExtendedRat) :
    Number.abs (finite q - a) ≤ finite t ↔ a - finite t ≤ finite q ∧ finite q ≤ a + finite t := by
  cases a with
  | finite p =>
      rw [finite_sub_finite, abs_finite, finite_sub_finite, finite_add_finite, finite_le_finite,
        finite_le_finite, finite_le_finite, abs_sub_le_iff]
      constructor
      · rintro ⟨h, h'⟩
        constructor <;> linarith
      · rintro ⟨h, h'⟩
        constructor <;> linarith
  | nan => exact ⟨fun h => Bool.noConfusion h, fun h => Bool.noConfusion h.1⟩
  | negInf => exact ⟨fun h => Bool.noConfusion h, fun h => Bool.noConfusion h.2⟩
  | posInf => exact ⟨fun h => Bool.noConfusion h, fun h => Bool.noConfusion h.1⟩

end ExtendedRat

/-- What admits a value is limited below by a rational or minus infinity, and above by a rational or
infinity. -/
theorem LinearProgram.finite_or_infinite_of_admits {lower upper : ExtendedRat}
    (h : admitsNothing lower upper = false) :
    (lower = .negInf ∨ ∃ p, lower = .finite p) ∧ (upper = .posInf ∨ ∃ q, upper = .finite q) := by
  constructor
  · cases lower with
    | finite p => exact .inr ⟨p, rfl⟩
    | negInf => exact .inl rfl
    | nan => cases h
    | posInf => cases upper <;> cases h
  · cases upper with
    | finite q => exact .inr ⟨q, rfl⟩
    | posInf => exact .inl rfl
    | nan => cases lower <;> cases h
    | negInf => cases lower <;> cases h

namespace Bound

theorem limits_between {lower upper : ExtendedRat}
    (h : LinearProgram.admitsNothing lower upper = false) :
    (between lower upper).limits = (lower, upper) := by
  obtain ⟨rfl | ⟨p, rfl⟩, rfl | ⟨q, rfl⟩⟩ := LinearProgram.finite_or_infinite_of_admits h
  · rfl
  · rfl
  · rfl
  · -- Equal limits make a fixed bound, which reads only the lower one.
    by_cases hpq : p = q
    · subst hpq
      simp [between, kindBetween, limits, Number.isFinite, Number.exact]
    · simp [between, kindBetween, limits, Number.isFinite, Number.exact, hpq]

end Bound

namespace Variable

variable {v : Variable ExtendedRat}

theorem admitsNothing_effectiveBounds
    (h : v.binary = true ∨ LinearProgram.admitsNothing v.lower v.upper = false) :
    LinearProgram.admitsNothing v.effectiveBounds.1 v.effectiveBounds.2 = false := by
  rw [effectiveBounds]
  cases hbinary : v.binary with
  | true => rfl
  | false =>
      rw [hbinary] at h
      exact h.resolve_left Bool.false_ne_true

theorem limits_column (h : v.binary = true ∨ LinearProgram.admitsNothing v.lower v.upper = false) :
    v.column.1.limits = v.effectiveBounds :=
  Bound.limits_between (admitsNothing_effectiveBounds h)

theorem column_eq_integer_iff (v : Variable ExtendedRat) :
    v.column.2 = .integer ↔ (v.integer || v.binary) = true := by
  rw [column]
  cases v.integer || v.binary <;> simp

theorem nearInteger_finite_iff (q : Rat) :
    nearInteger (ExtendedRat.finite q) = true ↔
      ExtendedRat.finite |q - roundHalfAway q| ≤ Number.tolerance := by
  have hdistance : Number.abs (ExtendedRat.finite q - Number.round (.finite q)) =
      .finite |q - roundHalfAway q| := by
    rw [← ExtendedRat.abs_finite, ← ExtendedRat.finite_sub_finite]
    rfl
  rw [nearInteger, hdistance, Bool.not_eq_true']
  exact ExtendedRat.lt_eq_false_iff (by simp [ExtendedRat.tolerance_eq]) (by simp)

/-- A variable admits what its column allows, near an integer if the column is an integer one. -/
theorem admits_finite_iff
    (h : v.binary = true ∨ LinearProgram.admitsNothing v.lower v.upper = false) (q : Rat) :
    v.admits (.finite q) = true ↔
      v.column.1.Allows Number.tolerance (.finite q) ∧
        (v.column.2 = .integer →
          ExtendedRat.finite |q - roundHalfAway q| ≤ Number.tolerance) := by
  rw [Bound.Allows, limits_column h, v.column_eq_integer_iff, admits, ← nearInteger_finite_iff]
  obtain ⟨hlower, hupper⟩ :=
    LinearProgram.finite_or_infinite_of_admits (admitsNothing_effectiveBounds h)
  generalize v.effectiveBounds = limits at hlower hupper
  obtain ⟨lower, upper⟩ := limits
  have hbelow : Number.lt (.finite q) (lower - Number.tolerance) = false ↔
      lower - Number.tolerance ≤ .finite q := by
    refine ExtendedRat.lt_eq_false_iff (by simp) ?_
    rcases hlower with rfl | ⟨p, rfl⟩ <;> exact ExtendedRat.noConfusion
  have habove : Number.lt (upper + Number.tolerance) (.finite q) = false ↔
      .finite q ≤ upper + Number.tolerance := by
    refine ExtendedRat.lt_eq_false_iff ?_ (by simp)
    rcases hupper with rfl | ⟨p, rfl⟩ <;> exact ExtendedRat.noConfusion
  rw [← hbelow, ← habove]
  simp [Number.isNaN, Number.exact, and_assoc, Bool.or_eq_true, imp_iff_not_or]

end Variable

namespace Constraint

variable {n : Nat}

/-- A left-hand side is accepted exactly when the row of the constraint allows it. -/
theorem accepts_finite_iff (c : Constraint ExtendedRat n) (q : Rat) :
    c.accepts (.finite q) = true ↔ c.rowBound.Allows Number.tolerance (.finite q) := by
  rw [accepts, rowBound]
  cases c.relation with
  | le => exact ⟨fun h => ⟨rfl, h⟩, fun h => h.2⟩
  | ge => exact ⟨fun h => ⟨h, rfl⟩, fun h => h.1⟩
  | eq => exact ExtendedRat.abs_sub_le_iff_allows q _ c.rhs

end Constraint

namespace LinearProgram

theorem isFeasible_eq_error {α : Type} [Number α] (lp : LinearProgram α) {xs : List α}
    (hx : xs.length ≠ lp.dimension) :
    lp.isFeasible xs =
      .error (.dimensionMismatch .point ⟨1, lp.dimension⟩ ⟨1, xs.length⟩) :=
  if_neg hx

/-- At a rational point of the right length no check fails to give an answer. -/
theorem isFeasible_eq_ok (lp : LinearProgram ExtendedRat) {x : List Rat}
    (hx : x.length = lp.dimension) :
    lp.isFeasible (x.map .finite) =
      .ok (((lp.unknowns.toList.zip (x.map .finite)).all fun (v, value) => v.admits value) &&
        lp.constraints.all fun c => c.accepts (c.coefficients.formAt x)) := by
  have hlength : (x.map ExtendedRat.finite).length = lp.dimension := by rw [List.length_map, hx]
  have hforms : (fun c : Constraint ExtendedRat lp.dimension =>
      c.accepts (c.coefficients.sumAt (x.map .finite))) =
        fun c => c.accepts (c.coefficients.formAt x) :=
    funext fun c => congrArg c.accepts (c.coefficients.sumAt_map_finite hx)
  rw [lp.isFeasible_of_length hlength, hforms]

/-- Feasibility, variable by variable and constraint by constraint. -/
theorem isFeasible_eq_ok_true_iff (lp : LinearProgram ExtendedRat) {x : List Rat}
    (hx : x.length = lp.dimension) :
    lp.isFeasible (x.map .finite) = .ok true ↔
      List.Forall₂ (fun v q => v.admits (.finite q) = true) lp.unknowns.toList x ∧
        ∀ c ∈ lp.constraints, c.accepts (c.coefficients.formAt x) = true := by
  rw [lp.isFeasible_eq_ok hx, Except.ok.injEq, Bool.and_eq_true, List.all_eq_true,
    List.all_eq_true]
  refine and_congr_left fun _ => ?_
  rw [List.forall₂_iff_zip, List.zip_map_right]
  constructor
  · intro hall
    refine ⟨by rw [Vector.length_toList, hx], ?_⟩
    intro v q hmem
    exact hall _ (List.mem_map_of_mem hmem)
  · rintro ⟨-, hall⟩ e he
    obtain ⟨⟨v, q⟩, hmem, rfl⟩ := List.mem_map.1 he
    exact hall hmem

theorem evaluate_eq_ok (lp : LinearProgram ExtendedRat) {x : List Rat}
    (hx : x.length = lp.dimension) :
    lp.evaluate (x.map .finite) = .ok (lp.objective.formAt x) := by
  rw [lp.evaluate_of_length (by rw [List.length_map, hx]), lp.objective.sumAt_map_finite hx]

end LinearProgram

end LinearModel
