import Mathlib
import LinearModel.Proofs.Points
import LinearModel.Proofs.Tolerance

/-!
# Exact points of a program

An exact point keeps the effective bounds, the integer requirements and the constraints of a
program with nothing rounded and nothing granted. Exact points are what an engine is asked about:
the problem that is built for a program has them as its points, with the same objective. The
tolerance only adds to them, so that every exact point is feasible.
-/

namespace LinearModel

/-- The value keeps the effective bounds, as a signed 32-bit integer if the variable is an integer
or binary. -/
def Variable.AdmitsExactly (v : Variable ExtendedRat) (q : Rat) : Prop :=
  (v.effectiveBounds.1 ≤ .finite q ∧ .finite q ≤ v.effectiveBounds.2) ∧
    ((v.integer || v.binary) = true → IsInt32 q)

namespace LinearProgram

/-- The point keeps every effective bound, every integer requirement and every constraint, none of
them just within the tolerance. -/
structure ExactPoint (lp : LinearProgram ExtendedRat) (x : List Rat) : Prop where
  unknowns : List.Forall₂ Variable.AdmitsExactly lp.unknowns.toList x
  constraints : ∀ c ∈ lp.constraints, c.relation.Holds (c.coefficients.formAt x) c.rhs

variable {lp : LinearProgram ExtendedRat}

theorem ExactPoint.length_eq {x : List Rat} (h : lp.ExactPoint x) : x.length = lp.dimension := by
  rw [← h.unknowns.length_eq, Vector.length_toList]

theorem isMixedInteger_of_mem {v : Variable ExtendedRat} (hv : v ∈ lp.unknowns.toList)
    (h : (v.integer || v.binary) = true) : lp.isMixedInteger = true :=
  List.any_eq_true.2 ⟨v, hv, h⟩

theorem comparisons_rowBound {n : Nat} (c : Constraint ExtendedRat n) :
    BufferedEngine.comparisons c.rowBound = [(c.relation, c.rhs)] := by
  rw [Constraint.rowBound]
  cases c.relation <;> rfl

theorem admits_column_iff (hlp : lp.Describable) {v : Variable ExtendedRat}
    (hv : v ∈ lp.unknowns.toList) (q : Rat) :
    (v.column.1.Contains (.finite q) ∧
        (lp.isMixedInteger = true → v.column.2 = .integer → IsInt32 q)) ↔
      v.AdmitsExactly q := by
  rw [Bound.Contains, Variable.limits_column (hlp.limits v hv), Variable.AdmitsExactly,
    v.column_eq_integer_iff]
  exact and_congr_right fun _ =>
    ⟨fun h hi => h (isMixedInteger_of_mem hv hi) hi, fun h _ hi => h hi⟩

theorem forall₂_columns_iff (hlp : lp.Describable) (engine : Engine ExtendedRat) (x : List Rat) :
    List.Forall₂ (fun c q => c.Admits lp.isMixedInteger q)
        (BufferedEngine.holding engine lp).columns x ↔
      List.Forall₂ Variable.AdmitsExactly lp.unknowns.toList x := by
  have hcolumns := BufferedEngine.map_columns_holding engine lp
    (f := fun c => (c.bound, c.kind)) (g := Variable.column) fun _ _ => rfl
  have hmap : List.Forall₂ (fun c q => c.Admits lp.isMixedInteger q)
      (BufferedEngine.holding engine lp).columns x ↔
      List.Forall₂ (fun column q => column.1.Contains (.finite q) ∧
        (lp.isMixedInteger = true → column.2 = .integer → IsInt32 q))
        ((BufferedEngine.holding engine lp).columns.map fun c => (c.bound, c.kind)) x := by
    rw [List.forall₂_map_left_iff]
    rfl
  rw [hmap, hcolumns, List.forall₂_map_left_iff]
  refine forall₂_iff_of_forall₂ (R := fun v w => v = w ∧ v ∈ lp.unknowns.toList)
    (List.forall₂_same.2 fun v hv => ⟨rfl, hv⟩) ?_ x
  rintro v _ ⟨rfl, hv⟩ q
  exact admits_column_iff hlp hv q

/-- The rows of a program hold exactly when its constraints do. -/
theorem forall_rows_iff (engine : Engine ExtendedRat) {x : List Rat}
    (hx : x.length = lp.dimension) :
    (∀ (i : Nat) (row : Row ExtendedRat), (BufferedEngine.holding engine lp).rows[i]? = some row →
      ∀ k ∈ BufferedEngine.comparisons row.bound, k.1.Holds (Scalar.sum
        ((BufferedEngine.termsOf lp.coordinates (i + 1)).map (entryAt x))) k.2) ↔
      ∀ c ∈ lp.constraints, c.relation.Holds (c.coefficients.formAt x) c.rhs := by
  have hterms {i : Nat} {c : Constraint ExtendedRat lp.dimension}
      (hc : lp.constraints[i]? = some c) : Scalar.sum
        ((BufferedEngine.termsOf lp.coordinates (i + 1)).map (entryAt x)) =
          c.coefficients.formAt x := by
    rw [ExtendedRat.sum_eq, lp.termsOf_coordinates hc, sum_ascendingEntries c hx]
  constructor
  · intro h c hc
    obtain ⟨i, hi⟩ := List.getElem?_of_mem hc
    rw [← hterms hi]
    refine h i (BufferedEngine.rowOf c) ?_ (c.relation, c.rhs) ?_
    · simp [BufferedEngine.holding, hi]
    · exact comparisons_rowBound c ▸ List.mem_singleton_self _
  · intro h i row hrow k hk
    rw [BufferedEngine.holding, List.getElem?_map, Option.map_eq_some_iff] at hrow
    obtain ⟨c, hc, rfl⟩ := hrow
    rw [BufferedEngine.rowOf, comparisons_rowBound, List.mem_singleton] at hk
    rw [hk, hterms hc]
    exact h c (List.mem_of_getElem? hc)

theorem limits_ne_of_mem_columns (hlp : lp.Describable) (engine : Engine ExtendedRat) :
    ∀ c ∈ (BufferedEngine.holding engine lp).columns,
      c.bound.limits.1 ≠ .posInf ∧ c.bound.limits.2 ≠ .negInf := by
  intro c hc
  obtain ⟨⟨v, a⟩, hmem, rfl⟩ := List.mem_map.1 hc
  have hadmits := hlp.limits v (List.of_mem_zip hmem).1
  obtain ⟨hlower, hupper⟩ :=
    finite_or_infinite_of_admits (Variable.admitsNothing_effectiveBounds hadmits)
  have heq : (BufferedEngine.columnFor (v, a)).bound.limits = v.effectiveBounds :=
    Variable.limits_column hadmits
  rw [heq]
  constructor
  · rcases hlower with h | ⟨q, h⟩ <;> rw [h] <;> exact ExtendedRat.noConfusion
  · rcases hupper with h | ⟨q, h⟩ <;> rw [h] <;> exact ExtendedRat.noConfusion

/-- The problem that is built for a program has its exact points as points. -/
theorem isPoint_iff_exactPoint (hlp : lp.Describable) {engine : Engine ExtendedRat}
    {p : EngineProblem ExtendedRat}
    (hp : (BufferedEngine.holding engine lp).problem lp.isMixedInteger = .ok p) (x : List Rat) :
    p.IsPoint x ↔ lp.ExactPoint x := by
  rw [BufferedEngine.isPoint_iff hp (limits_ne_of_mem_columns hlp engine),
    forall₂_columns_iff hlp]
  constructor
  · rintro ⟨hunknowns, hrows⟩
    have hx : x.length = lp.dimension := by rw [← hunknowns.length_eq, Vector.length_toList]
    exact ⟨hunknowns, (forall_rows_iff engine hx).1 hrows⟩
  · intro h
    exact ⟨h.unknowns, (forall_rows_iff engine h.length_eq).2 h.constraints⟩

theorem objectiveAt_problem {engine : Engine ExtendedRat} {p : EngineProblem ExtendedRat}
    (hp : (BufferedEngine.holding engine lp).problem lp.isMixedInteger = .ok p) (x : List Rat) :
    p.objectiveAt x = lp.objective.formAt x := by
  rw [BufferedEngine.objectiveAt_eq hp, BufferedEngine.map_objective_holding]
  rfl

end LinearProgram

namespace ExtendedRat

theorem le_add_tolerance {a b : ExtendedRat} (h : a ≤ b) : a ≤ b + Number.tolerance := by
  cases b with
  | finite q =>
      cases a with
      | finite p =>
          rw [tolerance_eq, finite_add_finite, finite_le_finite]
          linarith [finite_le_finite.1 h]
      | _ => exact h
  | _ => exact h

theorem sub_tolerance_le {a b : ExtendedRat} (h : a ≤ b) : a - Number.tolerance ≤ b := by
  cases a with
  | finite p =>
      cases b with
      | finite q =>
          rw [tolerance_eq, finite_sub_finite, finite_le_finite]
          linarith [finite_le_finite.1 h]
      | _ => exact h
  | _ => exact h

end ExtendedRat

theorem roundHalfAway_eq_of_abs_sub_lt {q : Rat} {n : Int} (h : |q - n| < 1 / 2) :
    roundHalfAway q = n := by
  obtain ⟨hbelow, habove⟩ := abs_lt.1 h
  rw [roundHalfAway]
  split
  · apply le_antisymm
    · rw [← Int.lt_add_one_iff, Rat.floor_lt_iff]
      push_cast
      linarith
    · rw [Rat.le_floor_iff]
      linarith
  · apply le_antisymm
    · rw [Rat.ceil_le_iff]
      linarith
    · rw [← Int.sub_one_lt_iff, Rat.lt_ceil_iff]
      push_cast
      linarith

theorem roundHalfAway_intCast (n : Int) : roundHalfAway n = n :=
  roundHalfAway_eq_of_abs_sub_lt (by rw [sub_self, abs_zero]; norm_num)

namespace LinearProgram

variable {lp : LinearProgram ExtendedRat}

theorem accepts_of_holds {n : Nat} {c : Constraint ExtendedRat n} {q : Rat}
    (h : c.relation.Holds (.finite q) c.rhs) : c.accepts (.finite q) = true := by
  rw [c.accepts_finite_iff, Bound.Allows, Constraint.rowBound]
  cases hrelation : c.relation with
  | le =>
      rw [hrelation] at h
      exact ⟨rfl, ExtendedRat.le_add_tolerance h⟩
  | ge =>
      rw [hrelation] at h
      exact ⟨ExtendedRat.sub_tolerance_le h, rfl⟩
  | eq =>
      rw [hrelation] at h
      exact ⟨ExtendedRat.sub_tolerance_le h.2, ExtendedRat.le_add_tolerance h.1⟩

theorem admits_of_admitsExactly {v : Variable ExtendedRat} {q : Rat}
    (hlimits : v.binary = true ∨ admitsNothing v.lower v.upper = false)
    (h : v.AdmitsExactly q) : v.admits (.finite q) = true := by
  obtain ⟨⟨hlower, hupper⟩, hword⟩ := h
  rw [Variable.admits_finite_iff hlimits, Bound.Allows, Variable.limits_column hlimits]
  refine ⟨⟨ExtendedRat.sub_tolerance_le hlower, ExtendedRat.le_add_tolerance hupper⟩, ?_⟩
  intro hkind
  obtain ⟨n, rfl, -⟩ := hword ((Variable.column_eq_integer_iff v).1 hkind)
  rw [roundHalfAway_intCast, sub_self, abs_zero, ExtendedRat.tolerance_eq,
    ExtendedRat.finite_le_finite]
  norm_num

/-- An exact point is feasible. -/
theorem ExactPoint.isFeasible (hlp : lp.Describable) {x : List Rat} (h : lp.ExactPoint x) :
    lp.isFeasible (x.map .finite) = .ok true := by
  rw [lp.isFeasible_eq_ok_true_iff h.length_eq]
  constructor
  · refine ((List.forall₂_and_left _ _).2 ⟨hlp.limits, h.unknowns⟩).imp ?_
    intro v q hv
    exact admits_of_admitsExactly hv.1 hv.2
  · intro c hc
    obtain ⟨q, hq⟩ := c.coefficients.exists_formAt_eq_finite h.length_eq (hlp.coefficients c hc)
    have hholds := h.constraints c hc
    rw [hq] at hholds ⊢
    exact accepts_of_holds hholds

end LinearProgram

end LinearModel
