import Mathlib
import LinearModel.Proofs.Tolerance

/-!
# What a description means

A recorded description can be read without the program it came from: which points it accepts, and
what the objective is at a point (`Recorder.Accepts`, `Recorder.objectiveAt`). Whatever program was
described, the points that it finds feasible are those that its description accepts, and the
objectives agree.
-/

namespace LinearModel

namespace Recorder

/-- The point keeps the recorded column limits, integer kinds and row limits, each within the
tolerance. -/
structure Accepts (r : Recorder ExtendedRat) (x : List Rat) : Prop where
  limits : List.Forall₂ (fun bound q => bound.Allows Number.tolerance (.finite q)) r.columnBounds x
  kinds : List.Forall₂ (fun kind q => kind = .integer →
    ExtendedRat.finite |q - roundHalfAway q| ≤ Number.tolerance) r.columnKinds x
  rows : ∀ (i : Nat) (bound : Bound ExtendedRat), r.rowBounds[i]? = some bound →
    bound.Allows Number.tolerance (r.matrix.rowSum (i + 1) x)

def objectiveAt (r : Recorder ExtendedRat) (x : List Rat) : ExtendedRat :=
  Scalar.sum (List.zipWith (fun a q => a * .finite q) r.objective x)

end Recorder

namespace LinearProgram

variable {lp : LinearProgram ExtendedRat}

theorem rowSum_coordinates {i : Nat} {c : Constraint ExtendedRat lp.dimension}
    (hc : lp.constraints[i]? = some c) {x : List Rat} (hx : x.length = lp.dimension) :
    lp.coordinates.rowSum (i + 1) x = c.coefficients.formAt x := by
  rw [CoordinateList.rowSum_eq, lp.termsOf_coordinates hc, sum_ascendingEntries c hx]

theorem accepts_formAt_iff (hlp : lp.Describable) {i : Nat}
    {c : Constraint ExtendedRat lp.dimension} (hc : lp.constraints[i]? = some c) {x : List Rat}
    (hx : x.length = lp.dimension) :
    c.accepts (c.coefficients.formAt x) = true ↔
      c.rowBound.Allows Number.tolerance (lp.coordinates.rowSum (i + 1) x) := by
  obtain ⟨q, hq⟩ := c.coefficients.exists_formAt_eq_finite hx
    (hlp.coefficients c (List.mem_of_getElem? hc))
  rw [rowSum_coordinates hc hx, hq, c.accepts_finite_iff]

/-- The description of a program accepts the points that the program finds feasible. -/
theorem accepts_iff_isFeasible (hlp : lp.Describable) {r : Recorder ExtendedRat}
    {engine : Engine ExtendedRat} (hr : r.Mirrors (.holding engine lp)) {x : List Rat}
    (hx : x.length = lp.dimension) :
    r.Accepts x ↔ lp.isFeasible (x.map .finite) = .ok true := by
  have hbounds : r.columnBounds = lp.unknowns.toList.map fun v => v.column.1 :=
    hr.columnBounds.trans (BufferedEngine.map_columns_holding engine lp fun _ _ => rfl)
  have hkinds : r.columnKinds = lp.unknowns.toList.map fun v => v.column.2 :=
    hr.columnKinds.trans (BufferedEngine.map_columns_holding engine lp fun _ _ => rfl)
  have hrows : r.rowBounds = lp.constraints.map Constraint.rowBound :=
    hr.rowBounds.trans (List.map_map ..)
  have hmatrix : r.matrix = lp.coordinates := hr.matrix
  rw [lp.isFeasible_eq_ok_true_iff hx]
  constructor
  · rintro ⟨hl, hk, hrow⟩
    rw [hbounds, List.forall₂_map_left_iff] at hl
    rw [hkinds, List.forall₂_map_left_iff] at hk
    constructor
    · refine List.Forall₂.mp ?_ ((List.forall₂_and_left _ _).2 ⟨hlp.limits, hl⟩) hk
      intro v q hv hkind
      exact (Variable.admits_finite_iff hv.1 q).2 ⟨hv.2, hkind⟩
    · intro c hc
      obtain ⟨i, hi⟩ := List.getElem?_of_mem hc
      rw [accepts_formAt_iff hlp hi hx, ← hmatrix]
      exact hrow i c.rowBound (by rw [hrows, List.getElem?_map, hi]; rfl)
  · rintro ⟨hadmits, haccepts⟩
    have hboth := (List.forall₂_and_left _ _).2 ⟨hlp.limits, hadmits⟩
    refine ⟨?_, ?_, ?_⟩
    · rw [hbounds, List.forall₂_map_left_iff]
      exact hboth.imp fun v q hv => ((Variable.admits_finite_iff hv.1 q).1 hv.2).1
    · rw [hkinds, List.forall₂_map_left_iff]
      exact hboth.imp fun v q hv => ((Variable.admits_finite_iff hv.1 q).1 hv.2).2
    · intro i bound hbound
      rw [hrows, List.getElem?_map, Option.map_eq_some_iff] at hbound
      obtain ⟨c, hc, rfl⟩ := hbound
      rw [hmatrix, ← accepts_formAt_iff hlp hc hx]
      exact haccepts c (List.mem_of_getElem? hc)

theorem direction_eq_minimize_iff {r : Recorder ExtendedRat} {engine : Engine ExtendedRat}
    (hr : r.Mirrors (.holding engine lp)) :
    r.direction = some .minimize ↔ lp.minimize = true := by
  have hdirection : r.direction.getD .maximize = lp.direction := hr.direction
  calc r.direction = some .minimize
      ↔ r.direction.getD .maximize = .minimize := by cases r.direction <;> simp
    _ ↔ lp.direction = .minimize := by rw [hdirection]
    _ ↔ lp.minimize = true := by
        rw [direction]
        cases lp.minimize <;> simp

end LinearProgram

/-- Describing a program keeps its meaning. -/
theorem Session.describe_keeps_meaning (s : Session (Recorder ExtendedRat))
    (lp : LinearProgram ExtendedRat) (h : (s.describe lp).1 = .ok ()) (x : List Rat) :
    ((∃ e, lp.isFeasible (x.map .finite) = .error e) ↔ x.length ≠ lp.dimension) ∧
    (x.length = lp.dimension →
      (lp.isFeasible (x.map .finite) = .ok true ↔ (s.describe lp).2.backend.Accepts x) ∧
      lp.evaluate (x.map .finite) = .ok ((s.describe lp).2.backend.objectiveAt x)) ∧
    ((s.describe lp).2.backend.direction = some .minimize ↔ lp.minimize = true) := by
  have hlp : lp.Describable := (s.describe_recorder_eq_ok_iff lp).1 h
  have hr := s.mirrors_describe hlp
  refine ⟨?_, ?_, ?_⟩
  · constructor
    · rintro ⟨e, he⟩ hx
      rw [lp.isFeasible_eq_ok hx] at he
      cases he
    · intro hx
      exact ⟨_, lp.isFeasible_eq_error (by rwa [List.length_map])⟩
  · intro hx
    refine ⟨(lp.accepts_iff_isFeasible hlp hr hx).symm, ?_⟩
    rw [lp.evaluate_eq_ok hx, Recorder.objectiveAt, hr.objective,
      BufferedEngine.map_objective_holding]
    rfl
  · exact lp.direction_eq_minimize_iff hr

def mixedProgram : LinearProgram ExtendedRat :=
  ⟨3, #v[⟨"b", .finite 5, .finite 7, false, true⟩, ⟨"n", .finite 0, .posInf, true, false⟩,
      ⟨"x", .negInf, .finite 4, false, false⟩],
    .ofDense [.finite 3, .finite 0, .finite (1 / 2)], true, true, true,
    [⟨"p", .ofDense [.finite 1, .finite 0, .finite 1], .le, .finite 3⟩,
      ⟨"q", .ofDense [.finite 0, .finite 1, .finite 1], .ge, .finite 1⟩,
      ⟨"r", .ofDense [.finite 1, .finite 1, .finite (-2)], .eq, .finite 2⟩]⟩

/-- The description of `mixedProgram` accepts a point that it finds feasible. -/
theorem describe_mixedProgram :
    ((Session.new (Recorder.new : Recorder ExtendedRat)).describe mixedProgram).1 = .ok () ∧
      ((Session.new Recorder.new).describe mixedProgram).2.backend.Accepts [1, 2, 1 / 2] := by
  have hlp : mixedProgram.Describable := ⟨by decide, by decide⟩
  have h := (Session.new Recorder.new).describe_recorder_eq_ok_iff mixedProgram |>.2 hlp
  have hmeaning := (Session.new Recorder.new).describe_keeps_meaning mixedProgram h [1, 2, 1 / 2]
  exact ⟨h, (hmeaning.2.1 rfl).1.1 (by decide +kernel)⟩

end LinearModel
