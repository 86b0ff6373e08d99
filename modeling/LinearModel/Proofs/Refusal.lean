import Mathlib
import LinearModel.Proofs.Described
import LinearModel.Proofs.First
import LinearModel.Proofs.Order

/-!
# Why a program cannot be described

There are two reasons. The declared limits of a variable that is not binary have no finite number
between them (`Variable.Empty`), or a coefficient of a constraint is not finite. Columns are looked
at in order, so it is the first such variable that is named; the coordinate list is sorted, so it is
the first such coefficient, rows first (`LinearProgram.FirstNonfinite`).
-/

namespace LinearModel

/-- The variable is not binary, and no finite number lies between its declared limits. -/
def Variable.Empty {α : Type} [Number α] (v : Variable α) : Prop :=
  v.binary = false ∧ ∀ x : α, Number.isFinite x = true →
    ¬ (Number.le v.lower x = true ∧ Number.le x v.upper = true)

section Limits

variable {α : Type} [Number α] [OrderedNumber α]

namespace LinearProgram

/-- Limits are accepted when both are numbers, in order, and no infinite one points inward. -/
theorem admitsNothing_eq_false_iff (lower upper : α) :
    admitsNothing lower upper = false ↔
      Number.exact lower ≠ .nan ∧ Number.exact upper ≠ .nan ∧
        Number.le lower upper = true ∧ Number.exact lower ≠ .posInf ∧
          Number.exact upper ≠ .negInf := by
  rw [admitsNothing, OrderedNumber.beq_eq lower, OrderedNumber.beq_eq upper,
    OrderedNumber.exact_posInf, OrderedNumber.exact_negInf]
  simp only [Bool.or_eq_false_iff, Number.isNaN_eq_false_iff, ExtendedRat.beq_posInf_eq_false_iff,
    ExtendedRat.beq_negInf_eq_false_iff, and_assoc]
  refine and_congr_right fun hlower => and_congr_right fun hupper => and_congr_left fun _ => ?_
  rw [OrderedNumber.lt_eq, OrderedNumber.le_eq]
  exact ExtendedRat.lt_eq_false_iff hupper hlower

/-- Limits are accepted exactly when some finite number lies between them. -/
theorem admitsNothing_eq_false_iff_exists (lower upper : α) :
    admitsNothing lower upper = false ↔
      ∃ x : α, Number.isFinite x = true ∧ Number.le lower x = true ∧ Number.le x upper = true := by
  rw [admitsNothing_eq_false_iff]
  constructor
  · rintro ⟨hlower, hupper, hle, hlower', hupper'⟩
    have hself {x : α} {q : Rat} (hx : Number.exact x = .finite q) : Number.le x x = true := by
      rw [OrderedNumber.le_eq, hx]
      exact ExtendedRat.finite_le_finite.2 le_rfl
    -- A finite limit will do; with none, zero lies between the two infinite ones.
    cases hl : Number.exact lower with
    | nan => exact absurd hl hlower
    | posInf => exact absurd hl hlower'
    | finite p => exact ⟨lower, Number.isFinite_iff.2 ⟨p, hl⟩, hself hl, hle⟩
    | negInf =>
        cases hu : Number.exact upper with
        | nan => exact absurd hu hupper
        | negInf => exact absurd hu hupper'
        | finite q => exact ⟨upper, Number.isFinite_iff.2 ⟨q, hu⟩, hle, hself hu⟩
        | posInf =>
            refine ⟨0, Number.isFinite_iff.2 ⟨0, LawfulNumber.exact_zero⟩, ?_, ?_⟩
            · rw [OrderedNumber.le_eq, hl, LawfulNumber.exact_zero]
              rfl
            · rw [OrderedNumber.le_eq, hu, LawfulNumber.exact_zero]
              rfl
  · rintro ⟨x, hx, hlower, hupper⟩
    obtain ⟨q, hq⟩ := Number.isFinite_iff.1 hx
    rw [OrderedNumber.le_eq, hq] at hlower hupper
    obtain ⟨hl, hl'⟩ := ExtendedRat.ne_of_le_finite hlower
    obtain ⟨hu, hu'⟩ := ExtendedRat.ne_of_finite_le hupper
    refine ⟨hl, hu, ?_, hl', hu'⟩
    rw [OrderedNumber.le_eq]
    exact ExtendedRat.le_of_le_finite_of_finite_le hlower hupper

end LinearProgram

theorem Variable.empty_iff (v : Variable α) :
    v.Empty ↔ v.binary = false ∧ LinearProgram.admitsNothing v.lower v.upper = true := by
  rw [Variable.Empty, ← Bool.not_eq_false (LinearProgram.admitsNothing _ _),
    LinearProgram.admitsNothing_eq_false_iff_exists]
  simp only [not_exists, not_and]

namespace LinearProgram

theorem columnBound_of_empty (lp : LinearProgram α) {j : Nat} {v : Variable α}
    (hv : lp.unknowns[j]? = some v) (hempty : v.Empty) :
    lp.columnBound j = .error (.invalidBounds j v.lower v.upper) := by
  rw [lp.columnBound_eq hv, if_pos ((Variable.empty_iff v).1 hempty)]

theorem columnBound_of_not_empty (lp : LinearProgram α) {j : Nat} {v : Variable α}
    (hv : lp.unknowns[j]? = some v) (hempty : ¬ v.Empty) : lp.columnBound j = .ok v.column := by
  rw [lp.columnBound_eq hv, if_neg (mt (Variable.empty_iff v).2 hempty)]

/-- The columns from index `k` on are refused at the first variable with nothing between its
limits. -/
theorem columnBounds_range'_eq_error_iff (lp : LinearProgram α) (k : Nat) (vs : List (Variable α))
    (hvs : ∀ i, i < vs.length → lp.unknowns[k + i]? = vs[i]?) (e : SolveError α) :
    lp.columnBounds (List.range' k vs.length) = .error e ↔
      ∃ j v, FirstAt Variable.Empty vs j v ∧ e = .invalidBounds (k + j) v.lower v.upper := by
  induction vs generalizing k with
  | nil => simp [columnBounds, FirstAt.not_nil]
  | cons v vs ih =>
      have hv : lp.unknowns[k]? = some v := hvs 0 (Nat.succ_pos _)
      have hrest := ih (k + 1) fun i hi => by
        rw [Nat.add_right_comm]
        exact hvs (i + 1) (Nat.succ_lt_succ hi)
      rw [List.length_cons, List.range'_succ, columnBounds, ← Nat.or_exists_add_one]
      by_cases hempty : v.Empty
      · rw [lp.columnBound_of_empty hv hempty]
        simp [bind, Except.bind, hempty, eq_comm]
      · rw [lp.columnBound_of_not_empty hv hempty]
        show (do return v.column :: (← lp.columnBounds (List.range' (k + 1) vs.length))) =
          .error e ↔ _
        simp only [← map_eq_pure_bind, map_eq_error_iff, hrest,
          FirstAt.cons_zero_iff, FirstAt.cons_succ_iff, Nat.add_assoc, Nat.add_comm 1]
        simp [hempty]

theorem columnBounds_eq_ok_iff_not_empty (lp : LinearProgram α)
    (columns : List (Bound α × VariableKind)) :
    lp.columnBounds (List.range lp.dimension) = .ok columns ↔
      columns = lp.unknowns.toList.map Variable.column ∧
        ∀ v ∈ lp.unknowns.toList, ¬ v.Empty := by
  rw [columnBounds_range_eq_ok_iff]
  refine and_congr_right fun _ => forall₂_congr fun v _ => ?_
  rw [Variable.empty_iff, not_and_or, Bool.not_eq_false, Bool.not_eq_true]

/-- Columns are refused at the first variable with nothing between its limits. -/
theorem columnBounds_eq_error_iff (lp : LinearProgram α) (e : SolveError α) :
    lp.columnBounds (List.range lp.dimension) = .error e ↔
      ∃ j v, FirstAt Variable.Empty lp.unknowns.toList j v ∧
        e = .invalidBounds j v.lower v.upper := by
  have hrange := lp.columnBounds_range'_eq_error_iff 0 lp.unknowns.toList (fun i _ => by simp) e
  simpa [List.range_eq_range'] using hrange

end LinearProgram

end Limits

section Coefficients

variable {α : Type}

theorem LinearProgram.precedes_asymm (s t : Nat × Nat × α) (h : Precedes s t) :
    ¬ Precedes t s := by
  unfold Precedes at *
  omega

variable [Number α]

theorem CoordinateList.validate_eq_error_iff (m : CoordinateList α) (rows cols : Nat)
    (e : SolveError α) :
    m.validate rows cols = .error e ↔ ∃ row col v,
      m.triples.find? (fun t => !admits rows cols t) = some (row, col, v) ∧
        e = .invalidEntry row col v := by
  rw [validate]
  split
  · next row col v hfound =>
    simp [hfound, eq_comm]
  · next hnone =>
    simp [hnone]

namespace LinearProgram

/-- The coefficient of variable `j` in constraint `i`, both counted from zero; zero where there is
no such constraint or variable. -/
def coefficient (lp : LinearProgram α) (i j : Nat) : α :=
  (lp.constraints[i]?.map fun c => c.coefficients.get j).getD 0

/-- The coefficient of variable `j` in constraint `i` is `a`, which is not finite. All coefficients
of earlier constraints are, and so are those of earlier variables in the same one. -/
structure FirstNonfinite (lp : LinearProgram α) (i j : Nat) (a : α) : Prop where
  coefficient_eq : lp.coefficient i j = a
  not_finite : Number.isFinite a = false
  least : ∀ i' j', i' < i ∨ i' = i ∧ j' < j → Number.isFinite (lp.coefficient i' j') = true

theorem coefficient_of_stored (lp : LinearProgram α) {i j : Nat} {c : Constraint α lp.dimension}
    {v : α} (hc : lp.constraints[i]? = some c) (hv : c.coefficients.find? j = some v) :
    lp.coefficient i j = v := by
  rw [coefficient, hc, Option.map_some, Option.getD_some, Cells.get, hv, Option.getD_some]

variable [LawfulNumber α] (lp : LinearProgram α)

/-- A coefficient that does not stand for zero is stored. -/
theorem exists_stored {i j : Nat} (h : Number.exact (lp.coefficient i j) ≠ .finite 0) :
    ∃ c, lp.constraints[i]? = some c ∧ c.coefficients.find? j = some (lp.coefficient i j) := by
  cases hc : lp.constraints[i]? with
  | none =>
      rw [coefficient, hc] at h
      exact absurd LawfulNumber.exact_zero h
  | some c =>
      cases hv : c.coefficients.find? j with
      | some v => exact ⟨c, rfl, by rw [hv, lp.coefficient_of_stored hc hv]⟩
      | none =>
          rw [coefficient, hc, Option.map_some, Option.getD_some, Cells.get, hv] at h
          exact absurd LawfulNumber.exact_zero h

theorem coefficient_of_mem_triples {row col : Nat} {v : α}
    (h : (row, col, v) ∈ lp.coordinates.triples) : lp.coefficient (row - 1) (col - 1) = v := by
  obtain ⟨-, -, -, -, c, hc, hv, -⟩ := (mem_triples_coordinates_iff lp row col v).1 h
  exact lp.coefficient_of_stored hc hv

/-- What is not finite is stored, and is not left out as a zero. -/
theorem mem_triples_of_not_finite {i j : Nat} (h : Number.isFinite (lp.coefficient i j) = false) :
    (i + 1, j + 1, lp.coefficient i j) ∈ lp.coordinates.triples := by
  have hzero : Number.exact (lp.coefficient i j) ≠ .finite 0 := fun hexact => by
    rw [isFinite_of_exact_eq_zero hexact] at h
    cases h
  obtain ⟨c, hc, hv⟩ := lp.exists_stored hzero
  have hi : i < lp.constraints.length := (List.getElem?_eq_some_iff.1 hc).1
  have hj : j < lp.dimension :=
    c.coefficients.lt_of_mem_indices ((c.coefficients.mem_indices_iff j).2 (by rw [hv]; rfl))
  exact (mem_triples_coordinates_iff lp _ _ _).2
    ⟨Nat.succ_pos i, hi, Nat.succ_pos j, hj, c, hc, hv, hzero⟩

theorem admits_of_mem_triples {t : Nat × Nat × α} (h : t ∈ lp.coordinates.triples) :
    CoordinateList.admits lp.constraints.length lp.dimension t = Number.isFinite t.2.2 := by
  obtain ⟨row, col, v⟩ := t
  obtain ⟨hrow, hle, hcol, hle', -, -, -, hzero⟩ := (mem_triples_coordinates_iff lp row col v).1 h
  rw [Bool.eq_iff_iff, CoordinateList.admits_eq_true_iff]
  simp [hrow, hle, hcol, hle', (beq_zero_eq_false_iff v).2 hzero]

/-- The matrix of a program is accepted when all coefficients are finite. -/
theorem validate_coordinates_eq_ok_iff_coefficient :
    lp.coordinates.validate lp.constraints.length lp.dimension = .ok () ↔
      ∀ i j, Number.isFinite (lp.coefficient i j) = true := by
  rw [CoordinateList.validate_eq_ok_iff]
  constructor
  · intro hall i j
    by_contra hnot
    have hmem := lp.mem_triples_of_not_finite (Bool.eq_false_of_not_eq_true hnot)
    exact hnot (lp.admits_of_mem_triples hmem ▸ hall _ hmem)
  · rintro hfinite ⟨row, col, v⟩ hmem
    rw [lp.admits_of_mem_triples hmem, ← lp.coefficient_of_mem_triples hmem]
    exact hfinite _ _

/-- The first triple that is refused is that of the first coefficient that is not finite. -/
theorem find?_triples_eq_some_iff (t : Nat × Nat × α) :
    lp.coordinates.triples.find?
        (fun t => !CoordinateList.admits lp.constraints.length lp.dimension t) = some t ↔
      ∃ i j a, lp.FirstNonfinite i j a ∧ t = (i + 1, j + 1, a) := by
  have hsorted : lp.coordinates.triples.Pairwise Precedes := by
    rw [triples_coordinates]
    exact pairwise_triplesFrom 0 lp.constraints
  rw [find?_eq_some_iff_of_pairwise hsorted precedes_asymm]
  constructor
  · rintro ⟨hmem, hrefused, hfirst⟩
    obtain ⟨row, col, v⟩ := t
    obtain ⟨hrow, -, hcol, -⟩ := (mem_triples_coordinates_iff lp row col v).1 hmem
    obtain ⟨i, rfl⟩ := Nat.exists_eq_add_of_le' hrow
    obtain ⟨j, rfl⟩ := Nat.exists_eq_add_of_le' hcol
    rw [lp.admits_of_mem_triples hmem] at hrefused
    refine ⟨i, j, v, ⟨lp.coefficient_of_mem_triples hmem, by simpa using hrefused, ?_⟩, rfl⟩
    intro i' j' hbefore
    by_contra hnot
    have hmem' := lp.mem_triples_of_not_finite (Bool.eq_false_of_not_eq_true hnot)
    have haccepted := hfirst _ hmem'
      (hbefore.imp Nat.succ_lt_succ fun h => ⟨congrArg Nat.succ h.1, Nat.succ_lt_succ h.2⟩)
    rw [lp.admits_of_mem_triples hmem'] at haccepted
    simp [hnot] at haccepted
  · rintro ⟨i, j, a, h, rfl⟩
    obtain ⟨rfl, hnot, hleast⟩ := h
    have hmem := lp.mem_triples_of_not_finite hnot
    refine ⟨hmem, by simp [lp.admits_of_mem_triples hmem, hnot], ?_⟩
    rintro ⟨row, col, v⟩ hmem' hbefore
    obtain ⟨hrow, -, hcol, -⟩ := (mem_triples_coordinates_iff lp row col v).1 hmem'
    have hplace : row - 1 < i ∨ row - 1 = i ∧ col - 1 < j := by
      have hlexicographic : row < i + 1 ∨ row = i + 1 ∧ col < j + 1 := hbefore
      omega
    have hfinite := hleast _ _ hplace
    rw [lp.coefficient_of_mem_triples hmem'] at hfinite
    simp [lp.admits_of_mem_triples hmem', hfinite]

/-- The matrix of a program is refused at the first coefficient that is not finite. -/
theorem validate_coordinates_eq_error_iff (e : SolveError α) :
    lp.coordinates.validate lp.constraints.length lp.dimension = .error e ↔
      ∃ i j a, lp.FirstNonfinite i j a ∧ e = .invalidEntry (i + 1) (j + 1) a := by
  rw [CoordinateList.validate_eq_error_iff]
  simp only [find?_triples_eq_some_iff, Prod.mk.injEq]
  constructor
  · rintro ⟨row, col, v, ⟨i, j, a, h, hrow, hcol, hv⟩, rfl⟩
    exact ⟨i, j, a, h, by rw [hrow, hcol, hv]⟩
  · rintro ⟨i, j, a, h, rfl⟩
    exact ⟨i + 1, j + 1, a, ⟨i, j, a, h, rfl, rfl, rfl⟩, rfl⟩

end LinearProgram

end Coefficients

namespace LinearProgram

section Verdict

variable {α : Type} [Number α]

/-- The answer to a description: the limits of all variables are looked at first, then the
coefficients. -/
def verdict (lp : LinearProgram α) : Except (SolveError α) Unit := do
  let _ ← lp.columnBounds (List.range lp.dimension)
  lp.coordinates.validate lp.constraints.length lp.dimension

/-- The program is refused with an error, which names the first variable with nothing between its
limits or, where there is none, the first coefficient that is not finite. -/
inductive Refused (lp : LinearProgram α) : SolveError α → Prop where
  | bounds {j : Nat} {v : Variable α} (h : FirstAt Variable.Empty lp.unknowns.toList j v) :
      lp.Refused (.invalidBounds j v.lower v.upper)
  | entry {i j : Nat} {a : α} (hbounds : ∀ v ∈ lp.unknowns.toList, ¬ v.Empty)
      (h : lp.FirstNonfinite i j a) : lp.Refused (.invalidEntry (i + 1) (j + 1) a)

variable [OrderedNumber α] (lp : LinearProgram α)

/-- With something between all limits, it is for the coefficients to decide. -/
theorem verdict_of_forall_not_empty (h : ∀ v ∈ lp.unknowns.toList, ¬ v.Empty) :
    lp.verdict = lp.coordinates.validate lp.constraints.length lp.dimension := by
  rw [verdict, (lp.columnBounds_eq_ok_iff_not_empty _).2 ⟨rfl, h⟩]
  rfl

/-- With nothing between some limits, the coefficients do not matter. -/
theorem exists_verdict_eq_of_empty (h : ¬ ∀ v ∈ lp.unknowns.toList, ¬ v.Empty) :
    ∃ e, lp.columnBounds (List.range lp.dimension) = .error e ∧ lp.verdict = .error e := by
  cases hcolumns : lp.columnBounds (List.range lp.dimension) with
  | ok columns => exact absurd ((lp.columnBounds_eq_ok_iff_not_empty columns).1 hcolumns).2 h
  | error e =>
      refine ⟨e, rfl, ?_⟩
      rw [verdict, hcolumns]
      rfl

/-- What is named is the reason to refuse. -/
theorem verdict_eq_error_iff (e : SolveError α) : lp.verdict = .error e ↔ lp.Refused e := by
  by_cases hbounds : ∀ v ∈ lp.unknowns.toList, ¬ v.Empty
  · rw [lp.verdict_of_forall_not_empty hbounds, validate_coordinates_eq_error_iff]
    constructor
    · rintro ⟨i, j, a, h, rfl⟩
      exact .entry hbounds h
    · intro h
      cases h with
      | bounds h => exact absurd h.holds (hbounds _ h.mem)
      | entry _ h => exact ⟨_, _, _, h, rfl⟩
  · obtain ⟨e', hcolumns, hverdict⟩ := lp.exists_verdict_eq_of_empty hbounds
    have hsame : lp.verdict = .error e ↔ lp.columnBounds (List.range lp.dimension) = .error e := by
      rw [hverdict, hcolumns, Except.error.injEq, Except.error.injEq]
    rw [hsame, columnBounds_eq_error_iff]
    constructor
    · rintro ⟨j, v, h, rfl⟩
      exact .bounds h
    · intro h
      cases h with
      | bounds h => exact ⟨_, _, h, rfl⟩
      | entry hall _ => exact absurd hall hbounds

/-- Without a reason to refuse, a program is accepted. -/
theorem verdict_eq_ok_iff :
    lp.verdict = .ok () ↔ (∀ v ∈ lp.unknowns.toList, ¬ v.Empty) ∧
      ∀ i j, Number.isFinite (lp.coefficient i j) = true := by
  by_cases hbounds : ∀ v ∈ lp.unknowns.toList, ¬ v.Empty
  · rw [lp.verdict_of_forall_not_empty hbounds, validate_coordinates_eq_ok_iff_coefficient]
    exact ⟨fun h => ⟨hbounds, h⟩, fun h => h.2⟩
  · obtain ⟨e, -, hverdict⟩ := lp.exists_verdict_eq_of_empty hbounds
    rw [hverdict]
    constructor
    · intro h
      cases h
    · rintro ⟨h, -⟩
      exact absurd h hbounds

end Verdict

end LinearProgram

end LinearModel
