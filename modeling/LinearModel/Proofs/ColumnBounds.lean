import Mathlib
import LinearModel.Proofs.InStep
import LinearModel.Proofs.Refusal

/-!
# Column bounds

The kind of a bound is picked from which of two limits are finite, and only the sides that the kind
makes active are read back. An infinite limit that points inward, or one that is no number, would
come back as no limit at all. What is refused beforehand is exactly that and limits in the wrong
order: a range is refused when no finite number lies in it, and of any other nothing is lost
(`Bound.exact_limits_between`).
-/

namespace LinearModel

namespace BoundKind

/-- The lower limit of a bound of this kind counts. -/
def lowerActive : BoundKind → Bool
  | lower | double | fixed => true
  | free | upper => false

def upperActive : BoundKind → Bool
  | upper | double | fixed => true
  | free | lower => false

end BoundKind

namespace Bound

variable {α : Type} [Number α]

variable (lower upper : α)

/-- Exactly the finite sides are active. -/
theorem active_between :
    (between lower upper).kind.lowerActive = Number.isFinite lower ∧
      (between lower upper).kind.upperActive = Number.isFinite upper := by
  show (kindBetween lower upper).lowerActive = _ ∧ (kindBetween lower upper).upperActive = _
  unfold kindBetween
  cases Number.isFinite lower <;> cases Number.isFinite upper
  · exact ⟨rfl, rfl⟩
  · exact ⟨rfl, rfl⟩
  · exact ⟨rfl, rfl⟩
  · cases lower == upper <;> exact ⟨rfl, rfl⟩

theorem between_eq_fixed_iff :
    (between lower upper).kind = .fixed ↔
      Number.isFinite lower = true ∧ Number.isFinite upper = true ∧ (lower == upper) = true := by
  show kindBetween lower upper = .fixed ↔ _
  unfold kindBetween
  cases Number.isFinite lower <;> cases Number.isFinite upper <;> simp

variable {lower upper} [OrderedNumber α]

/-- Limits that leave something to choose come back with the values they had. Those of a fixed bound
may trade one zero for the other. -/
theorem exact_limits_between (h : LinearProgram.admitsNothing lower upper = false) :
    Number.exact (between lower upper).limits.1 = Number.exact lower ∧
      Number.exact (between lower upper).limits.2 = Number.exact upper := by
  obtain ⟨hlower, hupper, -, hlower', hupper'⟩ :=
    (LinearProgram.admitsNothing_eq_false_iff lower upper).1 h
  have hbelow (hl : Number.isFinite lower = false) : Number.exact lower = .negInf := by
    unfold Number.isFinite at hl
    cases hexact : Number.exact lower with
    | nan => exact absurd hexact hlower
    | negInf => rfl
    | finite p => rw [hexact] at hl; cases hl
    | posInf => exact absurd hexact hlower'
  have habove (hu : Number.isFinite upper = false) : Number.exact upper = .posInf := by
    unfold Number.isFinite at hu
    cases hexact : Number.exact upper with
    | nan => exact absurd hexact hupper
    | negInf => exact absurd hexact hupper'
    | finite q => rw [hexact] at hu; cases hu
    | posInf => rfl
  unfold between kindBetween limits
  cases hl : Number.isFinite lower <;> cases hu : Number.isFinite upper
  · exact ⟨OrderedNumber.exact_negInf.trans (hbelow hl).symm,
      OrderedNumber.exact_posInf.trans (habove hu).symm⟩
  · exact ⟨OrderedNumber.exact_negInf.trans (hbelow hl).symm, rfl⟩
  · exact ⟨rfl, OrderedNumber.exact_posInf.trans (habove hu).symm⟩
  · cases hequal : lower == upper with
    | false => exact ⟨rfl, rfl⟩
    | true =>
        refine ⟨rfl, ?_⟩
        rcases LawfulNumber.eq_or_zero_of_beq hequal with rfl | ⟨hzero, hzero'⟩
        · rfl
        · exact hzero.trans hzero'.symm

end Bound

namespace LinearProgram

theorem columnBound_of_binary {α : Type} [Number α] (lp : LinearProgram α) {j : Nat}
    (h : lp.isBinary j = true) : lp.columnBound j = .ok (.between 0 1, .integer) := by
  rw [columnBound, if_pos h]

theorem columnBound_of_le {α : Type} [Number α] (lp : LinearProgram α) {j : Nat}
    (h : lp.dimension ≤ j) :
    lp.columnBound j = .error (.algebra (.indexOutOfRange j lp.dimension)) := by
  have hnone : lp.unknowns[j]? = none := by simp [h]
  have hbinary : lp.isBinary j = false := by simp [isBinary, hnone]
  have hbounds : lp.bounds j = .error (.indexOutOfRange j lp.dimension) := by simp [bounds, hnone]
  rw [columnBound, hbinary, hbounds]
  rfl

/-- A column is refused exactly when no finite number lies between the declared limits of its
variable. Any other carries over their values, marks the finite sides as active, is fixed when these
are equal, and is an integer column when the variable is one. A binary variable has limits of its
own, zero and one, and past the last variable there is no column. -/
theorem columnBound_loses_nothing (lp : LinearProgram Float) (j : Nat) :
    (lp.dimension ≤ j →
      lp.columnBound j = .error (.algebra (.indexOutOfRange j lp.dimension))) ∧
    (lp.isBinary j = true → ∃ b, lp.columnBound j = .ok (b, .integer) ∧
      b.limits = (0, 1) ∧ b.kind = .double) ∧
    (j < lp.dimension → ∃ lower upper, lp.bounds j = .ok (lower, upper) ∧
      (lp.isBinary j = false →
        (lp.columnBound j = .error (.invalidBounds j lower upper) ↔
          ¬ ∃ x, Number.isFinite x = true ∧ Number.le lower x = true ∧ Number.le x upper = true) ∧
        ((∃ x, Number.isFinite x = true ∧ Number.le lower x = true ∧ Number.le x upper = true) →
          ∃ b kind, lp.columnBound j = .ok (b, kind) ∧
            Number.exact b.limits.1 = Number.exact lower ∧
            Number.exact b.limits.2 = Number.exact upper ∧
            b.kind.lowerActive = Number.isFinite lower ∧
            b.kind.upperActive = Number.isFinite upper ∧
            (b.kind = .fixed ↔ Number.isFinite lower = true ∧ Number.isFinite upper = true ∧
              (lower == upper) = true) ∧
            (kind = .integer ↔ lp.isInteger j = true)))) := by
  refine ⟨lp.columnBound_of_le, fun hbinary => ?_, fun hj => ?_⟩
  · exact ⟨_, lp.columnBound_of_binary hbinary, rfl, rfl⟩
  · obtain ⟨⟨lower, upper⟩, hbounds⟩ := (lp.bounds_eq_ok_iff j).2 hj
    refine ⟨lower, upper, hbounds, fun hbinary => ?_⟩
    have hcolumn : lp.columnBound j = if admitsNothing lower upper then
        .error (.invalidBounds j lower upper)
      else .ok (.between lower upper, if lp.isInteger j then .integer else .continuous) := by
      rw [columnBound, hbinary, hbounds]
      rfl
    rw [← admitsNothing_eq_false_iff_exists, hcolumn]
    cases hrange : admitsNothing lower upper with
    | true => exact ⟨iff_of_true rfl (by decide), fun h => absurd h (by decide)⟩
    | false =>
        obtain ⟨hlower, hupper⟩ := Bound.exact_limits_between hrange
        obtain ⟨hlower', hupper'⟩ := Bound.active_between lower upper
        refine ⟨iff_of_false (by rintro ⟨⟩) (not_not_intro rfl), fun _ => ⟨_, _, rfl, hlower,
          hupper, hlower', hupper', Bound.between_eq_fixed_iff lower upper, ?_⟩⟩
        cases lp.isInteger j <;> simp

end LinearProgram

end LinearModel
