import Mathlib
import LinearModel.Program.Parts
import LinearModel.Proofs.ExactPoint

/-!
# Rounding a feasible point

A feasible point may miss its bounds and the integers by the tolerance. Rounded to an integer, the
value of an integer variable misses neither: it moves by no more than the tolerance, and an integer
that lies past an integral bound lies past it by one at least, which is more than the bound and the
integer can be missed by together (`Variable.round_within`). A binary variable has the integral
bounds zero and one, whatever was declared for it.
-/

namespace LinearModel

section Rounding

variable {q : Rat} {n : Int}

/-- The rounded value fits a signed 64-bit word if the value does, so that nothing is held back. -/
theorem toInt64_round (hround : |q - roundHalfAway q| ≤ 1 / 1000000000)
    (hq : |q| ≤ greatestInt64) :
    (Number.exact (ExtendedRat.finite q)).round.toInt64 = roundHalfAway q := by
  obtain ⟨hbelow, habove⟩ := abs_le.1 hq
  obtain ⟨hdown, hup⟩ := abs_le.1 hround
  have hleast : leastInt64 ≤ roundHalfAway q := by
    have hlt : ((-greatestInt64 - 1 : Int) : Rat) < roundHalfAway q := by
      push_cast
      linarith
    exact (Int.cast_lt.1 hlt).le
  have hgreatest : roundHalfAway q ≤ greatestInt64 := by
    have hlt : (roundHalfAway q : Rat) < (greatestInt64 + 1 : Int) := by
      push_cast
      linarith
    exact Int.lt_add_one_iff.1 (Int.cast_lt.1 hlt)
  show clampToInt64 (roundHalfAway q) = _
  rw [clampToInt64, min_eq_left hgreatest, max_eq_right hleast]

variable {w : Whole}

/-- An integer near a value that is not too far below an integral limit is not below the limit. -/
theorem Whole.toExtended_le_finite (hw : w ≠ .nan) (hround : |q - n| ≤ 1 / 1000000000)
    (hlower : Number.lt (.finite q) (w.toExtended - Number.tolerance) = false) :
    w.toExtended ≤ .finite n := by
  cases w with
  | nan => exact absurd rfl hw
  | negInf => rfl
  | posInf => exact Bool.noConfusion hlower
  | int l =>
      have hlower : (l : Rat) - 1 / 1000000000 ≤ q := by
        rw [toExtended, ExtendedRat.tolerance_eq, ExtendedRat.finite_sub_finite] at hlower
        exact not_lt.1 (of_decide_eq_false hlower)
      rw [Whole.toExtended, ExtendedRat.finite_le_finite, Int.cast_le]
      by_contra hlt
      have hgap : (n : Rat) + 1 ≤ l := by exact_mod_cast not_le.1 hlt
      linarith [(abs_le.1 hround).2]

theorem Whole.finite_le_toExtended (hw : w ≠ .nan) (hround : |q - n| ≤ 1 / 1000000000)
    (hupper : Number.lt (w.toExtended + Number.tolerance) (.finite q) = false) :
    .finite n ≤ w.toExtended := by
  cases w with
  | nan => exact absurd rfl hw
  | negInf => exact Bool.noConfusion hupper
  | posInf => rfl
  | int u =>
      have hupper : q ≤ (u : Rat) + 1 / 1000000000 := not_lt.1 (of_decide_eq_false hupper)
      rw [Whole.toExtended, ExtendedRat.finite_le_finite, Int.cast_le]
      by_contra hlt
      have hgap : (u : Rat) + 1 ≤ n := by exact_mod_cast not_le.1 hlt
      linarith [(abs_le.1 hround).1]

end Rounding

/-- An integer, or infinite on either side. -/
def ExtendedRat.IsWhole (a : ExtendedRat) : Prop := ∃ w : Whole, w ≠ .nan ∧ a = w.toExtended

namespace Variable

variable {v : Variable ExtendedRat} {q : Rat}

/-- What is asked of a value, side by side: nothing here depends on the bounds being in order. -/
theorem admits_finite_iff_lt (v : Variable ExtendedRat) (q : Rat) :
    v.admits (.finite q) = true ↔
      Number.lt (.finite q) (v.effectiveBounds.1 - Number.tolerance) = false ∧
        Number.lt (v.effectiveBounds.2 + Number.tolerance) (.finite q) = false ∧
        ((v.integer || v.binary) = true → |q - roundHalfAway q| ≤ 1 / 1000000000) := by
  have hnear : |q - roundHalfAway q| ≤ 1 / 1000000000 ↔
      nearInteger (ExtendedRat.finite q) = true := by
    rw [nearInteger_finite_iff, ExtendedRat.tolerance_eq, ExtendedRat.finite_le_finite]
  rw [hnear, admits]
  simp [Number.isNaN, Number.exact, and_assoc, imp_iff_not_or]

/-- The rounded value of an integer variable is near the value and between the effective bounds, if
these are integers or infinite. -/
theorem round_within (h : v.admits (.finite q) = true) (hinteger : (v.integer || v.binary) = true)
    (hlower : v.effectiveBounds.1.IsWhole) (hupper : v.effectiveBounds.2.IsWhole) :
    v.effectiveBounds.1 ≤ .finite (roundHalfAway q) ∧
      .finite (roundHalfAway q) ≤ v.effectiveBounds.2 := by
  obtain ⟨hbelow, habove, hround⟩ := (v.admits_finite_iff_lt q).1 h
  obtain ⟨l, hl, hlower⟩ := hlower
  obtain ⟨u, hu, hupper⟩ := hupper
  rw [hlower] at hbelow ⊢
  rw [hupper] at habove ⊢
  exact ⟨Whole.toExtended_le_finite hl (hround hinteger) hbelow,
    Whole.finite_le_toExtended hu (hround hinteger) habove⟩

end Variable

namespace LinearProgram

variable {lp : LinearProgram ExtendedRat} {x : List ExtendedRat}

theorem admits_of_isFeasible (h : lp.isFeasible x = .ok true) {j : Nat} {a : ExtendedRat}
    (ha : x[j]? = some a) : ∃ v, lp.unknowns[j]? = some v ∧ v.admits a = true := by
  have hlength : x.length = lp.dimension := by
    by_contra hne
    rw [lp.isFeasible_eq_error hne] at h
    cases h
  have hj : j < lp.dimension := hlength ▸ (List.getElem?_eq_some_iff.1 ha).1
  rw [lp.isFeasible_of_length hlength, Except.ok.injEq, Bool.and_eq_true, List.all_eq_true] at h
  refine ⟨lp.unknowns[j], Vector.getElem?_eq_getElem hj, h.1 (lp.unknowns[j], a) ?_⟩
  refine List.mem_of_getElem? (i := j) (List.getElem?_zip_eq_some.2 ⟨?_, ha⟩)
  rw [Vector.getElem?_toList, Vector.getElem?_eq_getElem hj]

/-- One variable that is held to the integer `l` from both sides. -/
def pinned (l : Int) : LinearProgram ExtendedRat :=
  (Origin.dimension 1).program.revise
    [.integer 0, .lowerBound 0 (.finite l), .upperBound 0 (.finite l)]

theorem isFeasible_pinned (l : Int) {d : Rat} (hd : |d| ≤ 1 / 1000000000) :
    (pinned l).isFeasible [.finite (l + d)] = .ok true := by
  obtain ⟨hbelow, habove⟩ := abs_le.1 hd
  have hround : roundHalfAway (l + d) = l := by
    refine roundHalfAway_eq_of_abs_sub_lt ?_
    rw [add_sub_cancel_left]
    linarith
  have hlower : Number.lt (ExtendedRat.finite (l + d)) (.finite l - Number.tolerance) = false := by
    rw [ExtendedRat.tolerance_eq, ExtendedRat.finite_sub_finite]
    exact decide_eq_false (by linarith)
  have hupper : Number.lt (ExtendedRat.finite l + Number.tolerance) (.finite (l + d)) = false :=
    decide_eq_false (by linarith)
  have hadmits : (⟨"x0", .finite l, .finite l, true, false⟩ : Variable ExtendedRat).admits
      (.finite (l + d)) = true := by
    refine (Variable.admits_finite_iff_lt _ _).2 ⟨hlower, hupper, fun _ => ?_⟩
    rwa [hround, add_sub_cancel_left]
  have hunknowns : (pinned l).unknowns.toList = [⟨"x0", .finite l, .finite l, true, false⟩] := rfl
  have hconstraints : (pinned l).constraints = [] := rfl
  rw [(pinned l).isFeasible_of_length rfl, hunknowns, hconstraints]
  exact congrArg (fun b => Except.ok (b && true && true)) hadmits

/-- Let a point be feasible and the value of an integer variable there be no larger than a signed
64-bit word can hold. The integer that it is rounded to misses it by no more than the tolerance. It
is zero or one if the variable is binary; and if the variable is not and its declared bounds are
integers or infinite, it lies between them. This is more than can be said of the value itself, which
may miss the bounds by the tolerance on either side. -/
theorem integerValues_within :
    (∀ (lp : LinearProgram ExtendedRat) (s : Solution ExtendedRat),
      lp.isFeasible s.values = .ok true → ∀ (j : Nat) (q : Rat), lp.isInteger j = true →
      s.values[j]? = some (.finite q) → |q| ≤ greatestInt64 →
      ∃ n, s.integerValues[j]? = some n ∧ .finite |n - q| ≤ (Number.tolerance : ExtendedRat) ∧
        (lp.isBinary j = true → n = 0 ∨ n = 1) ∧
        (lp.isBinary j = false → ∀ lower upper, lp.bounds j = .ok (lower, upper) →
          lower.IsWhole → upper.IsWhole → lower ≤ .finite n ∧ .finite n ≤ upper)) ∧
    ∀ l : Int, (pinned l).isInteger 0 = true ∧ (pinned l).isBinary 0 = false ∧
      (pinned l).bounds 0 = .ok (.finite l, .finite l) ∧
      (pinned l).isFeasible [.finite l - Number.tolerance] = .ok true ∧
      (pinned l).isFeasible [.finite l + Number.tolerance] = .ok true := by
  constructor
  · intro lp s hfeasible j q hinteger hvalue hrange
    obtain ⟨v, hv, hadmits⟩ := admits_of_isFeasible hfeasible hvalue
    have hbinary : lp.isBinary j = v.binary := by
      rw [isBinary, hv, Option.map_some, Option.getD_some]
    have hkind : (v.integer || v.binary) = true := by
      rwa [isInteger, hbinary, hv, Option.map_some, Option.getD_some] at hinteger
    have hround := ((v.admits_finite_iff_lt q).1 hadmits).2.2 hkind
    refine ⟨roundHalfAway q, ?_, ?_, fun h => ?_, fun h lower upper hbounds hlower hupper => ?_⟩
    · rw [Solution.integerValues, List.getElem?_map, hvalue, Option.map_some,
        toInt64_round hround hrange]
    · rw [ExtendedRat.tolerance_eq, ExtendedRat.finite_le_finite, abs_sub_comm]
      exact hround
    · have heffective : v.effectiveBounds = (.finite (0 : Int), .finite (1 : Int)) := by
        rw [Variable.effectiveBounds, if_pos (hbinary.symm.trans h)]
        rfl
      have hwithin := Variable.round_within hadmits hkind
        (heffective ▸ ⟨.int 0, by decide, rfl⟩) (heffective ▸ ⟨.int 1, by decide, rfl⟩)
      rw [heffective, ExtendedRat.finite_le_finite, ExtendedRat.finite_le_finite, Int.cast_le,
        Int.cast_le] at hwithin
      omega
    · have heffective : v.effectiveBounds = (lower, upper) := by
        rw [bounds, hv] at hbounds
        rw [Variable.effectiveBounds, hbinary.symm.trans h]
        exact Except.ok.inj hbounds
      have hwithin := Variable.round_within hadmits hkind (heffective ▸ hlower)
        (heffective ▸ hupper)
      rwa [heffective] at hwithin
  · intro l
    refine ⟨rfl, rfl, rfl, ?_, ?_⟩
    · have h := isFeasible_pinned l (d := -(1 / 1000000000)) (by norm_num)
      rwa [← sub_eq_add_neg, ← ExtendedRat.finite_sub_finite] at h
    · exact isFeasible_pinned l (d := 1 / 1000000000) (by norm_num)

/-- An integer from minus three on, and a binary variable with five for a lower bound. -/
def integerAndBinary : LinearProgram ExtendedRat :=
  (Origin.dimension 2).program.revise
    [.integer 0, .lowerBound 0 (.finite (-3)), .binary 1, .lowerBound 1 (.finite 5)]

/-- Values just past the ends: the first is rounded up to its bound, the second down to one. -/
def pastTheEnds : Solution ExtendedRat :=
  ⟨.optimal, [.finite (-3000000001 / 1000000000), .finite (1000000001 / 1000000000)], .finite 0⟩

theorem integerValues_pastTheEnds :
    integerAndBinary.isFeasible pastTheEnds.values = .ok true ∧
      (∃ n : Int, pastTheEnds.integerValues[0]? = some n ∧
        .finite |(n : Rat) - -3000000001 / 1000000000| ≤ (Number.tolerance : ExtendedRat) ∧
        ExtendedRat.finite (-3) ≤ .finite n) ∧
      ∃ n : Int, pastTheEnds.integerValues[1]? = some n ∧ (n = 0 ∨ n = 1) := by
  have hfeasible : integerAndBinary.isFeasible pastTheEnds.values = .ok true := by decide +kernel
  have hfirst : |(-3000000001 / 1000000000 : Rat)| ≤ greatestInt64 := by
    rw [greatestInt64, abs_le]
    norm_num
  have hsecond : |(1000000001 / 1000000000 : Rat)| ≤ greatestInt64 := by
    rw [greatestInt64, abs_le]
    norm_num
  obtain ⟨n, hn, hround, -, hbounds⟩ := integerValues_within.1 integerAndBinary pastTheEnds
    hfeasible 0 _ rfl rfl hfirst
  obtain ⟨k, hk, -, hbinary, -⟩ := integerValues_within.1 integerAndBinary pastTheEnds hfeasible 1 _
    rfl rfl hsecond
  exact ⟨hfeasible, ⟨n, hn, hround, (hbounds rfl (.finite (-3)) .posInf rfl
    ⟨.int (-3), by decide, by decide⟩ ⟨.posInf, by decide, rfl⟩).1⟩, k, hk, hbinary rfl⟩

end LinearProgram

end LinearModel
