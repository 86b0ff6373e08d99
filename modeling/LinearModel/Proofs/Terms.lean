import Mathlib
import LinearModel.Proofs.Evaluation
import LinearModel.Proofs.Neutral

/-!
# The terms of a sum

A sum over stored cells has a term for each of them. A term that stands for zero changes no sum, so
while no stored zero meets what is not finite, what is left are the contributions of the nonzero
places, in the order in which those were first written (`Cells.live_terms`). Sums that agree in
these are equal as numbers.
-/

namespace LinearModel

variable {α : Type} [Number α]

namespace Number

/-- Equal as numbers, or both no number. -/
def Same (x y : α) : Prop := (x == y) = true ∨ isNaN x = true ∧ isNaN y = true

instance (x y : α) : Decidable (Same x y) := inferInstanceAs (Decidable (_ ∨ _))

theorem same_iff [OrderedNumber α] {x y : α} : Same x y ↔ exact x = exact y := by
  rw [Same, OrderedNumber.beq_eq, isNaN, isNaN]
  cases exact x <;> cases exact y <;> simp [BEq.beq, ExtendedRat.beq]

end Number

open Number (exact Same same_iff)

section Arithmetic

variable [NeutralZero α] {x x' y y' : α}

/-- A sum reads only what its terms stand for. -/
theorem exact_add_congr (hx : exact x = exact x') (hy : exact y = exact y') :
    exact (x + y) = exact (x' + y') := by
  rcases NeutralZero.eq_or_zero_of_exact_eq hx with rfl | hzero
  · rcases NeutralZero.eq_or_zero_of_exact_eq hy with rfl | hzero
    · rfl
    · rw [NeutralZero.exact_add_zero x hzero, NeutralZero.exact_add_zero x (hy ▸ hzero)]
  · rw [NeutralZero.exact_zero_add hzero y, NeutralZero.exact_zero_add (hx ▸ hzero) y', hy]

theorem exact_mul_congr (hx : exact x = exact x') (hy : exact y = exact y') :
    exact (x * y) = exact (x' * y') := by
  rcases NeutralZero.eq_or_zero_of_exact_eq hx with rfl | hzero
  · rcases NeutralZero.eq_or_zero_of_exact_eq hy with rfl | hzero
    · rfl
    · rw [NeutralZero.exact_mul_zero x hzero, NeutralZero.exact_mul_zero x (hy ▸ hzero)]
  · rw [NeutralZero.exact_zero_mul hzero y, NeutralZero.exact_zero_mul (hx ▸ hzero) y', hy]

theorem exact_sub_congr (hx : exact x = exact x') (y : α) : exact (x - y) = exact (x' - y) := by
  rcases NeutralZero.eq_or_zero_of_exact_eq hx with rfl | hzero
  · rfl
  · exact NeutralZero.exact_zero_sub hzero (hx ▸ hzero) y

theorem exact_abs_congr (hx : exact x = exact x') :
    exact (Number.abs x) = exact (Number.abs x') := by
  rcases NeutralZero.eq_or_zero_of_exact_eq hx with rfl | hzero
  · rfl
  · rw [NeutralZero.exact_abs_zero hzero, NeutralZero.exact_abs_zero (hx ▸ hzero)]

theorem exact_mul_of_zero_left (hx : exact x = .finite 0) (hy : Number.isFinite y = true) :
    exact (x * y) = .finite 0 := by
  obtain ⟨q, hq⟩ := Number.isFinite_iff.1 hy
  rw [NeutralZero.exact_zero_mul hx, hq]
  exact congrArg ExtendedRat.finite (Rat.zero_mul q)

theorem exact_mul_of_zero_right (hx : Number.isFinite x = true) (hy : exact y = .finite 0) :
    exact (x * y) = .finite 0 := by
  obtain ⟨q, hq⟩ := Number.isFinite_iff.1 hx
  rw [NeutralZero.exact_mul_zero x hy, hq]
  exact congrArg ExtendedRat.finite (Rat.mul_zero q)

end Arithmetic

section Sums

/-- What the terms of a sum stand for, those left out that stand for zero. -/
def live (xs : List α) : List ExtendedRat := (xs.map exact).filter (· ≠ .finite 0)

variable [NeutralZero α]

theorem exact_foldl_congr {xs ys : List α} (h : xs.map exact = ys.map exact) {a b : α}
    (hab : exact a = exact b) : exact (xs.foldl (· + ·) a) = exact (ys.foldl (· + ·) b) := by
  induction xs generalizing ys a b with
  | nil =>
      rw [List.map_nil, eq_comm, List.map_eq_nil_iff] at h
      rw [h]
      exact hab
  | cons x xs ih =>
      obtain ⟨y, ys, rfl, hxy, hrest⟩ := List.map_eq_cons_iff.1 h.symm
      exact ih hrest.symm (exact_add_congr hab hxy.symm)

/-- Terms that stand for zero may be left out of a sum. -/
theorem exact_foldl_filter (xs : List α) (a : α) :
    exact (xs.foldl (· + ·) a) =
      exact ((xs.filter fun x => exact x ≠ .finite 0).foldl (· + ·) a) := by
  induction xs generalizing a with
  | nil => rfl
  | cons x xs ih =>
      by_cases hx : exact x = .finite 0
      · rw [List.filter_cons_of_neg (by simpa using hx), ← ih a, List.foldl_cons]
        exact exact_foldl_congr rfl (NeutralZero.exact_add_zero a hx)
      · rw [List.filter_cons_of_pos (by simpa using hx), List.foldl_cons, List.foldl_cons, ih]

theorem exact_sum_congr {xs ys : List α} (h : live xs = live ys) :
    exact (Scalar.sum xs) = exact (Scalar.sum ys) := by
  rw [Scalar.sum, Scalar.sum, exact_foldl_filter xs, exact_foldl_filter ys]
  refine exact_foldl_congr ?_ rfl
  rw [live, live, List.filter_map, List.filter_map] at h
  exact h

end Sums

namespace Cells

variable {n n' : Nat}

/-- The places that hold something else than zero, in the order in which they were first written. -/
def nonzeroPlaces (c : Cells α n) : List Nat :=
  (c.entries.filter fun e => !(e.2 == 0)).map Prod.fst

/-- The stored values times what they meet at their places, where they meet anything. -/
def terms (c : Cells α n) (met : Nat → Option α) : List α :=
  c.entries.filterMap fun e => (met e.1).map (e.2 * ·)

/-- What a number adds to a sum when it meets another one, unless that is zero. -/
def contribution (a : α) (met : Option α) : Option ExtendedRat :=
  (met.map fun b => exact (a * b)).filter (· ≠ .finite 0)

/-- When stored zeros add nothing, the sum is made of what the nonzero places add, in order. -/
theorem live_terms [LawfulNumber α] (c : Cells α n) {met : Nat → Option α}
    (hzero : ∀ e ∈ c.entries, exact e.2 = .finite 0 → contribution e.2 (met e.1) = none) :
    live (c.terms met) = c.nonzeroPlaces.filterMap fun i => contribution (c.get i) (met i) := by
  have hlive : live (c.terms met) = c.entries.filterMap fun e => contribution e.2 (met e.1) := by
    rw [live, terms, List.map_filterMap, List.filter_filterMap]
    simp only [contribution, Option.map_map, Function.comp_def]
  rw [hlive, nonzeroPlaces, List.filterMap_map, List.filterMap_filter]
  apply List.filterMap_congr
  intro e he
  -- What is stored at a nonzero place is what is read there; a stored zero is not among these
  -- places, and adds nothing.
  rw [Function.comp_apply, get_of_mem_entries he]
  cases hvalue : e.2 == 0 with
  | false => rfl
  | true => exact hzero e he ((LawfulNumber.beq_zero_iff e.2).1 hvalue)

theorem contribution_eq_none [NeutralZero α] {a b : α} (h : exact (a * b) = .finite 0) :
    contribution a (some b) = none := by
  rw [contribution, Option.map_some, h]
  rfl

theorem contribution_congr [NeutralZero α] {a a' b b' : α} (ha : exact a = exact a')
    (hb : exact b = exact b') : contribution a (some b) = contribution a' (some b') := by
  rw [contribution, contribution, Option.map_some, Option.map_some, exact_mul_congr ha hb]

/-- Sums over cells with equal nonzero places in equal order are equal when these add the same. -/
theorem exact_sum_terms_congr [NeutralZero α] {c : Cells α n} {c' : Cells α n'}
    {met met' : Nat → Option α} (hplaces : c.nonzeroPlaces = c'.nonzeroPlaces)
    (hzero : ∀ e ∈ c.entries, exact e.2 = .finite 0 → contribution e.2 (met e.1) = none)
    (hzero' : ∀ e ∈ c'.entries, exact e.2 = .finite 0 → contribution e.2 (met' e.1) = none)
    (hmet : ∀ i ∈ c.nonzeroPlaces,
      contribution (c.get i) (met i) = contribution (c'.get i) (met' i)) :
    exact (Scalar.sum (c.terms met)) = exact (Scalar.sum (c'.terms met')) := by
  apply exact_sum_congr
  rw [c.live_terms hzero, c'.live_terms hzero', ← hplaces]
  exact List.filterMap_congr hmet

/-- Every stored zero meets a finite number in `x`. -/
def ZerosMeetFinite (c : Cells α n) (x : List α) : Prop :=
  ∀ e ∈ c.entries, (e.2 == 0) = true → Number.isFinite (x.getD e.1 0) = true

theorem exact_sumAt_congr [NeutralZero α] {c : Cells α n} {c' : Cells α n'} {x x' : List α}
    (hplaces : c.nonzeroPlaces = c'.nonzeroPlaces) (hget : ∀ i, exact (c.get i) = exact (c'.get i))
    (hx : ∀ i, exact (x.getD i 0) = exact (x'.getD i 0)) (hzeros : c.ZerosMeetFinite x)
    (hzeros' : c'.ZerosMeetFinite x') : exact (c.sumAt x) = exact (c'.sumAt x') := by
  have hterms {n : Nat} (c : Cells α n) (x : List α) :
      c.sumAt x = Scalar.sum (c.terms fun i => some (x.getD i 0)) := by
    rw [sumAt, terms]
    simp
  have hnone {n : Nat} {c : Cells α n} {x : List α} (h : c.ZerosMeetFinite x) :
      ∀ e ∈ c.entries, exact e.2 = .finite 0 →
        contribution e.2 (some (x.getD e.1 0)) = none := fun e he hvalue =>
    contribution_eq_none (exact_mul_of_zero_left hvalue
      (h e he ((LawfulNumber.beq_zero_iff e.2).2 hvalue)))
  rw [hterms, hterms]
  exact exact_sum_terms_congr hplaces (hnone hzeros) (hnone hzeros') fun i _ =>
    contribution_congr (hget i) (hx i)

theorem mem_nonzeroPlaces_iff (c : Cells α n) (i : Nat) :
    i ∈ c.nonzeroPlaces ↔ ∃ v, (i, v) ∈ c.entries ∧ (v == 0) = false := by
  simp [nonzeroPlaces]

end Cells

end LinearModel
