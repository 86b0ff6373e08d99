import Mathlib
import LinearModel.Cells
import LinearModel.Scalar.Number

/-!
# Arithmetic without rounding

Over the extended rationals addition is commutative and associative, the infinities and the value
that is no number included, so that a sum does not depend on the order of its terms, and zero times
a rational is zero. The order is total but for the value that is no number, which is not even below
itself. Where a sum does not depend on the order, summing what an axis stores is summing over all
its places (`Cells.sum_map_entries`).
-/

namespace LinearModel

namespace Number

variable {α : Type} [Number α] {x : α}

theorem isFinite_iff : isFinite x = true ↔ ∃ q, exact x = .finite q := by
  unfold isFinite
  cases exact x <;> simp

theorem isNaN_eq_false_iff : isNaN x = false ↔ exact x ≠ .nan := by
  unfold isNaN
  cases exact x <;> simp

end Number

namespace ExtendedRat

instance : AddCommMonoid ExtendedRat where
  toAdd := inferInstance
  toZero := inferInstance
  add_assoc a b c := by
    cases a <;> cases b <;> cases c <;> first | rfl | exact congrArg finite (Rat.add_assoc _ _ _)
  zero_add a := by
    cases a <;> first | rfl | exact congrArg finite (Rat.zero_add _)
  add_zero a := by
    cases a <;> first | rfl | exact congrArg finite (Rat.add_zero _)
  add_comm a b := by
    cases a <;> cases b <;> first | rfl | exact congrArg finite (Rat.add_comm _ _)
  nsmul := nsmulRec

theorem sum_eq (xs : List ExtendedRat) : Scalar.sum xs = xs.sum := by
  rw [List.sum_eq_foldl]
  rfl

theorem zero_mul_finite (q : Rat) : (0 : ExtendedRat) * finite q = 0 :=
  congrArg finite (Rat.zero_mul q)

/-- Smaller or equal; never so when one side is no number. -/
instance : LE ExtendedRat := ⟨fun a b => a.le b = true⟩

instance (a b : ExtendedRat) : Decidable (a ≤ b) := inferInstanceAs (Decidable (a.le b = true))

@[simp] theorem finite_le_finite {p q : Rat} : finite p ≤ finite q ↔ p ≤ q := by
  show (decide (p < q) || decide (p = q)) = true ↔ p ≤ q
  simp [le_iff_lt_or_eq]

/-- Between numbers, not being smaller is being at least as large. -/
theorem lt_eq_false_iff {a b : ExtendedRat} (ha : a ≠ nan) (hb : b ≠ nan) :
    a.lt b = false ↔ b ≤ a := by
  cases a with
  | nan => exact absurd rfl ha
  | finite p =>
      cases b with
      | nan => exact absurd rfl hb
      | finite q => simp
      | negInf => exact ⟨fun _ => rfl, fun _ => rfl⟩
      | posInf => exact ⟨fun h => Bool.noConfusion h, fun h => Bool.noConfusion h⟩
  | negInf =>
      cases b with
      | nan => exact absurd rfl hb
      | negInf => exact ⟨fun _ => rfl, fun _ => rfl⟩
      | _ => exact ⟨fun h => Bool.noConfusion h, fun h => Bool.noConfusion h⟩
  | posInf =>
      cases b with
      | nan => exact absurd rfl hb
      | _ => exact ⟨fun _ => rfl, fun _ => rfl⟩

theorem ne_of_le_finite {a : ExtendedRat} {q : Rat} (h : a ≤ finite q) : a ≠ nan ∧ a ≠ posInf := by
  constructor <;> rintro rfl <;> exact Bool.noConfusion (show false = true from h)

theorem ne_of_finite_le {b : ExtendedRat} {q : Rat} (h : finite q ≤ b) : b ≠ nan ∧ b ≠ negInf := by
  constructor <;> rintro rfl <;> exact Bool.noConfusion (show false = true from h)

theorem le_of_le_finite_of_finite_le {a b : ExtendedRat} {q : Rat} (h : a ≤ finite q)
    (h' : finite q ≤ b) : a ≤ b := by
  obtain ⟨ha, ha'⟩ := ne_of_le_finite h
  obtain ⟨hb, hb'⟩ := ne_of_finite_le h'
  cases a with
  | nan => exact absurd rfl ha
  | posInf => exact absurd rfl ha'
  | negInf =>
      cases b with
      | nan => exact absurd rfl hb
      | _ => rfl
  | finite p =>
      cases b with
      | nan => exact absurd rfl hb
      | negInf => exact absurd rfl hb'
      | posInf => rfl
      | finite r => exact finite_le_finite.2 ((finite_le_finite.1 h).trans (finite_le_finite.1 h'))

theorem beq_posInf_eq_false_iff (a : ExtendedRat) : (a == posInf) = false ↔ a ≠ posInf := by
  cases a <;> simp [BEq.beq, ExtendedRat.beq]

theorem beq_negInf_eq_false_iff (a : ExtendedRat) : (a == negInf) = false ↔ a ≠ negInf := by
  cases a <;> simp [BEq.beq, ExtendedRat.beq]

theorem exists_sum_eq_finite {xs : List ExtendedRat} (h : ∀ v ∈ xs, ∃ q, v = finite q) :
    ∃ q, xs.sum = finite q := by
  induction xs with
  | nil => exact ⟨0, rfl⟩
  | cons v xs ih =>
      obtain ⟨p, hp⟩ := h v List.mem_cons_self
      obtain ⟨q, hq⟩ := ih fun w hw => h w (List.mem_cons_of_mem v hw)
      exact ⟨p + q, by rw [List.sum_cons, hp, hq, finite_add_finite]⟩

end ExtendedRat

section Sums

variable {β M : Type} [AddCommMonoid M]

/-- Members that map to zero may be left out of a sum. -/
theorem sum_map_filter_of_eq_zero {f : β → M} {p : β → Bool} (xs : List β)
    (h : ∀ x ∈ xs, p x = false → f x = 0) : ((xs.filter p).map f).sum = (xs.map f).sum := by
  induction xs with
  | nil => rfl
  | cons x xs ih =>
      have hrest := ih fun y hy => h y (List.mem_cons_of_mem x hy)
      cases hp : p x with
      | false =>
          rw [List.filter_cons_of_neg (by simp [hp]), hrest, List.map_cons, List.sum_cons,
            h x List.mem_cons_self hp, zero_add]
      | true =>
          rw [List.filter_cons_of_pos hp, List.map_cons, List.sum_cons, hrest, List.map_cons,
            List.sum_cons]

/-- A sum over all places is a sum over any distinct places outside of which there is nothing. -/
theorem sum_map_range_of_support {f : Nat → M} {n : Nat} {is : List Nat} (hnodup : is.Nodup)
    (hlt : ∀ i ∈ is, i < n) (hzero : ∀ j, j ∉ is → f j = 0) :
    ((List.range n).map f).sum = (is.map f).sum := by
  have hperm : ((List.range n).filter fun j => j ∈ is).Perm is := by
    rw [List.perm_ext_iff_of_nodup (List.nodup_range.filter _) hnodup]
    intro j
    simpa using hlt j
  rw [← (hperm.map f).sum_eq]
  refine (sum_map_filter_of_eq_zero _ ?_).symm
  intro j _ hj
  exact hzero j (of_decide_eq_false hj)

/-- Summing over the stored cells is summing over all places, if zeros contribute nothing. -/
theorem Cells.sum_map_entries {α : Type} [Zero α] {n : Nat} (c : Cells α n) {f : Nat → α → M}
    (hzero : ∀ j, f j 0 = 0) :
    (c.entries.map fun e => f e.1 e.2).sum = ((List.range n).map fun j => f j (c.get j)).sum := by
  have hindices : (c.entries.map fun e => f e.1 e.2) = c.indices.map fun j => f j (c.get j) := by
    rw [← c.map_fst_entries, List.map_map]
    apply List.map_congr_left
    intro e he
    rw [Function.comp_apply, get_of_mem_entries he]
  rw [hindices]
  refine (sum_map_range_of_support c.nodup_indices (fun j => c.lt_of_mem_indices) ?_).symm
  intro j hj
  have hnone : c.find? j = none := by simpa [mem_indices_iff] using hj
  rw [get, hnone, Option.getD_none, hzero]

end Sums

end LinearModel
