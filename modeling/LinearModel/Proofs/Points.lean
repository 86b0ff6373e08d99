import Mathlib
import LinearModel.Proofs.LinearForm

/-!
# Points of an engine problem

A point gives every variable of an engine problem a rational in its domain and satisfies every row,
with nothing rounded (`EngineProblem.IsPoint`). For the problem that a buffered engine builds this
can be read off what was described: the limits and the kind of every column, and the comparisons
that the bound of every row asks for. Rounding the limits of an integer column inward loses no
point, because no integer lies in between.
-/

namespace LinearModel

/-- The comparison of a left-hand side with a right-hand side, without a tolerance. -/
def Relation.Holds : Relation → ExtendedRat → ExtendedRat → Prop
  | .le, lhs, rhs => lhs ≤ rhs
  | .ge, lhs, rhs => rhs ≤ lhs
  | .eq, lhs, rhs => lhs ≤ rhs ∧ rhs ≤ lhs

def IsInt32 (q : Rat) : Prop := ∃ n : Int, q = n ∧ leastInt32 ≤ n ∧ n ≤ greatestInt32

def Domain.Admits : Domain ExtendedRat → Rat → Prop
  | .continuous lower upper, q => lower ≤ .finite q ∧ .finite q ≤ upper
  | .integer least greatest, q => ∃ n : Int, q = n ∧ least ≤ n ∧ n ≤ greatest

def EngineRow.Holds (row : EngineRow ExtendedRat) (x : List Rat) : Prop :=
  row.relation.Holds (Scalar.sum (row.terms.map (entryAt x))) row.rhs

namespace EngineProblem

/-- A value for every variable in its domain, such that every row holds. -/
structure IsPoint (p : EngineProblem ExtendedRat) (x : List Rat) : Prop where
  domains : List.Forall₂ (fun v q => v.domain.Admits q) p.unknowns x
  rows : ∀ row ∈ p.rows, row.Holds x

def objectiveAt (p : EngineProblem ExtendedRat) (x : List Rat) : ExtendedRat :=
  Scalar.sum (List.zipWith (fun v q => v.objective * .finite q) p.unknowns x)

end EngineProblem

def Bound.Contains (b : Bound ExtendedRat) (v : ExtendedRat) : Prop :=
  b.limits.1 ≤ v ∧ v ≤ b.limits.2

instance (b : Bound ExtendedRat) (v : ExtendedRat) : Decidable (b.Contains v) :=
  inferInstanceAs (Decidable (_ ∧ _))

/-- The column admits the value: one within its limits, an integer if that is asked for. -/
def Column.Admits (integral : Bool) (c : Column ExtendedRat) (q : Rat) : Prop :=
  c.bound.Contains (.finite q) ∧ (integral = true → c.kind = .integer → IsInt32 q)

/-- Rounding a lower limit up to a word loses no word above it. -/
theorem int32Limit_ceil_le_iff {lower : ExtendedRat} {least : Int} (hlower : lower ≠ .posInf)
    (h : int32Limit lower.ceil = some least) (n : Int) :
    least ≤ n ↔ lower ≤ .finite n ∧ leastInt32 ≤ n := by
  cases lower with
  | nan => cases h
  | posInf => exact absurd rfl hlower
  | negInf =>
      cases h
      exact ⟨fun hn => ⟨rfl, hn⟩, fun hn => hn.2⟩
  | finite p =>
      have hceil : int32Limit (.int p.ceil) = some least := h
      rw [int32Limit] at hceil
      split at hceil
      · next hrange =>
        cases hceil
        rw [ExtendedRat.finite_le_finite, Rat.ceil_le_iff]
        exact ⟨fun hn => ⟨hn, hrange.1.trans (Rat.ceil_le_iff.2 hn)⟩, fun hn => hn.1⟩
      · cases hceil

theorem le_int32Limit_floor_iff {upper : ExtendedRat} {greatest : Int} (hupper : upper ≠ .negInf)
    (h : int32Limit upper.floor = some greatest) (n : Int) :
    n ≤ greatest ↔ .finite n ≤ upper ∧ n ≤ greatestInt32 := by
  cases upper with
  | nan => cases h
  | negInf => exact absurd rfl hupper
  | posInf =>
      cases h
      exact ⟨fun hn => ⟨rfl, hn⟩, fun hn => hn.2⟩
  | finite p =>
      have hfloor : int32Limit (.int p.floor) = some greatest := h
      rw [int32Limit] at hfloor
      split at hfloor
      · next hrange =>
        cases hfloor
        rw [ExtendedRat.finite_le_finite, Rat.le_floor_iff]
        exact ⟨fun hn => ⟨hn, (Rat.le_floor_iff.2 hn).trans hrange.2⟩, fun hn => hn.1⟩
      · cases hfloor

/-- Lists that correspond member by member stand in corresponding relations to a third. -/
theorem forall₂_iff_of_forall₂ {β γ δ : Type} {R : β → γ → Prop} {P : β → δ → Prop}
    {Q : γ → δ → Prop} {xs : List β} {ys : List γ} (h : List.Forall₂ R xs ys)
    (hiff : ∀ x y, R x y → ∀ z, P x z ↔ Q y z) (zs : List δ) :
    List.Forall₂ P xs zs ↔ List.Forall₂ Q ys zs := by
  induction h generalizing zs with
  | nil => cases zs <;> simp
  | cons hxy _ ih =>
      cases zs with
      | nil => simp
      | cons z zs => simp [hiff _ _ hxy, ih]

namespace BufferedEngine

/-- The domain of a column admits what the column admits, unless an infinite limit points inward. -/
theorem admits_domain_iff {integral : Bool} {c : Column ExtendedRat} {domain : Domain ExtendedRat}
    (hlower : c.bound.limits.1 ≠ .posInf) (hupper : c.bound.limits.2 ≠ .negInf)
    (h : domain? integral c = some domain) (q : Rat) : domain.Admits q ↔ c.Admits integral q := by
  simp only [domain?] at h
  split at h
  · next hinteger =>
    have hasked : integral = true ∧ c.kind = .integer := by simpa using hinteger
    obtain ⟨least, hleast, h⟩ := Option.bind_eq_some_iff.1 h
    obtain ⟨greatest, hgreatest, h⟩ := Option.bind_eq_some_iff.1 h
    cases h
    constructor
    · rintro ⟨n, rfl, hn, hn'⟩
      rw [int32Limit_ceil_le_iff hlower hleast] at hn
      rw [le_int32Limit_floor_iff hupper hgreatest] at hn'
      exact ⟨⟨hn.1, hn'.1⟩, fun _ _ => ⟨n, rfl, hn.2, hn'.2⟩⟩
    · rintro ⟨⟨hl, hu⟩, hword⟩
      obtain ⟨n, rfl, hn, hn'⟩ := hword hasked.1 hasked.2
      exact ⟨n, rfl, (int32Limit_ceil_le_iff hlower hleast n).2 ⟨hl, hn⟩,
        (le_int32Limit_floor_iff hupper hgreatest n).2 ⟨hu, hn'⟩⟩
  · next hnot =>
    cases h
    constructor
    · intro hq
      exact ⟨hq, fun hi hk => absurd (by simp [hi, hk]) hnot⟩
    · intro hq
      exact hq.1

/-- Every row has the comparisons that its bound asks for, and no others. -/
theorem forall_engineRows_iff (b : BufferedEngine ExtendedRat) (x : List Rat) :
    (∀ row ∈ b.engineRows, row.Holds x) ↔
      ∀ (i : Nat) (row : Row ExtendedRat), b.rows[i]? = some row →
        ∀ k ∈ comparisons row.bound,
          k.1.Holds (Scalar.sum ((termsOf b.matrix (i + 1)).map (entryAt x))) k.2 := by
  simp only [engineRows, List.mem_flatMap, List.mem_map]
  constructor
  · intro h i row hrow k hk
    exact h _ ⟨(row, i), List.mem_zipIdx_iff_getElem?.2 hrow, k, hk, rfl⟩
  · rintro h _ ⟨⟨row, i⟩, hrow, k, hk, rfl⟩
    exact h i row (List.mem_zipIdx_iff_getElem?.1 hrow) k hk

/-- The points of the problem that is built are those that keep every column and every row. -/
theorem isPoint_iff {b : BufferedEngine ExtendedRat} {integral : Bool}
    {p : EngineProblem ExtendedRat} (hp : b.problem integral = .ok p)
    (hlimits : ∀ c ∈ b.columns, c.bound.limits.1 ≠ .posInf ∧ c.bound.limits.2 ≠ .negInf)
    (x : List Rat) : p.IsPoint x ↔
      List.Forall₂ (fun c q => c.Admits integral q) b.columns x ∧
        ∀ (i : Nat) (row : Row ExtendedRat), b.rows[i]? = some row →
          ∀ k ∈ comparisons row.bound,
            k.1.Holds (Scalar.sum ((termsOf b.matrix (i + 1)).map (entryAt x))) k.2 := by
  obtain ⟨-, hrows, hunknowns, -⟩ := (b.problem_eq_ok_iff integral p).1 hp
  have hdomains : List.Forall₂ (fun c q => c.Admits integral q) b.columns x ↔
      List.Forall₂ (fun v q => v.domain.Admits q) p.unknowns x := by
    refine forall₂_iff_of_forall₂ ((List.forall₂_and_left _ _).2 ⟨hlimits, hunknowns⟩) ?_ x
    intro c v hv q
    exact (admits_domain_iff hv.1.1 hv.1.2 hv.2.2 q).symm
  rw [hdomains, ← b.forall_engineRows_iff x, ← hrows]
  exact ⟨fun h => ⟨h.domains, h.rows⟩, fun h => ⟨h.1, h.2⟩⟩

/-- Every column has a variable with its objective coefficient, in order. -/
theorem map_objective_of_problem_eq_ok {α : Type} [Number α] {b : BufferedEngine α}
    {integral : Bool} {p : EngineProblem α} (hp : b.problem integral = .ok p) :
    b.columns.map Column.objective = p.unknowns.map EngineVariable.objective := by
  obtain ⟨-, -, hunknowns, -⟩ := (b.problem_eq_ok_iff integral p).1 hp
  rw [← List.forall₂_eq_eq_eq, List.forall₂_map_left_iff, List.forall₂_map_right_iff]
  exact hunknowns.imp fun c v hv => hv.1

theorem objectiveAt_eq {b : BufferedEngine ExtendedRat} {integral : Bool}
    {p : EngineProblem ExtendedRat} (hp : b.problem integral = .ok p) (x : List Rat) :
    p.objectiveAt x =
      Scalar.sum (List.zipWith (fun a q => a * .finite q) (b.columns.map Column.objective) x) := by
  rw [EngineProblem.objectiveAt, map_objective_of_problem_eq_ok hp, List.zipWith_map_left]

end BufferedEngine

end LinearModel
