import Mathlib
import LinearModel.Backend.Buffer
import LinearModel.Proofs.Coordinates

/-!
# What a buffered engine looks up

To build a problem, the row and the column of every triple are looked up; to read an answer, every
variable is. The terms of the rows can be gathered exactly when all triples are in range
(`gather?_eq_some_iff`), and are then those that each row has in the matrix, in order. The values
can be collected exactly when the answer has one for each variable (`valuesOf?_eq_some_iff`). A
problem is built exactly when every column has a domain and all triples are in range
(`problem_eq_ok_iff`).
-/

namespace LinearModel

namespace BufferedEngine

section Terms

variable {α : Type}

/-- The row and the column of a triple are among those that there are. -/
def Within (rows cols : Nat) (t : Nat × Nat × α) : Prop :=
  (1 ≤ t.1 ∧ t.1 ≤ rows) ∧ 1 ≤ t.2.1 ∧ t.2.1 ≤ cols

instance (rows cols : Nat) : DecidablePred (Within rows cols : Nat × Nat × α → Prop) :=
  fun _ => inferInstanceAs (Decidable (_ ∧ _))

def termOf (row : Nat) (t : Nat × Nat × α) : Option (Nat × α) :=
  if t.1 = row then some (t.2.1 - 1, t.2.2) else none

/-- The terms that a coordinate list has for the row with number `row`, in list order. -/
def termsOf (m : CoordinateList α) (row : Nat) : List (Nat × α) := m.triples.filterMap (termOf row)

theorem filterMap_termOf_cons (t : Nat × Nat × α) (ts : List (Nat × Nat × α)) (row : Nat) :
    (t :: ts).filterMap (termOf row) =
      (if t.1 = row then [(t.2.1 - 1, t.2.2)] else []) ++ ts.filterMap (termOf row) := by
  by_cases h : t.1 = row <;> simp [termOf, h]

/-- Adding a term to its row first and the rest later adds the same to every row. -/
theorem mapIdx_modify_append (row col : Nat) (value : α) (ts : List (Nat × Nat × α))
    (terms : List (List (Nat × α))) :
    ((terms.modify row (· ++ [(col, value)])).mapIdx fun i before =>
        before ++ ts.filterMap (termOf (i + 1))) =
      terms.mapIdx fun i before =>
        before ++ ((row + 1, col + 1, value) :: ts).filterMap (termOf (i + 1)) := by
  refine List.ext_getElem (by simp) fun i hi hi' => ?_
  by_cases hrow : row = i
  · simp [filterMap_termOf_cons, hrow]
  · simp [filterMap_termOf_cons, hrow]

/-- Triples are gathered exactly when all are in range, each behind those of its row that came
before it. -/
theorem gather?_eq_some_iff {cols : Nat} {triples : List (Nat × Nat × α)}
    {terms gathered : List (List (Nat × α))} :
    gather? cols triples terms = some gathered ↔
      (∀ t ∈ triples, Within terms.length cols t) ∧
        gathered = terms.mapIdx fun i before => before ++ triples.filterMap (termOf (i + 1)) := by
  induction triples generalizing terms with
  | nil =>
      have hterms : (terms.mapIdx fun i before => before ++ ([] : List (Nat × Nat × α)).filterMap
          (termOf (i + 1))) = terms := List.ext_getElem (by simp) (by simp)
      rw [gather?, hterms]
      simp [eq_comm]
  | cons t rest ih =>
      obtain ⟨_ | row, _ | col, value⟩ := t
      · simp [gather?, Within]
      · simp [gather?, Within]
      · simp [gather?, Within]
      rw [gather?, List.forall_mem_cons, ← mapIdx_modify_append]
      by_cases h : row < terms.length ∧ col < cols
      · have hfirst : Within terms.length cols (row + 1, col + 1, value) :=
          ⟨⟨Nat.le_add_left .., h.1⟩, Nat.le_add_left .., h.2⟩
        rw [if_pos h, ih, List.length_modify, and_iff_right hfirst]
      · have hfirst : ¬ Within terms.length cols (row + 1, col + 1, value) :=
          fun hwithin => h ⟨hwithin.1.2, hwithin.2.2⟩
        simp [if_neg h, hfirst]

end Terms

theorem valuesOf?_succ {α : Type} (found : List α) (n : Nat) :
    valuesOf? found (n + 1) =
      (valuesOf? found n).bind fun values => found[n]?.map fun x => values ++ [x] := by
  rw [valuesOf?, List.range_succ, List.mapM_append, ← valuesOf?]
  cases valuesOf? found n with
  | none => rfl
  | some values => cases hlast : found[n]? <;> simp [hlast]

/-- The values of the first `n` variables are there exactly when there are so many. -/
theorem valuesOf?_eq_some_iff {α : Type} {found values : List α} {n : Nat} :
    valuesOf? found n = some values ↔ n ≤ found.length ∧ values = found.take n := by
  induction n generalizing values with
  | zero => simp [valuesOf?, eq_comm]
  | succ n ih =>
      rw [valuesOf?_succ, Option.bind_eq_some_iff]
      simp only [ih, Option.map_eq_some_iff, List.getElem?_eq_some_iff]
      constructor
      · rintro ⟨_, ⟨-, rfl⟩, x, ⟨hn, rfl⟩, rfl⟩
        exact ⟨hn, List.take_concat_get' found n hn⟩
      · rintro ⟨hn, rfl⟩
        exact ⟨_, ⟨Nat.le_of_succ_le hn, rfl⟩, found[n], ⟨hn, rfl⟩,
          List.take_concat_get' found n hn⟩

theorem valuesOf?_eq_none_iff {α : Type} {found : List α} {n : Nat} :
    valuesOf? found n = none ↔ ¬ n ≤ found.length := by
  rw [Option.eq_none_iff_forall_ne_some]
  simp [valuesOf?_eq_some_iff]

section Problem

variable {α : Type} [Number α]

theorem unknowns_eq_ok_iff (integral : Bool) (index : Nat) (cs : List (Column α))
    (vs : List (EngineVariable α)) :
    unknowns integral index cs = .ok vs ↔ List.Forall₂ (fun c v =>
      c.objective = v.objective ∧ domain? integral c = some v.domain) cs vs := by
  induction cs generalizing index vs with
  | nil => cases vs <;> simp [unknowns]
  | cons c cs ih =>
      rw [unknowns]
      cases hdomain : domain? integral c with
      | none => cases vs <;> simp [hdomain]
      | some domain =>
          cases htail : unknowns integral (index + 1) cs with
          | error e => cases vs <;> simp [bind, Except.bind, ← ih (index + 1), htail]
          | ok rest =>
              cases vs with
              | nil => simp [bind, Except.bind, pure, Except.pure]
              | cons v vs =>
                  obtain ⟨objective, domain'⟩ := v
                  simp [bind, Except.bind, pure, Except.pure, ← ih (index + 1), htail, hdomain]

/-- There is one variable for each column. -/
theorem length_of_unknowns_eq_ok {integral : Bool} {index : Nat} {cs : List (Column α)}
    {vs : List (EngineVariable α)} (h : unknowns integral index cs = .ok vs) :
    vs.length = cs.length :=
  ((unknowns_eq_ok_iff integral index cs vs).1 h).length_eq.symm

/-- Every triple of the matrix names a row and a column that there are. -/
def InRange (b : BufferedEngine α) : Prop :=
  ∀ t ∈ b.matrix.triples, Within b.rows.length b.columns.length t

instance (b : BufferedEngine α) : Decidable b.InRange :=
  inferInstanceAs (Decidable (∀ t ∈ b.matrix.triples, Within b.rows.length b.columns.length t))

/-- A matrix that passes the check against the rows and columns is in range of them. -/
theorem inRange_of_validate {b : BufferedEngine α}
    (h : b.matrix.validate b.rows.length b.columns.length = .ok ()) : b.InRange := by
  intro t ht
  obtain ⟨hrow, hle, hcol, hle', -⟩ :=
    CoordinateList.admits_eq_true_iff.1 ((b.matrix.validate_eq_ok_iff _ _).1 h t ht)
  exact ⟨⟨hrow, hle⟩, hcol, hle'⟩

/-- The comparisons of all rows, each with the terms that its row has in the matrix. -/
def engineRows (b : BufferedEngine α) : List (EngineRow α) :=
  b.rows.zipIdx.flatMap fun (row, i) =>
    (comparisons row.bound).map fun (relation, rhs) => ⟨termsOf b.matrix (i + 1), relation, rhs⟩

theorem compare_termsOf (b : BufferedEngine α) :
    compare b.rows ((List.range b.rows.length).map fun i => termsOf b.matrix (i + 1)) =
      b.engineRows := by
  rw [engineRows, List.zipIdx_eq_zip_range', ← List.range_eq_range', compare, List.zip_map_right,
    List.flatMap_map]
  rfl

omit [Number α] in
/-- The terms of all rows are gathered exactly when all triples are in range. -/
theorem gather?_matrix_eq_some_iff (b : BufferedEngine α) {terms : List (List (Nat × α))} :
    gather? b.columns.length b.matrix.triples (List.replicate b.rows.length []) = some terms ↔
      b.InRange ∧ terms = (List.range b.rows.length).map fun i => termsOf b.matrix (i + 1) := by
  have hterms : ((List.replicate b.rows.length []).mapIdx fun i before =>
      before ++ b.matrix.triples.filterMap (termOf (i + 1))) =
        (List.range b.rows.length).map fun i => termsOf b.matrix (i + 1) :=
    List.ext_getElem (by simp) (by simp [termsOf])
  rw [gather?_eq_some_iff, List.length_replicate, hterms]
  rfl

/-- The terms are gathered with the variables of the columns. -/
theorem problem_eq (b : BufferedEngine α) (integral : Bool) :
    b.problem integral = (unknowns integral 0 b.columns).bind fun vs =>
      if b.InRange then .ok ⟨b.direction, vs, b.engineRows⟩ else .error .engineStopped := by
  rw [problem]
  cases hunknowns : unknowns integral 0 b.columns with
  | error e => rfl
  | ok vs =>
      simp only [bind, Except.bind, length_of_unknowns_eq_ok hunknowns]
      cases hgather : gather? b.columns.length b.matrix.triples
          (List.replicate b.rows.length []) with
      | none =>
          have hrange : ¬ b.InRange := by
            intro hrange
            rw [b.gather?_matrix_eq_some_iff.2 ⟨hrange, rfl⟩] at hgather
            cases hgather
          rw [if_neg hrange]
          rfl
      | some terms =>
          obtain ⟨hrange, rfl⟩ := b.gather?_matrix_eq_some_iff.1 hgather
          rw [if_pos hrange, ← compare_termsOf]
          rfl

/-- A problem is built exactly when every column has a domain and all triples are in range. -/
theorem problem_eq_ok_iff (b : BufferedEngine α) (integral : Bool) (p : EngineProblem α) :
    b.problem integral = .ok p ↔
      p.direction = b.direction ∧ p.rows = b.engineRows ∧
        List.Forall₂ (fun c v => c.objective = v.objective ∧ domain? integral c = some v.domain)
          b.columns p.unknowns ∧ b.InRange := by
  rw [← unknowns_eq_ok_iff integral 0, problem_eq]
  obtain ⟨direction, vs, rows⟩ := p
  cases unknowns integral 0 b.columns with
  | error e => simp [Except.bind]
  | ok us =>
      by_cases hrange : b.InRange
      · simp only [Except.bind, if_pos hrange, Except.ok.injEq, EngineProblem.mk.injEq]
        tauto
      · simp [Except.bind, hrange]

theorem length_unknowns {b : BufferedEngine α} {integral : Bool} {p : EngineProblem α}
    (hp : b.problem integral = .ok p) : p.unknowns.length = b.columns.length := by
  obtain ⟨-, -, hunknowns, -⟩ := (b.problem_eq_ok_iff integral p).1 hp
  exact hunknowns.length_eq.symm

end Problem

end BufferedEngine

end LinearModel
