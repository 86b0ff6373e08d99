import Mathlib
import LinearModel.Engine.Exact
import LinearModel.Proofs.Handover

/-!
# The last optimum

What a buffered engine answers about a point is the point of its last optimal solve, or zero if a
reset came later (`BufferedEngine.Stands`). Calls between that are no reset and no optimal solve
keep it, although they may add columns: an index past the columns of that solve then reads zero,
as a point has one value for each variable that was looked up in the answer. A matrix that is
refused and a solve that does not end optimal change nothing at all.

A solve looks up the row and the column of every triple. It finds them, unless the number of rows or
columns passed the last word after the matrix was taken in (`BufferedEngine.steady_wrappedBuffer`).
-/

namespace LinearModel

namespace BufferedEngine

variable {α : Type} [Number α]

theorem solve_eq_optimal_iff (b : BufferedEngine α) (integral : Bool) :
    (Backend.solve b integral).1 = .ok .optimal ↔
      ∃ p found objectiveValue, b.problem integral = .ok p ∧
        b.engine p = .optimal found objectiveValue ∧ p.unknowns.length ≤ found.length := by
  show (b.solve integral).1 = .ok .optimal ↔ _
  rw [solve_fst_eq]
  cases b.problem integral with
  | error e => simp [Except.bind]
  | ok p => cases hanswer : b.engine p <;> simp [Except.bind, EngineAnswer.status, hanswer]

theorem solve_eq_self {b : BufferedEngine α} {integral : Bool}
    (h : (Backend.solve b integral).1 ≠ .ok .optimal) : (Backend.solve b integral).2 = b := by
  show (b.solve integral).2 = b
  rw [Ne, solve_eq_optimal_iff] at h
  rw [solve]
  cases hproblem : b.problem integral with
  | error e => rfl
  | ok p =>
      cases hanswer : b.engine p with
      | optimal found objectiveValue =>
          have hshort : ¬ p.unknowns.length ≤ found.length :=
            fun hfull => h ⟨p, _, _, hproblem, hanswer, hfull⟩
          simp [hanswer, valuesOf?_eq_none_iff.2 hshort]
      | _ => simp [hanswer]

/-- An optimal solve keeps the values of the variables. -/
theorem solve_of_optimal {b : BufferedEngine α} {integral : Bool} {p : EngineProblem α}
    {found : List α} {objectiveValue : α} (hproblem : b.problem integral = .ok p)
    (hanswer : b.engine p = .optimal found objectiveValue)
    (hfull : p.unknowns.length ≤ found.length) :
    (Backend.solve b integral).2 =
      { b with values := found.take p.unknowns.length, objectiveValue } := by
  show (b.solve integral).2 = _
  rw [solve, hproblem]
  simp only [hanswer, valuesOf?_eq_some_iff.2 ⟨hfull, rfl⟩]

section Standing

/-- The call is no reset and no solve that ends optimal. -/
def Keeps (b : BufferedEngine α) : Call α → Prop
  | .tell s => s ≠ .reset
  | .load _ => True
  | .solve integral => (Backend.solve b integral).1 ≠ .ok .optimal

instance [DecidableEq α] (b : BufferedEngine α) (c : Call α) : Decidable (b.Keeps c) :=
  match c with
  | .tell s => inferInstanceAs (Decidable (s ≠ .reset))
  | .load _ => .isTrue trivial
  | .solve integral => inferInstanceAs (Decidable ((Backend.solve b integral).1 ≠ .ok .optimal))

/-- None of the calls, made one after the other, is a reset or a solve that ends optimal. -/
def Quiet (b : BufferedEngine α) : List (Call α) → Prop
  | [] => True
  | c :: rest => b.Keeps c ∧ (Backend.perform b c).Quiet rest

instance decidableQuiet [DecidableEq α] :
    (b : BufferedEngine α) → (calls : List (Call α)) → Decidable (b.Quiet calls)
  | _, [] => .isTrue trivial
  | b, c :: rest =>
    have := decidableQuiet (Backend.perform b c) rest
    inferInstanceAs (Decidable (_ ∧ _))

theorem quiet_append_singleton (b : BufferedEngine α) (calls : List (Call α)) (c : Call α) :
    b.Quiet (calls ++ [c]) ↔ b.Quiet calls ∧ (Backend.performAll b calls).Keeps c := by
  induction calls generalizing b with
  | nil => simp [Quiet]
  | cons d rest ih => simp [Quiet, ih, and_assoc]

theorem Keeps.point {b : BufferedEngine α} {c : Call α} (h : b.Keeps c) :
    (Backend.perform b c).values = b.values ∧
      (Backend.perform b c).objectiveValue = b.objectiveValue := by
  cases c with
  | tell s =>
      cases s with
      | reset => exact absurd rfl h
      | _ => exact ⟨rfl, rfl⟩
  | load m =>
      cases hload : (Backend.load b m).1 with
      | error e => simp [Backend.perform, load_eq_self hload]
      | ok _ =>
          show (b.load m).2.values = _ ∧ (b.load m).2.objectiveValue = _
          rw [load]
          cases m.validate b.rows.length b.columns.length <;> exact ⟨rfl, rfl⟩
  | solve integral => simp [Backend.perform, solve_eq_self h]

theorem Quiet.point {b : BufferedEngine α} {calls : List (Call α)} (h : b.Quiet calls) :
    (Backend.performAll b calls).values = b.values ∧
      (Backend.performAll b calls).objectiveValue = b.objectiveValue := by
  induction calls generalizing b with
  | nil => exact ⟨rfl, rfl⟩
  | cons c rest ih =>
      obtain ⟨hvalues, hobjective⟩ := ih h.2
      obtain ⟨hvalues', hobjective'⟩ := h.1.point
      exact ⟨hvalues.trans hvalues', hobjective.trans hobjective'⟩

/-- What an optimal solve found: a value for each of the columns there were. -/
structure Optimum (α : Type) where
  values : List α
  objectiveValue : α
  deriving DecidableEq, Repr

/-- What the last optimal solve since the last reset found, if there was one. -/
inductive Stands (engine : Engine α) : List (Call α) → Option (Optimum α) → Prop
  | found (before rest : List (Call α)) (integral : Bool) (p : EngineProblem α) (found : List α)
      (objectiveValue : α) (hproblem : (after engine before).problem integral = .ok p)
      (hanswer : engine p = .optimal found objectiveValue)
      (hfull : (after engine before).columns.length ≤ found.length)
      (hquiet : (after engine (before ++ [.solve integral])).Quiet rest) :
      Stands engine (before ++ [.solve integral] ++ rest)
        (some ⟨found.take (after engine before).columns.length, objectiveValue⟩)
  | reset (before rest : List (Call α))
      (hquiet : (after engine (before ++ [.tell .reset])).Quiet rest) :
      Stands engine (before ++ [.tell .reset] ++ rest) none
  | start (calls : List (Call α)) (hquiet : (new engine).Quiet calls) : Stands engine calls none

namespace Stands

variable {engine : Engine α} {calls : List (Call α)} {o : Option (Optimum α)}

theorem keep (h : Stands engine calls o) {c : Call α} (hc : (after engine calls).Keeps c) :
    Stands engine (calls ++ [c]) o := by
  cases h with
  | found before rest integral p found objectiveValue hproblem hanswer hfull hquiet =>
      rw [List.append_assoc]
      rw [after_append] at hc
      exact .found before (rest ++ [c]) integral p found objectiveValue hproblem hanswer hfull
        ((quiet_append_singleton _ _ _).2 ⟨hquiet, hc⟩)
  | reset before rest hquiet =>
      rw [List.append_assoc]
      rw [after_append] at hc
      exact .reset before (rest ++ [c]) ((quiet_append_singleton _ _ _).2 ⟨hquiet, hc⟩)
  | start calls hquiet => exact .start _ ((quiet_append_singleton _ _ _).2 ⟨hquiet, hc⟩)

/-- Every history has a last optimum, or none. -/
theorem exists_stands (engine : Engine α) (calls : List (Call α)) :
    ∃ o, Stands engine calls o := by
  induction calls using List.reverseRecOn with
  | nil => exact ⟨none, .start [] trivial⟩
  | append_singleton calls c ih =>
      obtain ⟨o, ho⟩ := ih
      by_cases hkeeps : (after engine calls).Keeps c
      · exact ⟨o, ho.keep hkeeps⟩
      · cases c with
        | tell s =>
            obtain rfl : s = .reset := not_not.1 hkeeps
            exact ⟨none, by simpa using Stands.reset calls [] trivial⟩
        | load m => exact absurd trivial hkeeps
        | solve integral =>
            obtain ⟨p, found, objectiveValue, hproblem, hanswer, hfull⟩ :=
              (solve_eq_optimal_iff _ _).1 (not_not.1 hkeeps)
            rw [engine_after] at hanswer
            rw [length_unknowns hproblem] at hfull
            exact ⟨_, by
              simpa using Stands.found calls [] integral p found objectiveValue hproblem hanswer
                hfull trivial⟩

end Stands

/-- What reads of the point give when `o` stands: its values by the number of the column, zero for
a number that its columns do not have, and zero if there is no optimum. -/
structure ReadsAs (b : BufferedEngine α) (o : Option (Optimum α)) : Prop where
  value : ∀ (found : Optimum α) (j : Nat), found ∈ o → j < found.values.length →
    found.values[j]? = some (Backend.primal b (j + 1))
  outside : ∀ (found : Optimum α) (j : Nat), found ∈ o → j = 0 ∨ found.values.length < j →
    Backend.primal b j = 0
  objective : ∀ found ∈ o, Backend.objectiveValue b = found.objectiveValue
  blank : o = none → (∀ j, Backend.primal b j = 0) ∧ Backend.objectiveValue b = 0

theorem ReadsAs.of_values {b : BufferedEngine α} {found : Optimum α}
    (hvalues : b.values = found.values) (hobjective : b.objectiveValue = found.objectiveValue) :
    b.ReadsAs (some found) where
  value found' j hfound hj := by
    cases hfound
    show found.values[j]? = some ((b.values[j]?).getD 0)
    rw [hvalues, List.getElem?_eq_getElem hj, Option.getD_some]
  outside found' j hfound hj := by
    cases hfound
    show (getNumbered? b.values j).getD 0 = 0
    rcases hj with rfl | hj
    · rfl
    · obtain ⟨j, rfl⟩ := Nat.exists_eq_add_one_of_ne_zero (Nat.ne_zero_of_lt hj)
      rw [getNumbered?, hvalues, List.getElem?_eq_none (by omega), Option.getD_none]
  objective found' hfound := by
    cases hfound
    exact hobjective
  blank h := by cases h

theorem ReadsAs.of_blank {b : BufferedEngine α} (hvalues : b.values = [])
    (hobjective : b.objectiveValue = 0) : b.ReadsAs none where
  value _ _ h := by cases h
  outside _ _ h := by cases h
  objective _ h := by cases h
  blank _ := by
    refine ⟨fun j => ?_, hobjective⟩
    show (getNumbered? b.values j).getD 0 = 0
    rw [hvalues]
    cases j <;> rfl

/-- Reads give the optimum that stands. -/
theorem Stands.readsAs {engine : Engine α} {calls : List (Call α)} {o : Option (Optimum α)}
    (h : Stands engine calls o) : (after engine calls).ReadsAs o := by
  cases h with
  | found before rest integral p found objectiveValue hproblem hanswer hfull hquiet =>
      obtain ⟨hvalues, hobjective⟩ := hquiet.point
      have hsolved : after engine (before ++ [.solve integral]) =
          { after engine before with
            values := found.take (after engine before).columns.length, objectiveValue } := by
        rw [← length_unknowns hproblem] at hfull ⊢
        rw [after_append]
        exact solve_of_optimal hproblem (by rw [engine_after, hanswer]) hfull
      rw [hsolved] at hvalues hobjective
      rw [after_append, hsolved]
      exact .of_values hvalues hobjective
  | reset before rest hquiet =>
      obtain ⟨hvalues, hobjective⟩ := hquiet.point
      have hreset : after engine (before ++ [.tell .reset]) = new engine := by
        rw [after_append]
        exact congrArg new (engine_after engine before)
      rw [hreset] at hvalues hobjective
      rw [after_append, hreset]
      exact .of_blank hvalues hobjective
  | start calls hquiet =>
      obtain ⟨hvalues, hobjective⟩ := hquiet.point
      exact .of_blank hvalues hobjective

end Standing

/-- Triples that were taken in are counted from one, and their values are finite and not zero. -/
theorem Checked.triple [LawfulNumber α] {b : BufferedEngine α} (h : b.Checked)
    {t : Nat × Nat × α} (ht : t ∈ b.matrix.triples) :
    1 ≤ t.1 ∧ 1 ≤ t.2.1 ∧ ∃ q, Number.exact t.2.2 = .finite q ∧ q ≠ 0 := by
  obtain ⟨rows, cols, hadmits⟩ := h
  obtain ⟨hrow, -, hcol, -, hnonzero, hfinite⟩ :=
    CoordinateList.admits_eq_true_iff.1 (hadmits t ht)
  obtain ⟨q, hq⟩ := Number.isFinite_iff.1 hfinite
  refine ⟨hrow, hcol, q, hq, ?_⟩
  rintro rfl
  exact absurd hq ((LinearProgram.beq_zero_eq_false_iff t.2.2).1 hnonzero)

/-- The terms of the rows can be gathered exactly if all triples are in range. -/
theorem isSome_gather?_iff {b : BufferedEngine α} {integral : Bool}
    {vs : List (EngineVariable α)} (hvs : unknowns integral 0 b.columns = .ok vs) :
    (gather? vs.length b.matrix.triples (List.replicate b.rows.length [])).isSome ↔ b.InRange := by
  rw [length_of_unknowns_eq_ok hvs, Option.isSome_iff_exists]
  exact ⟨fun ⟨_, h⟩ => (b.gather?_matrix_eq_some_iff.1 h).1,
    fun h => ⟨_, b.gather?_matrix_eq_some_iff.2 ⟨h, rfl⟩⟩⟩

/-- One column between zero and three, worth two. -/
def columnCalls : List (Call ExtendedRat) :=
  [.tell (.addColumns 1), .tell (.objective 1 (.finite 2)),
    .tell (.columnBound 1 ⟨.double, .finite 0, .finite 3⟩)]

/-- A second column, a matrix that is refused, one with lists of different lengths, and a row that
no point satisfies. -/
def impossibleCalls : List (Call ExtendedRat) :=
  [.tell (.addColumns 1), .tell (.addRows 1), .load ⟨[1], [1], [.posInf]⟩,
    .load ⟨[1, 9], [2], [.finite 1]⟩, .tell (.rowBound 1 ⟨.upper, .nan, .finite (-1)⟩),
    .tell (.columnBound 2 ⟨.lower, .finite 0, .nan⟩), .solve false]

def impossibleBuffer : BufferedEngine ExtendedRat :=
  after (exactEngine id) (columnCalls ++ [.solve true] ++ impossibleCalls)

end BufferedEngine

end LinearModel
