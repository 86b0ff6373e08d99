import Mathlib
import LinearModel.Proofs.ExactPoint

/-!
# Solving with an exact engine

An engine answers a problem exactly when its answer is an optimum, when it denies that there are
points and there are none, or when it says that the objective is unbounded and it is
(`EngineAnswer.IsExact`). A session asks its engine about one problem, and its result is what it
makes of the answer. As that problem has the exact points of the program as its points, an exact
answer to it is one about the program: a solution is feasible and no exact point is better, and a
program is called infeasible only if it has no exact point.
-/

namespace LinearModel

def Direction.Improves : Direction → ExtendedRat → ExtendedRat → Prop
  | .minimize, value, other => value.lt other = true
  | .maximize, value, other => other.lt value = true

/-- The answer is right for the problem. One that gives no verdict is. -/
def EngineAnswer.IsExact (p : EngineProblem ExtendedRat) : EngineAnswer ExtendedRat → Prop
  | .optimal values objectiveValue => ∃ x : List Rat, values = x.map .finite ∧ p.IsPoint x ∧
      objectiveValue = p.objectiveAt x ∧
      ∀ y, p.IsPoint y → ¬ p.direction.Improves (p.objectiveAt y) objectiveValue
  | .infeasible => ∀ y, ¬ p.IsPoint y
  | .unbounded => ∀ bound : Rat, ∃ y, p.IsPoint y ∧
      p.direction.Improves (p.objectiveAt y) (.finite bound)
  | .fault => True
  | .stopped => True

/-- What a session makes of the answer to a problem with `n` variables. An optimum without a value
for each of them is none. -/
def EngineAnswer.result {α : Type} (n : Nat) :
    EngineAnswer α → Except (SolveError α) (Solution α)
  | .optimal found objectiveValue =>
    if n ≤ found.length then .ok ⟨.optimal, found.take n, objectiveValue⟩
    else .error .engineStopped
  | .infeasible => .error (.failure .infeasible)
  | .unbounded => .error (.failure .unbounded)
  | .fault => .error (.failure .fault)
  | .stopped => .error .engineStopped

namespace Session

section Solve

variable {α : Type}

/-- The result does not say that an engine finished without a point. -/
def NoFailure {β : Type} (r : Except (SolveError α) β) : Prop :=
  ∀ status, r ≠ .error (.failure status)

theorem noFailure_ok {β : Type} (x : β) : NoFailure (.ok x : Except (SolveError α) β) := by
  intro status h
  cases h

theorem noFailure_error {β : Type} {e : SolveError α} (he : ∀ status, e ≠ .failure status) :
    NoFailure (.error e : Except (SolveError α) β) := by
  intro status h
  cases h
  exact he status rfl

theorem NoFailure.bind {β γ : Type} {r : Except (SolveError α) β}
    {f : β → Except (SolveError α) γ} (hr : NoFailure r) (hf : ∀ x, NoFailure (f x)) :
    NoFailure (r >>= f) := by
  cases r with
  | ok x => exact hf x
  | error e => exact noFailure_error fun status he => hr status (congrArg Except.error he)

variable [Number α]

theorem problem_limitTime (b : BufferedEngine α) (options : SolveOptions) (integral : Bool) :
    (limitTime b options).problem integral = b.problem integral ∧
      (limitTime b options).engine = b.engine := by
  rw [limitTime]
  cases options.timeLimit <;> exact ⟨rfl, rfl⟩

/-- The point that is read off an engine which keeps a value for each variable. -/
theorem solution_eq {b : BufferedEngine α} {n : Nat} (h : b.values.length = n)
    (status : SolveStatus) : solution b n status = ⟨status, b.values, b.objectiveValue⟩ := by
  subst h
  have hvalues : ((List.range b.values.length).map fun j => Backend.primal b (j + 1)) =
      b.values := by
    refine List.ext_getElem (by simp) fun j hj hj' => ?_
    rw [List.getElem_map, List.getElem_range]
    show (b.values[j]?).getD 0 = _
    rw [List.getElem?_eq_getElem hj', Option.getD_some]
  rw [solution, hvalues]
  rfl

/-- The problem that is built for a program has a variable for each of its columns. -/
theorem length_unknowns_holding {engine : Engine α} {lp : LinearProgram α} {integral : Bool}
    {p : EngineProblem α} (hp : (BufferedEngine.holding engine lp).problem integral = .ok p) :
    p.unknowns.length = lp.dimension :=
  (BufferedEngine.length_unknowns hp).trans (BufferedEngine.length_columns_holding engine lp)

/-- Solving a program asks the engine about the problem that is built for it. -/
theorem solve_eq [LawfulNumber α] (s : Session (BufferedEngine α)) {lp : LinearProgram α}
    (hlp : lp.Describable) : (s.solve lp).1 =
      match (BufferedEngine.holding s.backend.engine lp).problem lp.isMixedInteger with
      | .error e => .error e
      | .ok p => (s.backend.engine p).result lp.dimension := by
  obtain ⟨hproblem, hengine⟩ := problem_limitTime (BufferedEngine.holding s.backend.engine lp)
    s.options lp.isMixedInteger
  rw [solve, s.describe_eq_holding hlp]
  simp only [Backend.solve, BufferedEngine.solve, hproblem, hengine]
  cases hp : (BufferedEngine.holding s.backend.engine lp).problem lp.isMixedInteger with
  | error e => rfl
  | ok p =>
      simp only [length_unknowns_holding hp]
      cases hanswer : (BufferedEngine.holding s.backend.engine lp).engine p with
      | optimal found objectiveValue =>
          have hanswer' : s.backend.engine p = .optimal found objectiveValue := hanswer
          simp only [hanswer', EngineAnswer.result]
          cases hvalues : BufferedEngine.valuesOf? found lp.dimension with
          | none => rw [if_neg (BufferedEngine.valuesOf?_eq_none_iff.1 hvalues)]
          | some values =>
              obtain ⟨hfull, rfl⟩ := BufferedEngine.valuesOf?_eq_some_iff.1 hvalues
              rw [if_pos hfull]
              exact congrArg Except.ok
                (solution_eq (List.length_take.trans (Nat.min_eq_left hfull)) .optimal)
      | _ => exact (congrArg (EngineAnswer.result lp.dimension) hanswer).symm

theorem noFailure_columnBound (lp : LinearProgram α) (j : Nat) : NoFailure (lp.columnBound j) := by
  rw [LinearProgram.columnBound]
  split
  · exact noFailure_ok _
  · split
    · exact noFailure_error fun _ h => by cases h
    · split
      · exact noFailure_error fun _ h => by cases h
      · exact noFailure_ok _

theorem noFailure_columnBounds (lp : LinearProgram α) (js : List Nat) :
    NoFailure (lp.columnBounds js) := by
  induction js with
  | nil => exact noFailure_ok _
  | cons j js ih =>
      exact (noFailure_columnBound lp j).bind fun _ => ih.bind fun _ => noFailure_ok _

theorem noFailure_unknowns (integral : Bool) (index : Nat) (cs : List (Column α)) :
    NoFailure (BufferedEngine.unknowns integral index cs) := by
  induction cs generalizing index with
  | nil => exact noFailure_ok _
  | cons c cs ih =>
      rw [BufferedEngine.unknowns]
      cases BufferedEngine.domain? integral c with
      | none => exact noFailure_error fun _ h => by cases h
      | some domain => exact (ih (index + 1)).bind fun _ => noFailure_ok _

theorem noFailure_problem (b : BufferedEngine α) (integral : Bool) :
    NoFailure (b.problem integral) := by
  refine (noFailure_unknowns integral 0 b.columns).bind fun vs => ?_
  split
  · exact noFailure_ok _
  · exact noFailure_error fun _ h => by cases h

theorem noFailure_validate (m : CoordinateList α) (rows cols : Nat) :
    NoFailure (m.validate rows cols) := by
  rw [CoordinateList.validate]
  split
  · exact noFailure_error fun _ h => by cases h
  · exact noFailure_ok _

/-- Describing a program never says that an engine failed. -/
theorem noFailure_describe (s : Session (BufferedEngine α)) (lp : LinearProgram α) :
    NoFailure (s.describe lp).1 := by
  have hcolumns := noFailure_columnBounds lp (List.range lp.dimension)
  rw [describe]
  cases hcase : lp.columnBounds (List.range lp.dimension) with
  | error e =>
      rw [hcase] at hcolumns
      exact noFailure_error fun status he => hcolumns status (congrArg Except.error he)
  | ok columns =>
      have hvalidate := noFailure_validate lp.coordinates
        (Backend.tellAll s.backend (lp.statements s.options.verbose columns)).rows.length
        (Backend.tellAll s.backend (lp.statements s.options.verbose columns)).columns.length
      simp only [Backend.load, BufferedEngine.load]
      split
      · exact noFailure_ok _
      · next herror => exact herror ▸ hvalidate

end Solve

section Exact

variable {s : Session (BufferedEngine ExtendedRat)} {lp : LinearProgram ExtendedRat}

/-- A solution and a failure come from the answer of the engine to the problem that is built. -/
theorem exists_answer {r : Except (SolveError ExtendedRat) (Solution ExtendedRat)}
    (hr : (s.solve lp).1 = r)
    (hanswered : (∃ solution, r = .ok solution) ∨ ∃ status, r = .error (.failure status)) :
    lp.Describable ∧ ∃ p,
      (BufferedEngine.holding s.backend.engine lp).problem lp.isMixedInteger = .ok p ∧
        (s.backend.engine p).result lp.dimension = r := by
  have hdescribed : (s.describe lp).1 = .ok () := by
    cases hdescribe : (s.describe lp).1 with
    | ok _ => rfl
    | error e =>
        rw [s.solve_eq_error hdescribe] at hr
        rcases hanswered with ⟨solution, rfl⟩ | ⟨status, rfl⟩
        · cases hr
        · cases hr
          exact absurd hdescribe (noFailure_describe s lp status)
  have hlp : lp.Describable := (s.describe_eq_ok_iff lp).1 hdescribed
  rw [s.solve_eq hlp] at hr
  refine ⟨hlp, ?_⟩
  cases hproblem : (BufferedEngine.holding s.backend.engine lp).problem lp.isMixedInteger with
  | ok p =>
      rw [hproblem] at hr
      exact ⟨p, rfl, hr⟩
  | error e =>
      rw [hproblem] at hr
      rcases hanswered with ⟨solution, rfl⟩ | ⟨status, rfl⟩
      · cases hr
      · cases hr
        exact absurd hproblem (noFailure_problem _ _ status)

end Exact

/-- A session whose engine is exact solves exactly. -/
theorem solve_sound (s : Session (BufferedEngine ExtendedRat)) (lp : LinearProgram ExtendedRat)
    (hengine : (s.describe lp).1 = .ok () → ∀ p,
      (s.describe lp).2.backend.problem lp.isMixedInteger = .ok p →
        (s.backend.engine p).IsExact p) :
    (∀ solution, (s.solve lp).1 = .ok solution →
      solution.values.length = lp.dimension ∧
      lp.isFeasible solution.values = .ok true ∧
      lp.evaluate solution.values = .ok solution.objectiveValue ∧
      ∀ y, lp.ExactPoint y → ∀ value, lp.evaluate (y.map .finite) = .ok value →
        ¬ lp.direction.Improves value solution.objectiveValue) ∧
    ((s.solve lp).1 = .error (.failure .infeasible) → ∀ y, ¬ lp.ExactPoint y) := by
  have hexact (hlp : lp.Describable) {p : EngineProblem ExtendedRat}
      (hp : (BufferedEngine.holding s.backend.engine lp).problem lp.isMixedInteger = .ok p) :
      (s.backend.engine p).IsExact p := by
    rw [s.describe_eq_holding hlp] at hengine
    exact hengine rfl p hp
  constructor
  · intro solution hsolution
    obtain ⟨hlp, p, hp, hresult⟩ := exists_answer hsolution (.inl ⟨solution, rfl⟩)
    have hanswer := hexact hlp hp
    cases hcase : s.backend.engine p with
    | optimal values objectiveValue =>
        rw [hcase] at hresult hanswer
        obtain ⟨x, rfl, hx, rfl, hbest⟩ := hanswer
        have hpoint : lp.ExactPoint x := (lp.isPoint_iff_exactPoint hlp hp x).1 hx
        have hlength : lp.dimension = (x.map ExtendedRat.finite).length := by
          rw [List.length_map, hpoint.length_eq]
        rw [EngineAnswer.result, if_pos hlength.le, hlength, List.take_length] at hresult
        cases hresult
        rw [hlength]
        refine ⟨rfl, hpoint.isFeasible hlp, ?_, ?_⟩
        · rw [lp.evaluate_eq_ok hpoint.length_eq, lp.objectiveAt_problem hp]
        · intro y hy value hvalue
          rw [lp.evaluate_eq_ok hy.length_eq, ← lp.objectiveAt_problem hp] at hvalue
          cases hvalue
          have hdirection : p.direction = lp.direction :=
            ((BufferedEngine.problem_eq_ok_iff _ _ p).1 hp).1
          exact hdirection ▸ hbest y ((lp.isPoint_iff_exactPoint hlp hp y).2 hy)
    | infeasible => cases hcase ▸ hresult
    | unbounded => cases hcase ▸ hresult
    | fault => cases hcase ▸ hresult
    | stopped => cases hcase ▸ hresult
  · intro hfailure y hy
    obtain ⟨hlp, p, hp, hresult⟩ := exists_answer hfailure (.inr ⟨_, rfl⟩)
    have hanswer := hexact hlp hp
    cases hcase : s.backend.engine p with
    | infeasible =>
        rw [hcase] at hanswer
        exact hanswer y ((lp.isPoint_iff_exactPoint hlp hp y).2 hy)
    | optimal found objectiveValue =>
        rw [hcase, EngineAnswer.result] at hresult
        split at hresult <;> cases hresult
    | unbounded => cases hcase ▸ hresult
    | fault => cases hcase ▸ hresult
    | stopped => cases hcase ▸ hresult

end Session

def pairProgram : LinearProgram ExtendedRat :=
  ⟨2, #v[⟨"n", .finite 0, .posInf, true, false⟩, ⟨"x", .finite 0, .finite (1 / 2), false, false⟩],
    .ofDense [.finite 2, .finite 1], false, true, true,
    [⟨"p", .ofDense [.finite 1, .finite 1], .le, .finite 2⟩]⟩

theorem formAt_pair (a b p q : Rat) :
    (Cells.ofDense [.finite a, .finite b]).formAt [p, q] = .finite (a * p + b * q) := by
  show ExtendedRat.finite (-0 + a * p + b * q) = _
  rw [neg_zero, zero_add]

theorem exactPoint_pairProgram_iff (y : List Rat) : pairProgram.ExactPoint y ↔
    ∃ p q, y = [p, q] ∧ (0 ≤ p ∧ IsInt32 p) ∧ (0 ≤ q ∧ q ≤ 1 / 2) ∧ p + q ≤ 2 := by
  constructor
  · rintro ⟨hunknowns, hconstraints⟩
    obtain ⟨p, ps, hp, htail, rfl⟩ := List.forall₂_cons_left_iff.1 hunknowns
    obtain ⟨q, qs, hq, hnil, rfl⟩ := List.forall₂_cons_left_iff.1 htail
    obtain rfl := List.forall₂_nil_left_iff.1 hnil
    have hsum : (Cells.ofDense [.finite 1, .finite 1]).formAt [p, q] ≤ ExtendedRat.finite 2 :=
      hconstraints _ List.mem_cons_self
    rw [formAt_pair, ExtendedRat.finite_le_finite, one_mul, one_mul] at hsum
    exact ⟨p, q, rfl, ⟨ExtendedRat.finite_le_finite.1 hp.1.1, hp.2 rfl⟩,
      ⟨ExtendedRat.finite_le_finite.1 hq.1.1, ExtendedRat.finite_le_finite.1 hq.1.2⟩, hsum⟩
  · rintro ⟨p, q, rfl, ⟨hp, hword⟩, ⟨hq, hq'⟩, hsum⟩
    constructor
    · exact .cons ⟨⟨ExtendedRat.finite_le_finite.2 hp, rfl⟩, fun _ => hword⟩
        (.cons ⟨⟨ExtendedRat.finite_le_finite.2 hq, ExtendedRat.finite_le_finite.2 hq'⟩,
        fun h => absurd h Bool.false_ne_true⟩ .nil)
    · intro c hc
      rw [List.mem_singleton.1 hc]
      show (Cells.ofDense [.finite 1, .finite 1]).formAt [p, q] ≤ ExtendedRat.finite 2
      rwa [formAt_pair, ExtendedRat.finite_le_finite, one_mul, one_mul]

def pairSession : Session (BufferedEngine ExtendedRat) :=
  .new (.new fun _ => .optimal [.finite 2, .finite 0] (.finite 4))

theorem pairProgram_describable : pairProgram.Describable := ⟨by decide +kernel, by decide⟩

theorem isExact_pairSession {p : EngineProblem ExtendedRat}
    (hp : (BufferedEngine.holding pairSession.backend.engine pairProgram).problem
      pairProgram.isMixedInteger = .ok p) : (pairSession.backend.engine p).IsExact p := by
  refine ⟨[2, 0], rfl, ?_, ?_, ?_⟩
  · rw [LinearProgram.isPoint_iff_exactPoint pairProgram_describable hp,
      exactPoint_pairProgram_iff]
    refine ⟨2, 0, rfl, ⟨by norm_num, 2, by norm_num, by decide, by decide⟩, ?_, ?_⟩ <;> norm_num
  · rw [LinearProgram.objectiveAt_problem hp]
    exact (formAt_pair 2 1 2 0).symm ▸ by norm_num
  · intro y hy
    rw [LinearProgram.isPoint_iff_exactPoint pairProgram_describable hp,
      exactPoint_pairProgram_iff] at hy
    obtain ⟨a, b, rfl, -, ⟨hb, -⟩, hsum⟩ := hy
    have hdirection : p.direction = .maximize :=
      ((BufferedEngine.problem_eq_ok_iff _ _ p).1 hp).1
    have hobjective : p.objectiveAt [a, b] = .finite (2 * a + 1 * b) := by
      rw [LinearProgram.objectiveAt_problem hp]
      exact formAt_pair 2 1 a b
    rw [hdirection, hobjective]
    show ¬ decide ((4 : Rat) < 2 * a + 1 * b) = true
    rw [decide_eq_true_iff, not_lt]
    linarith

/-- Solving `pairProgram` with that engine gives a solution that no exact point improves. -/
theorem solve_pairProgram :
    (pairSession.solve pairProgram).1 = .ok ⟨.optimal, [.finite 2, .finite 0], .finite 4⟩ ∧
      pairProgram.isFeasible [.finite 2, .finite 0] = .ok true ∧
      ∀ y, pairProgram.ExactPoint y → ∀ value, pairProgram.evaluate (y.map .finite) = .ok value →
        ¬ Direction.maximize.Improves value (.finite 4) := by
  have hsolve : (pairSession.solve pairProgram).1 =
      .ok ⟨.optimal, [.finite 2, .finite 0], .finite 4⟩ := by
    have hrange := BufferedEngine.inRange_holding pairSession.backend.engine
      pairProgram_describable
    rw [pairSession.solve_eq pairProgram_describable, BufferedEngine.problem_eq]
    simp only [if_pos hrange]
    rfl
  have hsound := pairSession.solve_sound pairProgram (by
    rw [pairSession.describe_eq_holding pairProgram_describable]
    exact fun _ _ => isExact_pairSession)
  obtain ⟨-, hfeasible, -, hbest⟩ := hsound.1 _ hsolve
  exact ⟨hsolve, hfeasible, hbest⟩

end LinearModel
