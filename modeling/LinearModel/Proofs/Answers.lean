import Mathlib
import LinearModel.Engine.Exact
import LinearModel.Proofs.LinearForm
import LinearModel.Proofs.Soundness

/-!
# Answers that a solve can use

A solve breaks off where its engine does, and where an optimum lacks the value of a variable
(`EngineAnswer.BreaksOff`). Engines rely on rows that do not name a variable twice. The problem of a
program has none that does (`BufferedEngine.distinct_of_problem_eq_ok`), so that an engine which
answers all such problems (`Engine.Answers`) answers every program; the exact engine is one.
-/

namespace LinearModel

section Answers

variable {α : Type}

/-- No row names a variable twice. -/
def EngineProblem.Distinct (p : EngineProblem α) : Prop :=
  ∀ row ∈ p.rows, (row.terms.map Prod.fst).Nodup

/-- There is no answer, or it is an optimum without a value for each of the `n` variables. -/
def EngineAnswer.BreaksOff (n : Nat) : EngineAnswer α → Prop
  | .optimal found _ => found.length < n
  | .stopped => True
  | .infeasible | .unbounded | .fault => False

/-- The engine does not break off unless a row names a variable twice. -/
def Engine.Answers (engine : Engine α) : Prop :=
  ∀ p, p.Distinct → ¬ (engine p).BreaksOff p.unknowns.length

theorem EngineAnswer.result_eq_engineStopped_iff (n : Nat) (a : EngineAnswer α) :
    a.result n = .error .engineStopped ↔ a.BreaksOff n := by
  cases a with
  | optimal found objectiveValue =>
      rw [result, BreaksOff]
      split
      · next hfull => simp [hfull]
      · next hshort => simpa using hshort
  | _ => simp [result, BreaksOff]

variable [Number α]

/-- The terms of a row come from a single constraint, whose entries have places of their own. -/
theorem BufferedEngine.distinct_of_problem_eq_ok {lp : LinearProgram α} {engine : Engine α}
    {integral : Bool} {p : EngineProblem α}
    (hp : (BufferedEngine.holding engine lp).problem integral = .ok p) : p.Distinct := by
  obtain ⟨-, hrows, -⟩ := (problem_eq_ok_iff _ integral p).1 hp
  intro row hrow
  rw [hrows, engineRows] at hrow
  obtain ⟨⟨held, i⟩, hheld, hrow⟩ := List.mem_flatMap.1 hrow
  obtain ⟨k, -, rfl⟩ := List.mem_map.1 hrow
  have hi : i < lp.constraints.length := by
    rw [← length_rows_holding engine lp]
    exact (List.getElem?_eq_some_iff.1 (List.mem_zipIdx_iff_getElem?.1 hheld)).1
  have hterms : termsOf (holding engine lp).matrix (i + 1) =
      LinearProgram.ascendingEntries lp.constraints[i] :=
    lp.termsOf_coordinates (List.getElem?_eq_getElem hi)
  rw [hterms, List.Nodup, List.pairwise_map]
  exact (LinearProgram.pairwise_lt_ascendingEntries _).imp Nat.ne_of_lt

end Answers

section Exact

namespace RationalProblem

theorem length_of_relax_eq_optimal {p : RationalProblem} {values : List Rat} {objective : Rat}
    (h : p.relax = .optimal values objective) : values.length = p.limits.length := by
  rw [relax] at h
  split at h
  · cases h
  · split at h
    · cases h
    · cases h
    · simp only at h
      split at h
      · cases h
        simp [point]
      · cases h
      · cases h

@[simp] theorem length_withLimits (p : RationalProblem) (j : Nat)
    (limits : Option Rat × Option Rat) : (p.withLimits j limits).limits.length = p.limits.length :=
  List.length_set

theorem Search.andThen_eq_finished_iff {s : Search} {next : Incumbent → Search}
    {best : Incumbent} : s.andThen next = .finished best ↔
      ∃ first, s = .finished first ∧ next first = .finished best := by
  cases s <;> simp [Search.andThen]

/-- An incumbent has one value for each limit, and so has each one that replaces it. -/
theorem length_of_search_eq_finished {integers : List Nat} {fuel : Nat} {p : RationalProblem}
    {best best' : Incumbent} (hbest : ∀ found ∈ best, found.1.length = p.limits.length)
    (h : search integers fuel p best = .finished best') :
    ∀ found ∈ best', found.1.length = p.limits.length := by
  induction fuel generalizing p best best' with
  | zero => cases h
  | succ fuel ih =>
      rw [search] at h
      cases hrelax : p.relax with
      | infeasible =>
          rw [hrelax] at h
          cases h
          exact hbest
      | unbounded => simp [hrelax] at h
      | exhausted => simp [hrelax] at h
      | optimal values objective =>
          simp only [hrelax] at h
          split at h
          · cases h
            exact hbest
          · split at h
            · cases h
              rintro found ⟨⟩
              exact length_of_relax_eq_optimal hrelax
            · -- Whichever range comes first, each search starts from what the one before it left.
              split at h <;>
              · obtain ⟨between, hfirst, hsecond⟩ := Search.andThen_eq_finished_iff.1 h
                have hbetween := ih (by simpa using hbest) hfirst
                simpa using ih (by simpa using hbetween) hsecond

end RationalProblem

theorem length_of_mapM_eq_some {β γ : Type} {f : β → Option γ} {xs : List β} {ys : List γ}
    (h : xs.mapM f = some ys) : ys.length = xs.length := by
  induction xs generalizing ys with
  | nil =>
      cases h
      rfl
  | cons x xs ih =>
      rw [List.mapM_cons] at h
      obtain ⟨y, -, h⟩ := Option.bind_eq_some_iff.1 h
      obtain ⟨rest, hrest, h⟩ := Option.bind_eq_some_iff.1 h
      cases h
      simp [ih hrest]

namespace ExactEngine

variable {α : Type} [Number α]

/-- An optimum that is found has a value for each variable. -/
theorem not_breaksOff_answer (reading : Reading α) (p : EngineProblem α) (objective : List Rat)
    (terms : List (List (Nat × Rat))) :
    ¬ (answer reading p objective terms).BreaksOff p.unknowns.length := by
  rw [answer]
  cases hlimits : p.unknowns.mapM fun v => limits? reading v.domain with
  | none => exact not_false
  | some limits =>
      simp only
      split
      · exact not_false
      · split
        · next found _ hfound =>
          have hlength : found.length = limits.length :=
            RationalProblem.length_of_search_eq_finished (by nofun) hfound _ rfl
          rw [EngineAnswer.BreaksOff, List.length_map, hlength, length_of_mapM_eq_some hlimits]
          exact Nat.lt_irrefl _
        all_goals exact not_false

end ExactEngine

theorem exactEngine_answers {α : Type} [Number α] (reading : Reading α) :
    (exactEngine reading).Answers := by
  intro p hp
  have hrepeats : p.rows.any ExactEngine.repeats = false := by
    simpa [ExactEngine.repeats, EngineProblem.Distinct] using hp
  rw [exactEngine, hrepeats]
  simp only [Bool.false_eq_true, if_false]
  split
  · exact ExactEngine.not_breaksOff_answer reading p _ _
  · exact not_false

end Exact

end LinearModel
