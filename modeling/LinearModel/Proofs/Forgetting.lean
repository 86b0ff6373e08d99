import Mathlib
import LinearModel.Proofs.Handover
import LinearModel.Proofs.Refusal
import LinearModel.Samples
import LinearModel.Session.Requests

/-!
# A session forgets its history

The first statement of every description is a reset. What a reset makes of a backend depends on one
thing that no call changes (`Backend.Forgets`): a recorder keeps the outcome that was laid down
for it, a buffered engine keeps its engine. Two sessions with equal options whose backends keep the
same (`Session.Akin`) are one session to every program whose limits are accepted: they give it the
same result and are equal afterwards. Requests lead from a session to one akin to it, and a new
session with a new backend that keeps the same is akin to both.
-/

namespace LinearModel

variable {B α γ : Type} [Backend B α] {kept : B → γ}

/-- What a reset leaves of a backend is determined by what is kept of it through every call. -/
structure Backend.Forgets (kept : B → γ) : Prop where
  tell_reset : ∀ b c, kept b = kept c →
    Backend.tell b (.reset : Statement α) = Backend.tell c (.reset : Statement α)
  perform : ∀ b (call : Call α), kept (Backend.perform b call) = kept b

namespace Backend.Forgets

theorem tell (h : Forgets kept) (b : B) (s : Statement α) : kept (Backend.tell b s) = kept b :=
  h.perform b (.tell s)

theorem tellAll (h : Forgets kept) (b : B) (statements : List (Statement α)) :
    kept (Backend.tellAll b statements) = kept b := by
  induction statements generalizing b with
  | nil => rfl
  | cons s rest ih => exact (ih (Backend.tell b s)).trans (h.tell b s)

theorem load (h : Forgets kept) (b : B) (m : CoordinateList α) :
    kept (Backend.load b m).2 = kept b :=
  h.perform b (.load m)

theorem solve (h : Forgets kept) (b : B) (integral : Bool) :
    kept (Backend.solve b integral).2 = kept b :=
  h.perform b (.solve integral)

end Backend.Forgets

variable [Number α]

theorem Recorder.forgets : Backend.Forgets (Recorder.outcome : Recorder α → Outcome α) where
  tell_reset b c h := by
    show (withOutcome b.outcome).note .reset = (withOutcome c.outcome).note .reset
    rw [h]
  perform b call := by
    cases call with
    | tell s => cases s <;> rfl
    | load m =>
        show (Recorder.load b m).2.outcome = b.outcome
        rw [Recorder.load]
        split <;> rfl
    | solve integral => rfl

theorem BufferedEngine.forgets :
    Backend.Forgets (BufferedEngine.engine : BufferedEngine α → Engine α) where
  tell_reset b c h := by
    show new b.engine = new c.engine
    rw [h]
  perform := engine_perform

namespace Session

variable {s t : Session B} {lp : LinearProgram α}

/-- The sessions have the same options, and their backends keep the same. -/
structure Akin (kept : B → γ) (s t : Session B) : Prop where
  options : s.options = t.options
  backend : kept s.backend = kept t.backend

theorem Akin.trans {u : Session B} (h : Akin kept s t) (h' : Akin kept t u) : Akin kept s u :=
  ⟨h.options.trans h'.options, h.backend.trans h'.backend⟩

theorem akin_describe (hkept : Backend.Forgets kept) (s : Session B) (lp : LinearProgram α) :
    Akin kept (s.describe lp).2 s := by
  rw [describe]
  cases lp.columnBounds (List.range lp.dimension) with
  | error e => exact ⟨rfl, rfl⟩
  | ok columns => exact ⟨rfl, (hkept.load _ _).trans (hkept.tellAll _ _)⟩

omit [Number α] in
theorem kept_limitTime (hkept : Backend.Forgets kept) (b : B) (options : SolveOptions) :
    kept (limitTime b options) = kept b := by
  rw [limitTime]
  cases options.timeLimit with
  | none => rfl
  | some ms => exact hkept.tell b _

theorem akin_solve (hkept : Backend.Forgets kept) (s : Session B) (lp : LinearProgram α) :
    Akin kept (s.solve lp).2 s := by
  have hdescribe := akin_describe hkept s lp
  cases hresult : (s.describe lp).1 with
  | error e =>
      rw [s.solve_eq_error hresult]
      exact hdescribe
  | ok _ =>
      rw [s.snd_solve_of_ok hresult]
      exact ⟨hdescribe.options,
        (hkept.solve _ _).trans ((kept_limitTime hkept _ _).trans hdescribe.backend)⟩

theorem akin_serve (hkept : Backend.Forgets kept) (s : Session B) (r : Request α) :
    Akin kept (s.serve r) s := by
  cases r with
  | describe lp => exact akin_describe hkept s lp
  | solve lp => exact akin_solve hkept s lp

theorem akin_serveAll (hkept : Backend.Forgets kept) (s : Session B) (requests : List (Request α)) :
    Akin kept (s.serveAll requests) s := by
  induction requests generalizing s with
  | nil => exact ⟨rfl, rfl⟩
  | cons r rest ih => exact (ih (s.serve r)).trans (akin_serve hkept s r)

/-- Programs whose limits are accepted are described to one backend in akin sessions. -/
theorem Akin.describe_eq (hkept : Backend.Forgets kept) (h : Akin kept s t)
    {columns : List (Bound α × VariableKind)}
    (hcolumns : lp.columnBounds (List.range lp.dimension) = .ok columns) :
    s.describe lp = t.describe lp := by
  obtain ⟨rest, hreset⟩ : ∃ rest, lp.statements t.options.verbose columns = .reset :: rest :=
    ⟨_, rfl⟩
  rw [describe, describe, hcolumns, h.options]
  simp only [hreset, Backend.tellAll_cons, hkept.tell_reset _ _ h.backend]

theorem describe_of_refused (s : Session B) {e : SolveError α}
    (hcolumns : lp.columnBounds (List.range lp.dimension) = .error e) :
    s.describe lp = (.error e, s) := by
  rw [describe, hcolumns]

/-- A program is solved in both sessions with one result. Unless its limits were refused, the
sessions are one afterwards. -/
structure SolvesAlike (s t : Session B) (lp : LinearProgram α) : Prop where
  result : (s.solve lp).1 = (t.solve lp).1
  session : (∀ j lower upper, (s.describe lp).1 ≠ .error (.invalidBounds j lower upper)) →
    (s.solve lp).2 = (t.solve lp).2

theorem Akin.solvesAlike [OrderedNumber α] (hkept : Backend.Forgets kept) (h : Akin kept s t)
    (lp : LinearProgram α) : s.SolvesAlike t lp := by
  cases hcolumns : lp.columnBounds (List.range lp.dimension) with
  | ok columns =>
      have hdescribe := h.describe_eq hkept hcolumns
      have hsolve : s.solve lp = t.solve lp := by rw [solve, solve, hdescribe]
      exact ⟨congrArg Prod.fst hsolve, fun _ => congrArg Prod.snd hsolve⟩
  | error e =>
      have hs : (s.describe lp).1 = .error e := by rw [s.describe_of_refused hcolumns]
      have ht : (t.describe lp).1 = .error e := by rw [t.describe_of_refused hcolumns]
      refine ⟨by rw [s.solve_eq_error hs, t.solve_eq_error ht], fun haccepted => ?_⟩
      obtain ⟨j, v, -, rfl⟩ := (lp.columnBounds_eq_error_iff e).1 hcolumns
      exact absurd hs (haccepted j v.lower v.upper)

theorem Akin.solveAll [OrderedNumber α] (hkept : Backend.Forgets kept) (h : Akin kept s t)
    (programs : List (LinearProgram α)) :
    s.solveAll programs = programs.map fun lp => (t.solve lp).1 := by
  induction programs generalizing s with
  | nil => rfl
  | cons lp rest ih =>
      rw [Session.solveAll, ih ((akin_solve hkept s lp).trans h), (h.solvesAlike hkept lp).result]
      rfl

/-- Whatever was asked of `s` before, it is to every later program what `fresh` is when nothing was
asked of that. -/
structure Forgetful (s fresh : Session B) : Prop where
  solvesAlike : ∀ (requests : List (Request α)) (lp : LinearProgram α),
    (s.serveAll requests).SolvesAlike fresh lp
  /-- Each of several results is that of its program alone. -/
  solveAll : ∀ (requests : List (Request α)) (programs : List (LinearProgram α)),
    (s.serveAll requests).solveAll programs = programs.map fun lp => (fresh.solve lp).1

theorem Akin.forgetful [OrderedNumber α] (hkept : Backend.Forgets kept) (h : Akin kept s t) :
    s.Forgetful t where
  solvesAlike requests := ((akin_serveAll hkept s requests).trans h).solvesAlike hkept
  solveAll requests := ((akin_serveAll hkept s requests).trans h).solveAll hkept

end Session

theorem Sample.runIn_eq {B : Type} [Backend B Float] (session : Session B) (samples : List Sample) :
    Sample.runIn session samples =
      List.zipWith Sample.report samples (session.solveAll (samples.map Sample.program)) := by
  induction samples generalizing session with
  | nil => rfl
  | cons x rest ih =>
      have hrest := ih (session.solve x.program).2
      exact congrArg (x.report (session.solve x.program).1 :: ·) hrest

/-- The report is about the sample and the result: it has the title of the one, the other as its
solution, and the comparison of the two where there are values on both sides. -/
structure SampleReport.About (r : SampleReport) (x : Sample)
    (result : Except (SolveError Float) (Solution Float)) : Prop where
  title : r.title = x.title
  solution : r.solution = result
  checks_of_ok : ∀ solution expected, result = .ok solution → x.expected = some expected →
    r.checks = Sample.checks solution.values expected
  checks_of_error : ∀ e, result = .error e → r.checks = []
  checks_of_none : x.expected = none → r.checks = []

theorem Sample.about_report (x : Sample) (result : Except (SolveError Float) (Solution Float)) :
    (x.report result).About x result where
  title := x.title_report result
  solution := x.solution_report result
  checks_of_ok _ _ := x.checks_report_of_ok result
  checks_of_error _ := x.checks_report_of_error result
  checks_of_none := x.checks_report_of_none result

/-- A recorder or a buffered engine forgets all that a session did with it, but for the outcome that
was laid down or the engine. Hence the samples that are run in one session are reported as if each
had a session of its own: there is one report for each, in order, with its title and the solution
its program gets alone. -/
theorem Session.forgets_history :
    (∀ s : Session (Recorder Float),
      s.Forgetful ⟨Recorder.withOutcome s.backend.outcome, s.options⟩) ∧
    (∀ s : Session (BufferedEngine Float),
      s.Forgetful ⟨BufferedEngine.new s.backend.engine, s.options⟩) ∧
    ∀ (engine : Engine Float) (samples : List Sample),
      Sample.run engine samples = samples.map (fun x =>
        x.report ((Session.new (BufferedEngine.new engine)).solve x.program).1) ∧
      List.Forall₂ (fun x r => SampleReport.About r x
          ((Session.new (BufferedEngine.new engine)).solve x.program).1)
        samples (Sample.run engine samples) := by
  have hrun (engine : Engine Float) (samples : List Sample) : Sample.run engine samples =
      samples.map fun x =>
        x.report ((Session.new (BufferedEngine.new engine)).solve x.program).1 := by
    have hakin : Akin BufferedEngine.engine (Session.new (BufferedEngine.new engine))
        (Session.new (BufferedEngine.new engine)) := ⟨rfl, rfl⟩
    rw [Sample.run, Sample.runIn_eq, hakin.solveAll BufferedEngine.forgets, List.map_map,
      List.zipWith_map_right, List.zipWith_self]
    rfl
  refine ⟨fun s => ?_, fun s => ?_, fun engine samples => ⟨hrun engine samples, ?_⟩⟩
  · exact Akin.forgetful Recorder.forgets ⟨rfl, rfl⟩
  · exact Akin.forgetful BufferedEngine.forgets ⟨rfl, rfl⟩
  · rw [hrun, List.forall₂_map_right_iff, List.forall₂_same]
    exact fun x _ => x.about_report _

end LinearModel
