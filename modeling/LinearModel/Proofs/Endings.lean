import Mathlib
import LinearModel.CommandLine
import LinearModel.Proofs.Answers
import LinearModel.Proofs.Atomicity
import LinearModel.Proofs.Handover
import LinearModel.Proofs.Spelling

/-!
# How the commands end

The commands that read a problem file go through stages: the text is parsed, its program is made,
and the program is assembled or solved. They end well exactly if every stage succeeds
(`Invocation.Succeeds`); otherwise the first stage that fails decides what is reported
(`Invocation.FailsFirst`), nothing is printed, and nothing else is reported. What comes out as data
is written behind the last stage, which does not fail with a library that has a text for every
value.

An engine may break off, which ends a run on the spot, so that it matters what an engine is asked
(`Asks`).
-/

namespace LinearModel

namespace Session

variable {α : Type} [Number α] [OrderedNumber α]

/-- Solving a program breaks off only if the engine does. -/
theorem solve_ne_engineStopped (s : Session (BufferedEngine α)) (lp : LinearProgram α)
    (hs : ∀ p, (BufferedEngine.holding s.backend.engine lp).problem lp.isMixedInteger = .ok p →
      ¬ (s.backend.engine p).BreaksOff p.unknowns.length) :
    (s.solve lp).1 ≠ .error .engineStopped := by
  cases hdescribe : (s.describe lp).1 with
  | error e =>
      have hreceives : s.Receives lp fun matrix =>
          { BufferedEngine.holding s.backend.engine lp with matrix } :=
        receives_of_load (s.backend.tellAll_statements lp _)
          (BufferedEngine.load_bare s.backend.engine lp)
      have hrefused : lp.Refused e := (hreceives.error_iff e).1 hdescribe
      rw [s.solve_eq_error hdescribe]
      cases hrefused <;> nofun
  | ok _ =>
      have hlp : lp.Describable := (s.describe_eq_ok_iff lp).1 hdescribe
      rw [s.solve_eq hlp]
      cases hp : (BufferedEngine.holding s.backend.engine lp).problem lp.isMixedInteger with
      | error e =>
          rcases (BufferedEngine.problem_eq_error_iff _ _ e).1 hp with
            ⟨i, c, -, rfl⟩ | ⟨-, hrange, -⟩
          · nofun
          · exact absurd (BufferedEngine.inRange_holding s.backend.engine hlp) hrange
      | ok p =>
          have hanswer := hs p hp
          rw [length_unknowns_holding hp] at hanswer
          exact mt (EngineAnswer.result_eq_engineStopped_iff lp.dimension _).1 hanswer

end Session

namespace CommandLine

/-! ## One stage after the other -/

namespace Script

variable {β ε : Type}

/-- The command reports a failure and exits before it shows anything else. -/
def Fails (script : Script β) (failure : Failure) : Prop :=
  script.runFrom .nothing = (.error 1, ⟨[], [failure]⟩)

/-- The command comes to a result before it shows anything. -/
def Gives (script : Script β) (x : β) : Prop := script.runFrom .nothing = (.ok x, .nothing)

theorem Gives.runFrom_bind {γ : Type} {script : Script β} {x : β} (h : script.Gives x)
    (next : β → Script γ) :
    (script >>= next).runFrom .nothing = (next x).runFrom .nothing := by
  rw [Script.runFrom_bind, h]

theorem Fails.bind {γ : Type} {script : Script β} {failure : Failure} (h : script.Fails failure)
    (next : β → Script γ) : (script >>= next).Fails failure := by
  rw [Fails, Script.runFrom_bind, h]

theorem attempt_gives (stage : ε → Failure) (x : β) : (attempt stage (.ok x)).Gives x := rfl

theorem attempt_fails (stage : ε → Failure) (cause : ε) :
    (attempt stage (.error cause) : Script β).Fails (stage cause) := rfl

theorem Fails.ending {script : Script Unit} {failure : Failure} (h : script.Fails failure) :
    script.ending = ⟨1, "", [failure]⟩ := by
  rw [Script.ending, h]
  rfl

theorem ending_sayAll (lines : List String) :
    (sayAll lines).ending = ⟨0, Text.lines lines, []⟩ := by
  rw [Script.ending, runFrom_sayAll]
  rfl

theorem Gives.ending_bind {script : Script β} {x : β} (h : script.Gives x)
    (next : β → Script Unit) : (script >>= next).ending = (next x).ending := by
  rw [Script.ending, h.runFrom_bind, Script.ending]

end Script

open Script

variable {library : Json.Library} {engine : Engine Float} {text message : String}
  {request : Invocation} {problem : ProblemFile} {lp : LinearProgram Float}

/-- The problem that the engine is asked when the program of a text is solved. -/
def Asks (engine : Engine Float) (text : String) (p : EngineProblem Float) : Prop :=
  ∃ problem lp, ProblemFile.parse text = .ok problem ∧ problem.toProgram = .ok lp ∧
    (BufferedEngine.holding engine lp).problem lp.isMixedInteger = .ok p

theorem Asks.distinct {p : EngineProblem Float} (h : Asks engine text p) : p.Distinct := by
  obtain ⟨_, _, -, -, hp⟩ := h
  exact BufferedEngine.distinct_of_problem_eq_ok hp

theorem load_gives (hparse : ProblemFile.parse text = .ok problem)
    (hmodel : problem.toProgram = .ok lp) : (load library (.ok text)).Gives lp := by
  rw [Gives, load, (attempt_gives Failure.reading text).runFrom_bind, hparse,
    (attempt_gives _ problem).runFrom_bind, hmodel]
  rfl

theorem load_fails_parsing {cause : Json.ReadError}
    (hparse : ProblemFile.parse text = .error cause) :
    (load library (.ok text)).Fails (.parsing (library.explain text cause)) := by
  rw [Fails, load, (attempt_gives Failure.reading text).runFrom_bind, hparse]
  exact (attempt_fails _ cause).bind _

theorem load_fails_model {cause : AlgebraError} (hparse : ProblemFile.parse text = .ok problem)
    (hmodel : problem.toProgram = .error cause) :
    (load library (.ok text)).Fails (.model cause) := by
  rw [Fails, load, (attempt_gives Failure.reading text).runFrom_bind, hparse,
    (attempt_gives _ problem).runFrom_bind, hmodel]
  exact attempt_fails Failure.model cause

/-- A library that has a text for every value prints something, and nothing goes wrong. -/
theorem ending_present (hwrites : library.Writes) (data : Json.Value) (lines : List String)
    (format : Format) :
    ∃ shown, (present library data lines format).ending = ⟨0, Text.lines shown, []⟩ := by
  cases format with
  | pretty => exact ⟨lines, ending_sayAll lines⟩
  | json =>
      obtain ⟨written, hwritten⟩ := hwrites data
      refine ⟨[written], ?_⟩
      rw [present, hwritten, (attempt_gives Failure.writing written).ending_bind]
      exact ending_sayAll [written]

namespace Invocation

/-- All stages of a run on a text succeed. -/
inductive Succeeds (engine : Engine Float) (text : String) : Invocation → Prop
  | solve {file : String} {timeLimit : Option Nat} {format : Format} {verbose : Bool}
      {problem : ProblemFile} {lp : LinearProgram Float} {solution : Solution Float}
      (hparse : ProblemFile.parse text = .ok problem) (hmodel : problem.toProgram = .ok lp)
      (hsolve : ((solver engine timeLimit verbose).solve lp).1 = .ok solution) :
      Succeeds engine text (.solve file timeLimit format verbose)
  | assemble {file : String} {format : Format} {problem : ProblemFile} {lp : LinearProgram Float}
      (hparse : ProblemFile.parse text = .ok problem) (hmodel : problem.toProgram = .ok lp)
      (hassemble : ((Session.new (Recorder.new : Recorder Float)).describe lp).1 = .ok ()) :
      Succeeds engine text (.assemble file format)

/-- The message of the first stage of a run on a text that fails. -/
inductive FailsFirst (library : Json.Library) (engine : Engine Float) (text : String) :
    Invocation → String → Prop
  | parse {request : Invocation} {cause : Json.ReadError}
      (hparse : ProblemFile.parse text = .error cause) :
      FailsFirst library engine text request ("Parse error: " ++ library.explain text cause)
  | model {request : Invocation} {problem : ProblemFile} {cause : AlgebraError}
      (hparse : ProblemFile.parse text = .ok problem) (hmodel : problem.toProgram = .error cause) :
      FailsFirst library engine text request ("Model error: " ++ cause.message)
  | assemble {file : String} {format : Format} {problem : ProblemFile} {lp : LinearProgram Float}
      {cause : SolveError Float}
      (hparse : ProblemFile.parse text = .ok problem) (hmodel : problem.toProgram = .ok lp)
      (hassemble : ((Session.new (Recorder.new : Recorder Float)).describe lp).1 = .error cause) :
      FailsFirst library engine text (.assemble file format)
        ("Assembly error: " ++ cause.message)
  | solve {file : String} {timeLimit : Option Nat} {format : Format} {verbose : Bool}
      {problem : ProblemFile} {lp : LinearProgram Float} {cause : SolveError Float}
      (hparse : ProblemFile.parse text = .ok problem) (hmodel : problem.toProgram = .ok lp)
      (hsolve : ((solver engine timeLimit verbose).solve lp).1 = .error cause) :
      FailsFirst library engine text (.solve file timeLimit format verbose)
        ("Solve error: " ++ cause.message)

theorem Succeeds.ending_eq (hwrites : library.Writes) (h : request.Succeeds engine text) :
    ∃ lines, request.runWith library engine (.ok text) = ⟨0, Text.lines lines, []⟩ := by
  cases h with
  | @solve _ timeLimit format verbose _ lp solution hparse hmodel hsolve =>
      have hgives : (solveOrExit (solver engine timeLimit verbose) lp).Gives solution := by
        rw [solveOrExit, hsolve]
        exact attempt_gives _ solution
      rw [runWith, script, runSolve, (load_gives hparse hmodel).ending_bind, hgives.ending_bind]
      exact ending_present hwrites _ _ format
  | @assemble _ format _ lp hparse hmodel hassemble =>
      rw [runWith, script, runAssemble, (load_gives hparse hmodel).ending_bind]
      simp only [hassemble]
      rw [(attempt_gives _ ()).ending_bind]
      exact ending_present hwrites _ _ format

/-- What fails to load ends the run, whatever the program was loaded for. -/
theorem runWith_of_load_fails {file : String} (hfile : request.file? = some file)
    {failure : Failure} (h : (load library (.ok text)).Fails failure) :
    request.runWith library engine (.ok text) = ⟨1, "", [failure]⟩ := by
  cases request with
  | solve => exact (h.bind _).ending
  | assemble => exact (h.bind _).ending
  | demo => cases hfile

theorem FailsFirst.ending_eq (h : request.FailsFirst library engine text message)
    (hengine : ∀ p, Asks engine text p → ¬ (engine p).BreaksOff p.unknowns.length) {file : String}
    (hfile : request.file? = some file) :
    ∃ failure, request.runWith library engine (.ok text) = ⟨1, "", [failure]⟩ ∧
      failure.message = message := by
  cases h with
  | @parse _ cause hparse =>
      exact ⟨.parsing (library.explain text cause),
        runWith_of_load_fails hfile (load_fails_parsing hparse), rfl⟩
  | @model _ _ cause hparse hmodel =>
      exact ⟨.model cause, runWith_of_load_fails hfile (load_fails_model hparse hmodel), rfl⟩
  | @assemble _ _ _ lp cause hparse hmodel hassemble =>
      refine ⟨.assembly cause, ?_, rfl⟩
      rw [runWith, script, runAssemble, (load_gives hparse hmodel).ending_bind]
      simp only [hassemble]
      exact ((attempt_fails Failure.assembly cause).bind _).ending
  | @solve _ timeLimit _ verbose _ lp cause hparse hmodel hsolve =>
      have hfails : (solveOrExit (solver engine timeLimit verbose) lp).Fails (.solving cause) := by
        have hcause := (solver engine timeLimit verbose).solve_ne_engineStopped lp
          fun p hp => hengine p ⟨_, lp, hparse, hmodel, hp⟩
        rw [hsolve] at hcause
        -- an engine that broke off would end the run without a report
        rw [solveOrExit, hsolve]
        split
        · next hstopped => exact absurd hstopped hcause
        · exact attempt_fails Failure.solving cause
      refine ⟨.solving cause, ?_, rfl⟩
      rw [runWith, script, runSolve, (load_gives hparse hmodel).ending_bind]
      exact (hfails.bind _).ending

/-- Every run on a text ends in one of the two ways. -/
theorem succeeds_or_failsFirst (library : Json.Library) (engine : Engine Float) (text : String)
    {file : String} (hfile : request.file? = some file) :
    request.Succeeds engine text ∨ ∃ message, request.FailsFirst library engine text message := by
  cases hparse : ProblemFile.parse text with
  | error cause => exact .inr ⟨_, .parse hparse⟩
  | ok problem =>
      cases hmodel : problem.toProgram with
      | error cause => exact .inr ⟨_, .model hparse hmodel⟩
      | ok lp =>
          cases request with
          | solve _ timeLimit _ verbose =>
              cases hsolve : ((solver engine timeLimit verbose).solve lp).1 with
              | error cause => exact .inr ⟨_, .solve hparse hmodel hsolve⟩
              | ok solution => exact .inl (.solve hparse hmodel hsolve)
          | assemble =>
              cases hassemble : ((Session.new (Recorder.new : Recorder Float)).describe lp).1 with
              | error cause => exact .inr ⟨_, .assemble hparse hmodel hassemble⟩
              | ok _ => exact .inl (.assemble hparse hmodel hassemble)
          | demo => cases hfile

/-- A run on the text of a problem file ends well exactly if all its stages succeed, and then it
reports nothing. Otherwise it exits with one, prints nothing, and reports the first stage that
failed and nothing else. This is so in the words of any library that has a text for every value. -/
theorem ends_cleanly (hwrites : library.Writes)
    (hengine : ∀ p, Asks engine text p → ¬ (engine p).BreaksOff p.unknowns.length) {file : String}
    (hfile : request.file? = some file) :
    ((request.runWith library engine (.ok text)).exitCode = 0 ↔ request.Succeeds engine text) ∧
      (request.Succeeds engine text →
        (request.runWith library engine (.ok text)).failures = []) ∧
      (¬ request.Succeeds engine text →
        (request.runWith library engine (.ok text)).exitCode = 1 ∧
          (request.runWith library engine (.ok text)).output = "" ∧
          ∃ message, request.FailsFirst library engine text message ∧
            (request.runWith library engine (.ok text)).failures.map Failure.message =
              [message]) := by
  have hfailing (h : ¬ request.Succeeds engine text) : ∃ failure,
      request.runWith library engine (.ok text) = ⟨1, "", [failure]⟩ ∧
        request.FailsFirst library engine text failure.message := by
    obtain ⟨_, hfirst⟩ := (succeeds_or_failsFirst library engine text hfile).resolve_left h
    obtain ⟨failure, hrun, rfl⟩ := hfirst.ending_eq hengine hfile
    exact ⟨failure, hrun, hfirst⟩
  refine ⟨⟨fun hexit => ?_, fun h => ?_⟩, fun h => ?_, fun h => ?_⟩
  -- the exit code of a failure is one, so a run that exits with zero did not fail
  · by_contra h
    obtain ⟨failure, hrun, -⟩ := hfailing h
    rw [hrun] at hexit
    cases hexit
  · obtain ⟨lines, hrun⟩ := h.ending_eq hwrites
    rw [hrun]
  · obtain ⟨lines, hrun⟩ := h.ending_eq hwrites
    rw [hrun]
  · obtain ⟨failure, hrun, hfirst⟩ := hfailing h
    rw [hrun]
    exact ⟨rfl, rfl, failure.message, hfirst, rfl⟩

/-- A library that names the place behind the cause; this one knows a single place. -/
def placingLibrary : Json.Library :=
  { Json.Library.brief with
    explain := fun text cause =>
      Json.Library.brief.explain text cause ++ " at line 1 column 4" }

/-- A member that no problem file has is reported as soon as its name is met. -/
theorem ends_cleanly_unknownField :
    placingLibrary.Writes ∧
      (∀ p, Asks decimalEngine "\x7b\"x\":1\x7d" p →
        ¬ (decimalEngine p).BreaksOff p.unknowns.length) ∧
      (solve "p.json" none .pretty false).file? = some "p.json" ∧
      ((solve "p.json" none .pretty false).runWith placingLibrary decimalEngine
        (.ok "\x7b\"x\":1\x7d")).failures.map Failure.message =
          ["Parse error: unknown field `x`, expected one of `minimize`, `objective`, " ++
            "`variables`, `lower_bounds`, `upper_bounds`, `integer`, `binary`, `constraints`" ++
            " at line 1 column 4"] := by
  have hwrites : placingLibrary.Writes := Json.Library.brief_writes
  have hengine (p) (hp : Asks decimalEngine "\x7b\"x\":1\x7d" p) :
      ¬ (decimalEngine p).BreaksOff p.unknowns.length :=
    exactEngine_answers _ p hp.distinct
  have hparse : ProblemFile.parse "\x7b\"x\":1\x7d" =
      .error (.mismatch (.unknownField "x" ProblemFile.record.names)) := by
    have hspells : Json.Spells "\x7b\"x\":1\x7d"
        (.object [(some "x", .number ⟨false, ['1'], [], none⟩)] true) := ⟨rfl, by decide⟩
    rw [ProblemFile.parse, hspells.readText_eq]
    rfl
  obtain ⟨-, -, hfailing⟩ := ends_cleanly hwrites hengine
    (rfl : (solve "p.json" none .pretty false).file? = some "p.json")
  have hfails : ¬ (solve "p.json" none .pretty false).Succeeds decimalEngine
      "\x7b\"x\":1\x7d" := by
    intro h
    cases h with
    | solve h => cases hparse.symm.trans h
  obtain ⟨-, -, message, hfirst, hmessages⟩ := hfailing hfails
  refine ⟨hwrites, hengine, rfl, hmessages.trans ?_⟩
  cases hfirst with
  | parse h =>
      cases hparse.symm.trans h
      decide +kernel
  | model h => cases hparse.symm.trans h
  | solve h => cases hparse.symm.trans h

end Invocation

end CommandLine

end LinearModel
