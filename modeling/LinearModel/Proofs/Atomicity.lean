import Mathlib
import LinearModel.Proofs.Refusal

/-!
# What a refused program leaves behind

A session that is to describe a program does one of three things (`Session.Receives`). Limits with
nothing between them are noticed before the backend hears a word, so all stays as it was. A
coefficient that is not finite is noticed by the backend when the matrix is loaded, so the columns
and rows are held by then, with an empty matrix. Otherwise the whole program is held. What is held
does not depend on what was held before; a recorder logs this description and nothing older.
-/

namespace LinearModel

attribute [ext] Recorder

variable {α : Type} [Number α]

/-- The statement is about columns or rows: it adds some, or sets an attribute of one. -/
def Statement.IsStructural : Statement α → Prop
  | .reset | .direction _ | .timeLimit _ | .messageOutput _ => False
  | _ => True

/-- Three statements of a description are not structural: the reset and the settings, which come
first. -/
theorem LinearProgram.exists_structural (lp : LinearProgram α) (verbose : Bool)
    (columns : List (Bound α × VariableKind)) :
    ∃ ts, lp.statements verbose columns =
        [.reset, .messageOutput verbose, .direction lp.direction] ++ ts ∧
      ∀ t ∈ ts, t.IsStructural := by
  refine ⟨_, rfl, fun t ht => ?_⟩
  rcases List.mem_cons.1 ht with rfl | ht
  · trivial
  rcases List.mem_append.1 ht with hcolumns | hrows
  · rcases List.mem_append.1 hcolumns with hcolumns | hadd
    · obtain ⟨⟨⟨name, coefficient, column⟩, j⟩, -, hone⟩ := List.mem_flatMap.1 hcolumns
      simp only [columnStatements, List.mem_cons, List.not_mem_nil, or_false] at hone
      rcases hone with rfl | rfl | rfl | rfl <;> trivial
    · cases List.mem_singleton.1 hadd
      trivial
  · obtain ⟨⟨c, i⟩, -, hone⟩ := List.mem_flatMap.1 hrows
    simp only [rowStatements, List.mem_cons, List.not_mem_nil, or_false] at hone
    rcases hone with rfl | rfl <;> trivial

namespace Recorder

/-- After structural statements a recorder has logged them and kept its settings. -/
structure Follows (r r' : Recorder α) (statements : List (Statement α)) : Prop where
  log : r'.log = r.log ++ statements.map Statement.logEntry
  direction : r'.direction = r.direction
  messageOutput : r'.messageOutput = r.messageOutput
  outcome : r'.outcome = r.outcome

theorem follows_tell (r : Recorder α) {t : Statement α} (h : t.IsStructural) :
    Follows r (Backend.tell r t) [t] := by
  cases t with
  | reset => exact h.elim
  | direction d => exact h.elim
  | timeLimit ms => exact h.elim
  | messageOutput on => exact h.elim
  | _ => exact ⟨rfl, rfl, rfl, rfl⟩

theorem follows_tellAll (r : Recorder α) {ts : List (Statement α)}
    (h : ∀ t ∈ ts, t.IsStructural) : Follows r (Backend.tellAll r ts) ts := by
  induction ts generalizing r with
  | nil => exact ⟨(List.append_nil _).symm, rfl, rfl, rfl⟩
  | cons t ts ih =>
      have hhead := follows_tell r (h t List.mem_cons_self)
      have hrest := ih (Backend.tell r t) fun t' ht' => h t' (List.mem_cons_of_mem t ht')
      refine ⟨?_, hrest.direction.trans hhead.direction,
        hrest.messageOutput.trans hhead.messageOutput, hrest.outcome.trans hhead.outcome⟩
      rw [Backend.tellAll_cons, hrest.log, hhead.log, List.append_assoc]
      rfl

/-- The columns and rows of a program, as a recorder holds them that was told to describe it. -/
def told (outcome : Outcome α) (verbose : Bool) (lp : LinearProgram α) : Recorder α :=
  { withOutcome outcome with
    log := (lp.statements verbose (lp.unknowns.toList.map Variable.column)).map Statement.logEntry
    direction := some lp.direction
    messageOutput := verbose
    columnNames := lp.names
    columnBounds := lp.unknowns.toList.map fun v => v.column.1
    columnKinds := lp.unknowns.toList.map fun v => v.column.2
    objective := lp.objective.toDense
    rowNames := lp.constraints.map Constraint.name
    rowBounds := lp.constraints.map Constraint.rowBound }

/-- The description of a program replaces whatever was recorded, and is recorded in full. -/
theorem tellAll_statements (r : Recorder α) (lp : LinearProgram α) (verbose : Bool) :
    Backend.tellAll r (lp.statements verbose (lp.unknowns.toList.map Variable.column)) =
      told r.outcome verbose lp := by
  have hmirrors := mirrors_tellAll_statements r (.new fun _ => .fault) lp verbose
    (lp.unknowns.toList.map Variable.column)
  rw [BufferedEngine.tellAll_statements] at hmirrors
  obtain ⟨ts, hts, hstructural⟩ := lp.exists_structural verbose
    (lp.unknowns.toList.map Variable.column)
  have hfollows := follows_tellAll (Backend.tellAll r
    [.reset, .messageOutput verbose, .direction lp.direction]) hstructural
  rw [← Backend.tellAll_append, ← hts] at hfollows
  apply Recorder.ext
  · rw [hfollows.log, told, hts, List.map_append]
    rfl
  · exact hfollows.direction
  · exact hmirrors.timeLimit
  · exact hfollows.messageOutput
  · exact hmirrors.columnNames.trans
      (BufferedEngine.map_columns_holding (fun _ => .fault) lp fun _ _ => rfl)
  · exact hmirrors.columnBounds.trans
      (BufferedEngine.map_columns_holding (fun _ => .fault) lp fun _ _ => rfl)
  · exact hmirrors.columnKinds.trans
      (BufferedEngine.map_columns_holding (fun _ => .fault) lp fun _ _ => rfl)
  · exact hmirrors.objective.trans (BufferedEngine.map_objective_holding (fun _ => .fault) lp)
  · exact hmirrors.rowNames.trans (List.map_map ..)
  · exact hmirrors.rowBounds.trans (List.map_map ..)
  · exact hmirrors.matrix
  · exact hfollows.outcome

/-- The same with a matrix, once that of the program was offered. -/
def holding (outcome : Outcome α) (verbose : Bool) (lp : LinearProgram α)
    (matrix : CoordinateList α) : Recorder α :=
  { (told outcome verbose lp).note (.load lp.coordinates.length) with matrix }

theorem load_told (outcome : Outcome α) (verbose : Bool) (lp : LinearProgram α) :
    Backend.load (told outcome verbose lp) lp.coordinates =
      match lp.coordinates.validate lp.constraints.length lp.dimension with
      | .ok () => (.ok (), holding outcome verbose lp lp.coordinates)
      | .error e => (.error e, holding outcome verbose lp .empty) := by
  have hrows : (told outcome verbose lp).rowBounds.length = lp.constraints.length := by
    simp [told]
  have hcols : (told outcome verbose lp).columnBounds.length = lp.dimension := by
    simp [told]
  show Recorder.load _ _ = _
  rw [Recorder.load]
  simp only [note, hrows, hcols]
  cases lp.coordinates.validate lp.constraints.length lp.dimension <;> rfl

/-- Neither a limit on the time nor a request to solve is part of a description. -/
theorem log_holding (outcome : Outcome α) (verbose : Bool) (lp : LinearProgram α)
    (matrix : CoordinateList α) {entry : LogEntry}
    (h : entry ∈ (holding outcome verbose lp matrix).log) :
    entry ≠ .solveLinear ∧ entry ≠ .solveMixedInteger ∧ ∀ ms, entry ≠ .timeLimit ms := by
  rcases List.mem_append.1 h with hstatement | hload
  · obtain ⟨t, ht, rfl⟩ := List.mem_map.1 hstatement
    obtain ⟨ts, hts, hstructural⟩ := lp.exists_structural verbose
      (lp.unknowns.toList.map Variable.column)
    rw [hts] at ht
    rcases List.mem_append.1 ht with hsettings | hrest
    · simp only [List.mem_cons, List.not_mem_nil, or_false] at hsettings
      rcases hsettings with rfl | rfl | rfl <;> simp [Statement.logEntry]
    · have ht' : t.IsStructural := hstructural t hrest
      cases t with
      | timeLimit ms => exact ht'.elim
      | _ => simp [Statement.logEntry]
  · cases List.mem_singleton.1 hload
    simp

end Recorder

namespace Session

variable {B : Type} [Backend B α]

/-- What becomes of a program that a session is to describe or to solve. `held m` is the backend
that holds all columns and rows of the program, with the matrix `m`. -/
structure Receives (s : Session B) (lp : LinearProgram α) (held : CoordinateList α → B) :
    Prop where
  ok_iff : (s.describe lp).1 = .ok () ↔
    (∀ v ∈ lp.unknowns.toList, ¬ v.Empty) ∧ ∀ i j, Number.isFinite (lp.coefficient i j) = true
  error_iff : ∀ e, (s.describe lp).1 = .error e ↔ lp.Refused e
  /-- Nothing is told before the limits of all columns are known. -/
  untouched : (∃ v ∈ lp.unknowns.toList, v.Empty) → (s.describe lp).2 = s
  /-- A matrix is refused when all else is held. -/
  bare : (∀ v ∈ lp.unknowns.toList, ¬ v.Empty) → (s.describe lp).1 ≠ .ok () →
    (s.describe lp).2 = { s with backend := held .empty }
  complete : (s.describe lp).1 = .ok () →
    (s.describe lp).2 = { s with backend := held lp.coordinates }
  /-- What is refused is not solved, and the backend hears no more. -/
  unsolved : ∀ e, (s.describe lp).1 = .error e → s.solve lp = (.error e, (s.describe lp).2)

variable [OrderedNumber α]

/-- With nothing between some limits, the backend is not told anything. -/
theorem describe_of_empty (s : Session B) {lp : LinearProgram α}
    (h : ¬ ∀ v ∈ lp.unknowns.toList, ¬ v.Empty) : s.describe lp = (lp.verdict, s) := by
  obtain ⟨e, hcolumns, hverdict⟩ := lp.exists_verdict_eq_of_empty h
  rw [describe, hcolumns, hverdict]

section Load

/-! All that depends on the backend is what it holds once it was told the columns and rows, and how
it takes the matrix. -/

variable {s : Session B} {lp : LinearProgram α} {told : B} {held : CoordinateList α → B}
  (htold : Backend.tellAll s.backend (lp.statements s.options.verbose
    (lp.unknowns.toList.map Variable.column)) = told)
  (hload : Backend.load told lp.coordinates =
    match lp.coordinates.validate lp.constraints.length lp.dimension with
    | .ok () => (.ok (), held lp.coordinates)
    | .error e => (.error e, held .empty))

include htold hload

theorem describe_of_not_empty (h : ∀ v ∈ lp.unknowns.toList, ¬ v.Empty) :
    s.describe lp = match lp.verdict with
      | .ok () => (.ok (), { s with backend := held lp.coordinates })
      | .error e => (.error e, { s with backend := held .empty }) := by
  rw [describe, (lp.columnBounds_eq_ok_iff_not_empty _).2 ⟨rfl, h⟩,
    lp.verdict_of_forall_not_empty h]
  simp only [htold, hload]
  cases lp.coordinates.validate lp.constraints.length lp.dimension <;> rfl

theorem receives_of_load : s.Receives lp held := by
  have hfst : (s.describe lp).1 = lp.verdict := by
    by_cases hbounds : ∀ v ∈ lp.unknowns.toList, ¬ v.Empty
    · rw [describe_of_not_empty htold hload hbounds]
      cases lp.verdict <;> rfl
    · rw [describe_of_empty s hbounds]
  refine ⟨?_, fun e => ?_, ?_, ?_, ?_, fun e he => s.solve_eq_error he⟩
  · rw [hfst, lp.verdict_eq_ok_iff]
  · rw [hfst, lp.verdict_eq_error_iff]
  · rintro ⟨v, hv, hempty⟩
    rw [describe_of_empty s fun h => h v hv hempty]
  · intro hbounds hrefused
    rw [hfst] at hrefused
    rw [describe_of_not_empty htold hload hbounds]
    cases hverdict : lp.verdict with
    | ok _ => exact absurd hverdict hrefused
    | error e => rfl
  · intro hok
    rw [hfst] at hok
    rw [describe_of_not_empty htold hload (lp.verdict_eq_ok_iff.1 hok).1, hok]

end Load

/-- Every program that is described to a recorder or a buffered engine, whatever was done to it
before and under whatever options, is refused for the first variable with nothing between its
limits, and then all stays as it was; else for the first coefficient that is not finite, and then
all is held but the matrix; else it is held. A recorder then shows that no limit on the time and no
request to solve was sent. There is a name and an objective coefficient for every column. -/
theorem refuses_or_holds (lp : LinearProgram Float) :
    (∀ s : Session (Recorder Float),
      s.Receives lp (Recorder.holding s.backend.outcome s.options.verbose lp)) ∧
    (∀ s : Session (BufferedEngine Float),
      s.Receives lp fun matrix => { BufferedEngine.holding s.backend.engine lp with matrix }) ∧
    (∀ outcome verbose matrix, ∀ entry ∈ (Recorder.holding outcome verbose lp matrix).log,
      entry ≠ .solveLinear ∧ entry ≠ .solveMixedInteger ∧ ∀ ms, entry ≠ .timeLimit ms) ∧
    lp.names.length = lp.dimension ∧ lp.objective.toDense.length = lp.dimension ∧
      lp.coordinates.length = lp.nonzeroCount := by
  refine ⟨fun s => ?_, fun s => ?_, fun _ _ _ _ => Recorder.log_holding _ _ lp _, ?_, ?_, ?_⟩
  · exact receives_of_load (s.backend.tellAll_statements lp _) (Recorder.load_told _ _ lp)
  · exact receives_of_load (s.backend.tellAll_statements lp _) (BufferedEngine.load_bare _ lp)
  · simp [LinearProgram.names]
  · exact lp.objective.length_toDense
  · rw [LinearProgram.coordinates_eq, CoordinateList.length_ofTriples, lp.length_triplesFrom]

end Session

end LinearModel
