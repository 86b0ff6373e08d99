import Mathlib
import LinearModel.Program.Edit
import LinearModel.Proofs.Atomicity

/-!
# What a recorder hears of a program

A description is heard in one order, which depends on nothing but the numbers of variables,
constraints and nonzero coefficients, on the direction and on whether messages are wanted
(`LinearProgram.descriptionLog`). Rows and columns are added before anything is set in them, so no
attribute is sent for one that does not exist (`Recorder.LandsAll`): the sizes of the recorded
lists follow from the statements that add to them, and the rest keep these sizes. Solving adds the
limit on the time, when there is one, and one request.
-/

namespace LinearModel

variable {α : Type} [Number α]

/-- What is logged when the column with a number is described. -/
def columnLog (col : Nat) : List LogEntry :=
  [.columnName col, .objective col, .columnBound col, .columnKind col]

def rowLog (row : Nat) : List LogEntry := [.rowName row, .rowBound row]

/-- What is logged of the description of a program, in order. -/
def LinearProgram.descriptionLog (lp : LinearProgram α) (verbose : Bool) : List LogEntry :=
  [.reset, .messageOutput verbose, .direction lp.direction, .addColumns lp.dimension]
    ++ (List.range lp.dimension).flatMap (fun j => columnLog (j + 1))
    ++ [.addRows lp.constraints.length]
    ++ (List.range lp.constraints.length).flatMap (fun i => rowLog (i + 1))
    ++ [.load lp.nonzeroCount]

section Log

/-- Where only the numbers of members matter, a run over numbered members is one over numbers. -/
theorem map_flatMap_zipIdx {β γ δ : Type} {f : β × Nat → List γ} {g : γ → δ} {F : Nat → List δ}
    (h : ∀ x i, (f (x, i)).map g = F i) (xs : List β) :
    (xs.zipIdx.flatMap f).map g = (List.range xs.length).flatMap F := by
  have hsnd : xs.zipIdx.map Prod.snd = List.range xs.length := by
    rw [List.zipIdx_map_snd, List.range_eq_range']
  have hf : (fun e : β × Nat => (f e).map g) = fun e => F e.2 := funext fun e => h e.1 e.2
  rw [List.map_flatMap, hf, ← hsnd, List.flatMap_map]

theorem LinearProgram.map_logEntry_statements (lp : LinearProgram α) (verbose : Bool)
    {columns : List (Bound α × VariableKind)} (h : columns.length = lp.dimension) :
    (lp.statements verbose columns).map Statement.logEntry ++ [.load lp.nonzeroCount] =
      lp.descriptionLog verbose := by
  rw [statements, List.map_append, List.map_append, List.map_append,
    map_flatMap_zipIdx (F := fun j => columnLog (j + 1)) ?hcolumns,
    map_flatMap_zipIdx (F := fun i => rowLog (i + 1)) ?hrows, lp.length_zip_columns h]
  case hcolumns => exact fun _ _ => rfl
  case hrows => exact fun _ _ => rfl
  rfl

end Log

/-- A list has a member with number `i`, counted from one. -/
def HasNumber {β : Type} (xs : List β) (i : Nat) : Prop := 0 < i ∧ i ≤ xs.length

namespace Recorder

/-- The row or column exists in which the statement sets something. -/
def Lands (r : Recorder α) : Statement α → Prop
  | .columnName j _ => HasNumber r.columnNames j
  | .objective j _ => HasNumber r.objective j
  | .columnBound j _ => HasNumber r.columnBounds j
  | .columnKind j _ => HasNumber r.columnKinds j
  | .rowName i _ => HasNumber r.rowNames i
  | .rowBound i _ => HasNumber r.rowBounds i
  | _ => True

/-- Each of the statements lands where those before it lead. -/
def LandsAll (r : Recorder α) : List (Statement α) → Prop
  | [] => True
  | t :: ts => r.Lands t ∧ (Backend.tell r t).LandsAll ts

theorem landsAll_append (r : Recorder α) (ts us : List (Statement α)) :
    r.LandsAll (ts ++ us) ↔ r.LandsAll ts ∧ (Backend.tellAll r ts).LandsAll us := by
  induction ts generalizing r with
  | nil => simp [LandsAll]
  | cons t ts ih => simp [LandsAll, ih, and_assoc]

/-- All attributes of columns and of rows are recorded for equally many of them. -/
structure HasSize (r : Recorder α) (cols rows : Nat) : Prop where
  columnNames : r.columnNames.length = cols
  objective : r.objective.length = cols
  columnBounds : r.columnBounds.length = cols
  columnKinds : r.columnKinds.length = cols
  rowNames : r.rowNames.length = rows
  rowBounds : r.rowBounds.length = rows

end Recorder

/-- The statement sets an attribute of one of so many columns and rows. -/
def Statement.Sets (cols rows : Nat) : Statement α → Prop
  | .columnName j _ | .objective j _ | .columnBound j _ | .columnKind j _ => 0 < j ∧ j ≤ cols
  | .rowName i _ | .rowBound i _ => 0 < i ∧ i ≤ rows
  | _ => False

namespace Recorder.HasSize

variable {r : Recorder α} {cols rows : Nat}

omit [Number α] in
theorem lands (h : r.HasSize cols rows) {t : Statement α} (ht : t.Sets cols rows) : r.Lands t := by
  cases t with
  | columnName j name => exact ⟨ht.1, h.columnNames ▸ ht.2⟩
  | objective j v => exact ⟨ht.1, h.objective ▸ ht.2⟩
  | columnBound j bound => exact ⟨ht.1, h.columnBounds ▸ ht.2⟩
  | columnKind j kind => exact ⟨ht.1, h.columnKinds ▸ ht.2⟩
  | rowName i name => exact ⟨ht.1, h.rowNames ▸ ht.2⟩
  | rowBound i bound => exact ⟨ht.1, h.rowBounds ▸ ht.2⟩
  | _ => exact ht.elim

theorem tell (h : r.HasSize cols rows) {t : Statement α} (ht : t.Sets cols rows) :
    (Backend.tell r t).HasSize cols rows := by
  cases t with
  | columnName j name =>
      exact { h with columnNames := (length_setNumbered ..).trans h.columnNames }
  | objective j v => exact { h with objective := (length_setNumbered ..).trans h.objective }
  | columnBound j bound =>
      exact { h with columnBounds := (length_setNumbered ..).trans h.columnBounds }
  | columnKind j kind =>
      exact { h with columnKinds := (length_setNumbered ..).trans h.columnKinds }
  | rowName i name => exact { h with rowNames := (length_setNumbered ..).trans h.rowNames }
  | rowBound i bound => exact { h with rowBounds := (length_setNumbered ..).trans h.rowBounds }
  | _ => exact ht.elim

theorem addRows (h : r.HasSize cols rows) (n : Nat) :
    (Backend.tell r (.addRows n : Statement α)).HasSize cols (grownLength rows n) :=
  { h with
    rowNames := (length_resize ..).trans (by rw [h.rowNames])
    rowBounds := (length_resize ..).trans (by rw [h.rowNames]) }

/-- Statements that only set attributes of what there is keep the sizes, and so all land. -/
theorem landsAll (h : r.HasSize cols rows) {ts : List (Statement α)}
    (hts : ∀ t ∈ ts, t.Sets cols rows) :
    r.LandsAll ts ∧ (Backend.tellAll r ts).HasSize cols rows := by
  induction ts generalizing r with
  | nil => exact ⟨trivial, h⟩
  | cons t ts ih =>
      have ht := hts t List.mem_cons_self
      obtain ⟨hlands, hsize⟩ := ih (h.tell ht) fun u hu => hts u (List.mem_cons_of_mem t hu)
      exact ⟨⟨h.lands ht, hlands⟩, hsize⟩

/-- What lands after them on every recorder of these sizes also lands behind them. -/
theorem landsAll_append (h : r.HasSize cols rows) {ts us : List (Statement α)}
    (hts : ∀ t ∈ ts, t.Sets cols rows)
    (hus : ∀ q : Recorder α, q.HasSize cols rows → q.LandsAll us) : r.LandsAll (ts ++ us) := by
  obtain ⟨hlands, hsize⟩ := h.landsAll hts
  exact (Recorder.landsAll_append r ts us).2 ⟨hlands, hus _ hsize⟩

end Recorder.HasSize

namespace LinearProgram

omit [Number α] in
theorem sets_of_mem_columnStatements {cols rows j : Nat} (hj : j < cols) {name : String}
    {coefficient : α} {column : Bound α × VariableKind} {t : Statement α}
    (ht : t ∈ columnStatements (j + 1) name coefficient column) : t.Sets cols rows := by
  simp only [columnStatements, List.mem_cons, List.not_mem_nil, or_false] at ht
  rcases ht with rfl | rfl | rfl | rfl <;> exact ⟨Nat.succ_pos j, hj⟩

theorem sets_of_mem_rowStatements {cols rows i n : Nat} (hi : i < rows) {c : Constraint α n}
    {t : Statement α} (ht : t ∈ rowStatements (i + 1) c) : t.Sets cols rows := by
  simp only [rowStatements, List.mem_cons, List.not_mem_nil, or_false] at ht
  rcases ht with rfl | rfl <;> exact ⟨Nat.succ_pos i, hi⟩

variable (lp : LinearProgram α)

/-- No statement of a description is lost on a recorder, whatever it held before. -/
theorem landsAll_statements (r : Recorder α) (verbose : Bool)
    {columns : List (Bound α × VariableKind)} (h : columns.length = lp.dimension) :
    r.LandsAll (lp.statements verbose columns) := by
  -- A reset leaves nothing, so the columns that are added next are all there are.
  have hadded : (Backend.tellAll r [.reset, .messageOutput verbose, .direction lp.direction,
      .addColumns lp.dimension]).HasSize lp.dimension 0 := by
    constructor <;> simp [Backend.tell, Recorder.describe, Recorder.note, Recorder.withOutcome]
  rw [statements, List.append_assoc, List.append_assoc, Recorder.landsAll_append]
  refine ⟨⟨trivial, trivial, trivial, trivial, trivial⟩, hadded.landsAll_append ?hcolumns ?hrows⟩
  case hcolumns =>
    intro t ht
    obtain ⟨e, he, ht⟩ := List.mem_flatMap.1 ht
    exact sets_of_mem_columnStatements
      (lp.length_zip_columns h ▸ List.snd_lt_of_mem_zipIdx he) ht
  case hrows =>
    intro r hr
    refine ⟨trivial, ((hr.addRows lp.constraints.length).landsAll fun t ht => ?_).1⟩
    obtain ⟨e, he, ht⟩ := List.mem_flatMap.1 ht
    rw [grownLength_zero]
    exact sets_of_mem_rowStatements (List.snd_lt_of_mem_zipIdx he) ht

end LinearProgram

/-- A recorder has heard the description of a program, and holds that and nothing else. -/
structure Recorder.Heard (r : Recorder α) (lp : LinearProgram α) (verbose : Bool) : Prop where
  log : r.log = lp.descriptionLog verbose
  messageOutput : r.messageOutput = verbose
  direction : r.direction = some lp.direction
  timeLimit : r.timeLimit = none
  size : r.HasSize lp.dimension lp.constraints.length
  columnNames : r.columnNames = lp.names
  objective : r.objective = lp.objective.toDense
  columns : lp.columnBounds (List.range lp.dimension) = .ok (r.columnBounds.zip r.columnKinds)
  rowNames : r.rowNames = lp.constraints.map Constraint.name
  rowBounds : r.rowBounds = lp.constraints.map Constraint.rowBound
  matrix : r.matrix = lp.coordinates

theorem Recorder.heard_holding [LawfulNumber α] (outcome : Outcome α) (verbose : Bool)
    {lp : LinearProgram α} (h : lp.Describable) :
    (holding outcome verbose lp lp.coordinates).Heard lp verbose where
  log := by
    have hlength : lp.coordinates.length = lp.nonzeroCount := by
      rw [LinearProgram.coordinates_eq, CoordinateList.length_ofTriples, lp.length_triplesFrom]
    have hcolumns : (lp.unknowns.toList.map Variable.column).length = lp.dimension := by simp
    rw [← lp.map_logEntry_statements verbose hcolumns, ← hlength]
    rfl
  messageOutput := rfl
  direction := rfl
  timeLimit := rfl
  size := by
    constructor <;> simp [holding, told, note, LinearProgram.names, Cells.length_toDense]
  columnNames := rfl
  objective := rfl
  columns := by
    refine (lp.columnBounds_range_eq_ok_iff _).2 ⟨?_, h.limits⟩
    show (lp.unknowns.toList.map fun v => v.column.1).zip
      (lp.unknowns.toList.map fun v => v.column.2) = lp.unknowns.toList.map Variable.column
    rw [List.zip_map']
  rowNames := rfl
  rowBounds := rfl
  matrix := rfl

namespace Session

/-- What a recorder hears while a session describes or solves a program. -/
structure Protocol (s : Session (Recorder α)) (lp : LinearProgram α) : Prop where
  described : (s.describe lp).2.backend.Heard lp s.options.verbose
  /-- What is told before the matrix is offered lands, all of it. -/
  landed : ∃ columns, lp.columnBounds (List.range lp.dimension) = .ok columns ∧
    s.backend.LandsAll (lp.statements s.options.verbose columns) ∧
    (s.describe lp).2.backend = (Backend.load
      (Backend.tellAll s.backend (lp.statements s.options.verbose columns)) lp.coordinates).2
  /-- The only request to solve comes after the limit, and asks for integers when some column that
  was described is for integers. -/
  solved : (s.solve lp).2.backend = (Backend.solve (limitTime (s.describe lp).2.backend s.options)
    (decide (VariableKind.integer ∈ (s.describe lp).2.backend.columnKinds))).2
  limited : (limitTime (s.describe lp).2.backend s.options).timeLimit = s.options.timeLimit
  log : (s.solve lp).2.backend.log =
    lp.descriptionLog s.options.verbose ++ (s.options.timeLimit.map LogEntry.timeLimit).toList ++
      [if VariableKind.integer ∈ (s.describe lp).2.backend.columnKinds then .solveMixedInteger
        else .solveLinear]

theorem limitTime_recorder {r : Recorder α} (options : SolveOptions) (h : r.timeLimit = none) :
    (limitTime r options).timeLimit = options.timeLimit ∧
      (limitTime r options).log = r.log ++ (options.timeLimit.map LogEntry.timeLimit).toList := by
  rw [limitTime]
  cases options.timeLimit with
  | none => exact ⟨h, (List.append_nil _).symm⟩
  | some ms => exact ⟨rfl, rfl⟩

/-- The flags of the variables and the kinds of the columns call for integers alike. -/
theorem isMixedInteger_iff_mem_kinds (lp : LinearProgram α) :
    lp.isMixedInteger = true ↔
      VariableKind.integer ∈ lp.unknowns.toList.map fun v => v.column.2 := by
  simp only [LinearProgram.isMixedInteger, List.any_eq_true, List.mem_map, Variable.column,
    ite_eq_left_iff, reduceCtorEq, imp_false, not_not]

/-- Every program that is described to a recorder is heard in the same order and in full. A solve
then adds the limit on the time, if there is one, and one request. -/
theorem protocol_of_describe_ok (s : Session (Recorder Float)) (lp : LinearProgram Float)
    (h : (s.describe lp).1 = .ok ()) : s.Protocol lp := by
  have hlp : lp.Describable := (s.describe_recorder_eq_ok_iff lp).1 h
  have hcolumns : lp.columnBounds (List.range lp.dimension) =
      .ok (lp.unknowns.toList.map Variable.column) :=
    (lp.columnBounds_range_eq_ok_iff _).2 ⟨rfl, hlp.limits⟩
  have hheld : (s.describe lp).2 = { s with
      backend := Recorder.holding s.backend.outcome s.options.verbose lp lp.coordinates } :=
    (receives_of_load (s.backend.tellAll_statements lp _) (Recorder.load_told _ _ lp)).complete h
  have hheard : (s.describe lp).2.backend.Heard lp s.options.verbose := by
    rw [hheld]
    exact Recorder.heard_holding _ _ hlp
  obtain ⟨hlimited, hlog⟩ := limitTime_recorder s.options hheard.timeLimit
  have hintegral : lp.isMixedInteger =
      decide (VariableKind.integer ∈ (s.describe lp).2.backend.columnKinds) := by
    rw [hheld, Bool.eq_iff_iff, decide_eq_true_iff]
    exact isMixedInteger_iff_mem_kinds lp
  have hsolved : (s.solve lp).2.backend =
      (Backend.solve (limitTime (s.describe lp).2.backend s.options)
        (decide (VariableKind.integer ∈ (s.describe lp).2.backend.columnKinds))).2 := by
    rw [s.snd_solve_of_ok h, ← hintegral, hheld]
  refine ⟨hheard, ⟨_, hcolumns, lp.landsAll_statements _ _ (by simp), ?_⟩, hsolved, hlimited, ?_⟩
  · rw [describe, hcolumns]
  · rw [hsolved, ← hheard.log, ← hlog]
    show _ ++ [if decide _ = true then _ else _] = _
    simp only [decide_eq_true_iff]

/-- One binary variable and one from zero up, in one constraint. -/
def mixedProgram : LinearProgram Float :=
  (LinearProgram.ofDense ([5, 4] : List Float)).revise
    [.lowerBounds [0, 0], .binary 0, .constraint "capacity" (.ofDense [2, 3]) .le 6]

/-- A session with a limit on the time whose recorder was told about other columns before. -/
def usedSession : Session (Recorder Float) :=
  ⟨Backend.tellAll (.new : Recorder Float) [.addColumns 3, .columnName 2 "old", .timeLimit 9],
    ⟨some 250, true⟩⟩

theorem protocol_mixedProgram : (usedSession.describe mixedProgram).1 = .ok () ∧
    usedSession.Protocol mixedProgram := by
  have hok : (usedSession.describe mixedProgram).1 = .ok () :=
    (usedSession.describe_recorder_eq_ok_iff mixedProgram).2 ⟨by decide +kernel, by decide +kernel⟩
  exact ⟨hok, protocol_of_describe_ok usedSession mixedProgram hok⟩

end Session

end LinearModel
