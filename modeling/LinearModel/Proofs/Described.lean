import Mathlib
import LinearModel.Proofs.Lookups
import LinearModel.Proofs.Mirror
import LinearModel.Session

/-!
# What a backend holds once a program is described

Describing a program succeeds exactly when its limits and coefficients can be handed over
(`LinearProgram.Describable`). A buffered engine then holds one column for each variable and one row
for each constraint, in order (`BufferedEngine.holding`), whatever it held before. A recorder hears
the same statements, so it mirrors such an engine.
-/

namespace LinearModel

def Variable.column {α : Type} [Number α] (v : Variable α) : Bound α × VariableKind :=
  (.between v.effectiveBounds.1 v.effectiveBounds.2,
    if v.integer || v.binary then .integer else .continuous)

namespace LinearProgram

variable {α : Type} [Number α]

/-- The limits of every variable that is not binary admit a value, and every coefficient of a
constraint is finite. -/
structure Describable (lp : LinearProgram α) : Prop where
  limits : ∀ v ∈ lp.unknowns.toList, v.binary = true ∨ admitsNothing v.lower v.upper = false
  coefficients : ∀ c ∈ lp.constraints, ∀ a ∈ c.coefficients.values, Number.isFinite a = true

theorem columnBound_eq (lp : LinearProgram α) {j : Nat} {v : Variable α}
    (hv : lp.unknowns[j]? = some v) :
    lp.columnBound j =
      if v.binary = false ∧ admitsNothing v.lower v.upper = true then
        .error (.invalidBounds j v.lower v.upper)
      else .ok v.column := by
  have hbinary : lp.isBinary j = v.binary := by simp [isBinary, hv]
  have hinteger : lp.isInteger j = (v.integer || v.binary) := by simp [isInteger, hbinary, hv]
  have hbounds : lp.bounds j = .ok (v.lower, v.upper) := by simp [bounds, hv]
  rw [columnBound, hbinary, hbounds, hinteger, Variable.column, Variable.effectiveBounds]
  cases v.binary with
  | true => simp
  | false => cases hn : admitsNothing v.lower v.upper <;> simp [hn]

theorem columnBound_eq_ok_iff (lp : LinearProgram α) {j : Nat} {v : Variable α}
    (hv : lp.unknowns[j]? = some v) (column : Bound α × VariableKind) :
    lp.columnBound j = .ok column ↔
      (v.binary = true ∨ admitsNothing v.lower v.upper = false) ∧ v.column = column := by
  rw [lp.columnBound_eq hv]
  cases v.binary <;> cases admitsNothing v.lower v.upper <;> simp

theorem columnBounds_eq_ok_iff (lp : LinearProgram α) (js : List Nat)
    (columns : List (Bound α × VariableKind)) :
    lp.columnBounds js = .ok columns ↔
      List.Forall₂ (fun j column => lp.columnBound j = .ok column) js columns := by
  induction js generalizing columns with
  | nil => cases columns <;> simp [columnBounds]
  | cons j js ih =>
      rw [columnBounds]
      cases hhead : lp.columnBound j with
      | error e => cases columns <;> simp [bind, Except.bind, hhead]
      | ok column =>
          cases htail : lp.columnBounds js with
          | error e => cases columns <;> simp [bind, Except.bind, ← ih, htail]
          | ok rest =>
              cases columns <;>
                simp [bind, Except.bind, pure, Except.pure, ← ih, htail, hhead]

/-- All columns are found exactly when the limits of every variable admit a value, and then they
are the columns of the variables. -/
theorem columnBounds_range_eq_ok_iff (lp : LinearProgram α)
    (columns : List (Bound α × VariableKind)) :
    lp.columnBounds (List.range lp.dimension) = .ok columns ↔
      columns = lp.unknowns.toList.map Variable.column ∧
        ∀ v ∈ lp.unknowns.toList, v.binary = true ∨ admitsNothing v.lower v.upper = false := by
  have hvariables : List.Forall₂ (fun j column => lp.columnBound j = .ok column)
      (List.range lp.dimension) columns ↔ List.Forall₂ (fun v column =>
        (v.binary = true ∨ admitsNothing v.lower v.upper = false) ∧ v.column = column)
        lp.unknowns.toList columns := by
    have hv (j : Nat) (hj : j < lp.unknowns.toList.length) :
        lp.unknowns[j]? = some (lp.unknowns.toList.get ⟨j, hj⟩) := by
      simp [show j < lp.dimension by simpa using hj]
    rw [List.forall₂_iff_get, List.forall₂_iff_get]
    constructor
    · rintro ⟨hlength, hall⟩
      refine ⟨by simpa using hlength, fun j hj hj' => ?_⟩
      rw [← lp.columnBound_eq_ok_iff (hv j hj)]
      simpa using hall j (by simpa using hj) hj'
    · rintro ⟨hlength, hall⟩
      refine ⟨by simpa using hlength, fun j hj hj' => ?_⟩
      have hj'' : j < lp.unknowns.toList.length := by simpa using hj
      rw [List.get_eq_getElem, List.getElem_range, lp.columnBound_eq_ok_iff (hv j hj'')]
      exact hall j hj'' hj'
  rw [columnBounds_eq_ok_iff, hvariables, List.forall₂_and_left, and_comm,
    ← List.forall₂_map_left_iff, List.forall₂_eq_eq_eq, eq_comm]

end LinearProgram

namespace BufferedEngine

variable {α : Type} [Number α]

theorem modifyNumbered_append {β : Type} (pre post : List β) (x : β) (f : β → β) :
    modifyNumbered (pre ++ x :: post) (pre.length + 1) f = pre ++ f x :: post := by
  simp [modifyNumbered, List.modify_eq_take_drop]

def columnOf : String × α × Bound α × VariableKind → Column α
  | (name, coefficient, bound, kind) => ⟨name, coefficient, bound, kind⟩

def columnFor : Variable α × α → Column α
  | (v, coefficient) => columnOf (v.name, coefficient, v.column)

def rowOf {n : Nat} (c : Constraint α n) : Row α := ⟨c.name, c.rowBound⟩

/-- Members are described in order: those before are finished, those behind are still new. `hold`
is the engine with a given list of members. -/
theorem tellAll_inTurn {β γ : Type} {hold : List γ → BufferedEngine α} {blank : γ} {finish : β → γ}
    {statements : Nat → β → List (Statement α)}
    (hone : ∀ pre post x, Backend.tellAll (hold (pre ++ blank :: post))
      (statements (pre.length + 1) x) = hold (pre ++ finish x :: post))
    (pre : List γ) (xs : List β) :
    Backend.tellAll (hold (pre ++ List.replicate xs.length blank))
        ((xs.zipIdx pre.length).flatMap fun (x, i) => statements (i + 1) x) =
      hold (pre ++ xs.map finish) := by
  induction xs generalizing pre with
  | nil => rfl
  | cons x xs ih =>
      have hrest := ih (pre ++ [finish x])
      rw [List.length_append, List.length_singleton, List.append_assoc, List.singleton_append,
        List.append_assoc, List.singleton_append] at hrest
      rw [List.length_cons, List.replicate_succ, List.zipIdx_cons, List.flatMap_cons,
        Backend.tellAll_append, hone, List.map_cons, hrest]

theorem tellAll_columnStatements (b : BufferedEngine α)
    {xs : List (String × α × Bound α × VariableKind)} {n : Nat} (hn : xs.length = n) :
    Backend.tellAll { b with columns := List.replicate n ⟨"", 0, .free, .continuous⟩ }
        (xs.zipIdx.flatMap fun ((name, coefficient, column), j) =>
          LinearProgram.columnStatements (j + 1) name coefficient column) =
      { b with columns := xs.map columnOf } := by
  subst hn
  refine @tellAll_inTurn _ _ _ _ (fun columns => { b with columns }) _ columnOf
    (fun j (name, coefficient, column) =>
      LinearProgram.columnStatements j name coefficient column) ?_ [] xs
  intro pre post x
  simp [LinearProgram.columnStatements, Backend.tell, BufferedEngine.describe,
    modifyNumbered_append, columnOf]

theorem tellAll_rowStatements {n : Nat} (b : BufferedEngine α) (cs : List (Constraint α n)) :
    Backend.tellAll { b with rows := List.replicate cs.length ⟨"", .free⟩ }
        (cs.zipIdx.flatMap fun (c, i) => LinearProgram.rowStatements (i + 1) c) =
      { b with rows := cs.map rowOf } := by
  refine @tellAll_inTurn _ _ _ _ (fun rows => { b with rows }) _ rowOf
    LinearProgram.rowStatements ?_ [] cs
  intro pre post c
  simp [LinearProgram.rowStatements, Backend.tell, BufferedEngine.describe,
    modifyNumbered_append, rowOf]

/-- The engine with the columns and rows of a program, and nothing else. -/
def holding (engine : Engine α) (lp : LinearProgram α) : BufferedEngine α :=
  { new engine with
    direction := lp.direction
    columns := (lp.unknowns.toList.zip lp.objective.toDense).map columnFor
    rows := lp.constraints.map rowOf
    matrix := lp.coordinates }

theorem map_columnOf_zip (vs : List (Variable α)) (coefficients : List α) :
    ((vs.map Variable.name).zip (coefficients.zip (vs.map Variable.column))).map columnOf =
      (vs.zip coefficients).map columnFor := by
  induction vs generalizing coefficients with
  | nil => rfl
  | cons v vs ih =>
      cases coefficients with
      | nil => rfl
      | cons a coefficients => exact congrArg (columnFor (v, a) :: ·) (ih coefficients)

/-- An engine without columns has as many afterwards as are added. -/
theorem tell_addColumns_of_nil {b : BufferedEngine α} (h : b.columns = []) (n : Nat) :
    Backend.tell b (.addColumns n) =
      { b with columns := List.replicate n ⟨"", 0, .free, .continuous⟩ } := by
  simp [Backend.tell, describe, h]

theorem tell_addRows_of_nil {b : BufferedEngine α} (h : b.rows = []) (n : Nat) :
    Backend.tell b (.addRows n) = { b with rows := List.replicate n ⟨"", .free⟩ } := by
  simp [Backend.tell, describe, h]

/-- The description of a program replaces whatever was held. -/
theorem tellAll_statements (b : BufferedEngine α) (lp : LinearProgram α) (verbose : Bool) :
    Backend.tellAll b (lp.statements verbose (lp.unknowns.toList.map Variable.column)) =
      { holding b.engine lp with matrix := .empty } := by
  have hlength : (lp.unknowns.toList.map Variable.column).length = lp.dimension := by simp
  have hopened : Backend.tellAll b [.reset, .messageOutput verbose, .direction lp.direction,
      .addColumns lp.dimension] = { new b.engine with
        direction := lp.direction
        columns := List.replicate lp.dimension ⟨"", 0, .free, .continuous⟩ } :=
    tell_addColumns_of_nil rfl lp.dimension
  have hcolumns := tellAll_columnStatements { new b.engine with direction := lp.direction }
    (lp.length_zip_columns hlength)
  have hadded : Backend.tellAll { holding b.engine lp with rows := [], matrix := .empty }
      [.addRows lp.constraints.length] = { holding b.engine lp with
        rows := List.replicate lp.constraints.length ⟨"", .free⟩, matrix := .empty } :=
    tell_addRows_of_nil rfl lp.constraints.length
  have hrows := tellAll_rowStatements { holding b.engine lp with rows := [], matrix := .empty }
    lp.constraints
  rw [LinearProgram.names, map_columnOf_zip] at hcolumns
  rw [LinearProgram.statements, Backend.tellAll_append, Backend.tellAll_append,
    Backend.tellAll_append, hopened]
  exact (congrArg (fun c => Backend.tellAll (Backend.tellAll c [.addRows _]) _) hcolumns).trans
    ((congrArg (fun c => Backend.tellAll c _) hadded).trans hrows)

theorem length_columns_holding (engine : Engine α) (lp : LinearProgram α) :
    (holding engine lp).columns.length = lp.dimension := by
  simp [holding, lp.objective.length_toDense]

theorem length_rows_holding (engine : Engine α) (lp : LinearProgram α) :
    (holding engine lp).rows.length = lp.constraints.length := by
  simp [holding]

theorem map_columns_holding (engine : Engine α) (lp : LinearProgram α) {γ : Type}
    {f : Column α → γ} {g : Variable α → γ} (h : ∀ v a, f (columnFor (v, a)) = g v) :
    (holding engine lp).columns.map f = lp.unknowns.toList.map g := by
  have hfst : (lp.unknowns.toList.zip lp.objective.toDense).map Prod.fst = lp.unknowns.toList :=
    List.map_fst_zip (by simp [lp.objective.length_toDense])
  rw [holding, List.map_map, ← hfst, List.map_map, hfst]
  exact List.map_congr_left fun x _ => h x.1 x.2

theorem map_objective_holding (engine : Engine α) (lp : LinearProgram α) :
    (holding engine lp).columns.map Column.objective = lp.objective.toDense := by
  have hsnd : (lp.unknowns.toList.zip lp.objective.toDense).map Prod.snd = lp.objective.toDense :=
    List.map_snd_zip (by simp [lp.objective.length_toDense])
  rw [holding, List.map_map]
  exact hsnd

/-- The matrix of a describable program is in range of its constraints and variables. -/
theorem inRange_holding [LawfulNumber α] (engine : Engine α) {lp : LinearProgram α}
    (h : lp.Describable) : (holding engine lp).InRange := by
  apply inRange_of_validate
  rw [length_columns_holding, length_rows_holding]
  exact lp.validate_coordinates_eq_ok_iff.2 h.coefficients

/-- The matrix of a program is kept when it is valid, and else nothing changes. -/
theorem load_bare (engine : Engine α) (lp : LinearProgram α) :
    Backend.load { holding engine lp with matrix := .empty } lp.coordinates =
      match lp.coordinates.validate lp.constraints.length lp.dimension with
      | .ok () => (.ok (), holding engine lp)
      | .error e => (.error e, { holding engine lp with matrix := .empty }) := by
  show BufferedEngine.load _ _ = _
  simp only [load, length_columns_holding, length_rows_holding]
  cases lp.coordinates.validate lp.constraints.length lp.dimension <;> rfl

/-- The matrix of a program is loaded exactly when its coefficients are finite. -/
theorem load_coordinates [LawfulNumber α] (engine : Engine α) (lp : LinearProgram α) :
    ((Backend.load { holding engine lp with matrix := .empty } lp.coordinates).1 = .ok () ↔
      ∀ c ∈ lp.constraints, ∀ a ∈ c.coefficients.values, Number.isFinite a = true) ∧
    ((Backend.load { holding engine lp with matrix := .empty } lp.coordinates).1 = .ok () →
      (Backend.load { holding engine lp with matrix := .empty } lp.coordinates).2 =
        holding engine lp) := by
  rw [← lp.validate_coordinates_eq_ok_iff, load_bare]
  cases lp.coordinates.validate lp.constraints.length lp.dimension with
  | ok _ => exact ⟨⟨fun _ => rfl, fun _ => rfl⟩, fun _ => rfl⟩
  | error e => simp

end BufferedEngine

/-- A description starts with a reset, so it does not matter what the two held before. -/
theorem Recorder.mirrors_tellAll_statements {α : Type} [Number α] (r : Recorder α)
    (b : BufferedEngine α) (lp : LinearProgram α) (verbose : Bool)
    (columns : List (Bound α × VariableKind)) :
    Mirrors (Backend.tellAll r (lp.statements verbose columns))
      (Backend.tellAll b (lp.statements verbose columns)) := by
  obtain ⟨rest, hreset⟩ : ∃ rest, lp.statements verbose columns = .reset :: rest := ⟨_, rfl⟩
  rw [hreset, Backend.tellAll_cons, Backend.tellAll_cons]
  exact (Mirrors.reset r b).tellAll rest

namespace Session

variable {α : Type} [Number α]

/-- What cannot be described is not solved, and nothing more happens. -/
theorem solve_eq_error {B : Type} [Backend B α] (s : Session B) {lp : LinearProgram α}
    {e : SolveError α} (h : (s.describe lp).1 = .error e) :
    s.solve lp = (.error e, (s.describe lp).2) := by
  rw [solve]
  cases hdescribe : s.describe lp with
  | mk result t =>
      rw [hdescribe] at h
      cases h
      rfl

/-- What was described is solved once, with the time limited first, and whatever comes of it. -/
theorem snd_solve_of_ok {B : Type} [Backend B α] (s : Session B) {lp : LinearProgram α}
    (h : (s.describe lp).1 = .ok ()) :
    (s.solve lp).2 = { (s.describe lp).2 with
      backend := (Backend.solve (limitTime (s.describe lp).2.backend (s.describe lp).2.options)
        lp.isMixedInteger).2 } := by
  rw [solve]
  cases hdescribe : s.describe lp with
  | mk result t =>
      rw [hdescribe] at h
      cases h
      simp only
      split
      · rfl
      · split <;> rfl

/-- A program is described to a buffered engine exactly when it is describable. -/
theorem describe_eq_ok_iff [LawfulNumber α] (s : Session (BufferedEngine α))
    (lp : LinearProgram α) : (s.describe lp).1 = .ok () ↔ lp.Describable := by
  rw [describe]
  cases hcolumns : lp.columnBounds (List.range lp.dimension) with
  | error e =>
      constructor
      · intro h
        cases h
      · intro h
        have hok := (lp.columnBounds_range_eq_ok_iff _).2 ⟨rfl, h.limits⟩
        rw [hcolumns] at hok
        cases hok
  | ok columns =>
      obtain ⟨rfl, hlimits⟩ := (lp.columnBounds_range_eq_ok_iff columns).1 hcolumns
      have hload := (BufferedEngine.load_coordinates s.backend.engine lp).1
      simp only [BufferedEngine.tellAll_statements]
      rw [hload]
      exact ⟨fun h => ⟨hlimits, h⟩, fun h => h.coefficients⟩

theorem describe_eq_holding [LawfulNumber α] (s : Session (BufferedEngine α))
    {lp : LinearProgram α} (h : lp.Describable) :
    s.describe lp = (.ok (), { s with backend := .holding s.backend.engine lp }) := by
  have hcolumns := (lp.columnBounds_range_eq_ok_iff _).2 ⟨rfl, h.limits⟩
  obtain ⟨hload, hheld⟩ := BufferedEngine.load_coordinates s.backend.engine lp
  have hok := hload.2 h.coefficients
  rw [describe, hcolumns]
  simp only [BufferedEngine.tellAll_statements]
  rw [hok, hheld hok]

/-- A recorder and a buffered engine are described alike. -/
theorem describe_mirrors (s : Session (Recorder α)) (t : Session (BufferedEngine α))
    (hoptions : s.options = t.options) (lp : LinearProgram α) :
    (s.describe lp).1 = (t.describe lp).1 ∧ ((s.describe lp).1 = .ok () →
      (s.describe lp).2.backend.Mirrors (t.describe lp).2.backend) := by
  rw [describe, describe, hoptions]
  cases lp.columnBounds (List.range lp.dimension) with
  | error e => exact ⟨rfl, fun h => by cases h⟩
  | ok columns =>
      have htold := Recorder.mirrors_tellAll_statements s.backend t.backend lp
        t.options.verbose columns
      exact ⟨(htold.load _).1, fun _ => (htold.load _).2⟩

/-- An engine that never answers, to compare recorders with. -/
private def mute : BufferedEngine α := .new fun _ => .fault

theorem describe_recorder_eq_ok_iff [LawfulNumber α] (s : Session (Recorder α))
    (lp : LinearProgram α) : (s.describe lp).1 = .ok () ↔ lp.Describable := by
  rw [(s.describe_mirrors ⟨mute, s.options⟩ rfl lp).1, describe_eq_ok_iff]

theorem mirrors_describe [LawfulNumber α] (s : Session (Recorder α)) {lp : LinearProgram α}
    (h : lp.Describable) : (s.describe lp).2.backend.Mirrors (.holding (fun _ => .fault) lp) := by
  have hmirrors := (s.describe_mirrors ⟨mute, s.options⟩ rfl lp).2
    ((s.describe_recorder_eq_ok_iff lp).2 h)
  rwa [describe_eq_holding _ h] at hmirrors

end Session

end LinearModel
