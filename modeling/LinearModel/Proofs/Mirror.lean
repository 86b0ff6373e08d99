import Mathlib
import LinearModel.Backend.Buffer
import LinearModel.Backend.Calls
import LinearModel.Backend.Recorder

/-!
# A recorder and a buffer that hear the same

A recorder keeps a description as one list for each attribute, a buffered engine as one list of
columns and one of rows. `Recorder.Mirrors` says that the two hold the same description. Every
statement preserves it, those about rows and columns that do not exist included, and so do
offering a matrix, which both accept or both refuse, and solving, which changes no description. A
reset brings it about. Hence the two cannot be told apart by any calls, as far as descriptions and
the answers to matrices go (`Recorder.mirrors_of_calls`).
-/

namespace LinearModel

section Attributes

variable {β γ : Type} {g : β → γ} {vs : List γ} {xs : List β}

theorem attribute_resize (h : vs = xs.map g) {total n : Nat} (htotal : total = n) (x : β) :
    resize vs total (g x) = (resize xs n x).map g := by
  rw [h, htotal, map_resize]

/-- A change that makes `v` the attribute sets it. -/
theorem attribute_set (h : vs = xs.map g) {f : β → β} {v : γ} (i : Nat)
    (hf : ∀ x, g (f x) = v) :
    setNumbered vs i v = (modifyNumbered xs i f).map g := by
  subst h
  cases i with
  | zero => rfl
  | succ i =>
      apply List.ext_getElem?
      intro k
      simp only [modifyNumbered, setNumbered, List.getElem?_set', List.getElem?_map,
        List.getElem?_modify]
      split <;> cases xs[k]? <;> simp [hf]

/-- A change of something else keeps the attribute. -/
theorem attribute_keep (h : vs = xs.map g) {f : β → β} (i : Nat)
    (hf : ∀ x, g (f x) = g x) :
    vs = (modifyNumbered xs i f).map g := by
  subst h
  cases i with
  | zero => rfl
  | succ i =>
      apply List.ext_getElem?
      intro k
      simp only [modifyNumbered, List.getElem?_map, List.getElem?_modify]
      split <;> cases xs[k]? <;> simp [hf]

end Attributes

/-- What a solve may change is the point that is kept. -/
theorem BufferedEngine.exists_solve_eq {α : Type} [Number α] (b : BufferedEngine α)
    (integral : Bool) :
    ∃ values objectiveValue, (b.solve integral).2 = { b with values, objectiveValue } := by
  rw [solve]
  cases b.problem integral with
  | error e => exact ⟨_, _, rfl⟩
  | ok p =>
      simp only
      cases b.engine p with
      | optimal found objectiveValue =>
          simp only
          cases valuesOf? found p.unknowns.length <;> exact ⟨_, _, rfl⟩
      | _ => exact ⟨_, _, rfl⟩

namespace Recorder

variable {α : Type} [Number α]

/-- A recorder and a buffered engine hold the same description. A recorder that was told no
direction counts as maximizing. -/
structure Mirrors (r : Recorder α) (b : BufferedEngine α) : Prop where
  direction : r.direction.getD .maximize = b.direction
  timeLimit : r.timeLimit = b.timeLimit
  columnNames : r.columnNames = b.columns.map Column.name
  objective : r.objective = b.columns.map Column.objective
  columnBounds : r.columnBounds = b.columns.map Column.bound
  columnKinds : r.columnKinds = b.columns.map Column.kind
  rowNames : r.rowNames = b.rows.map Row.name
  rowBounds : r.rowBounds = b.rows.map Row.bound
  matrix : r.matrix = b.matrix

namespace Mirrors

variable {r : Recorder α} {b : BufferedEngine α}

/-- Both are empty before they are told anything. -/
theorem blank (outcome : Outcome α) (engine : Engine α) :
    Mirrors (withOutcome outcome) (.new engine) where
  direction := rfl
  timeLimit := rfl
  columnNames := rfl
  objective := rfl
  columnBounds := rfl
  columnKinds := rfl
  rowNames := rfl
  rowBounds := rfl
  matrix := rfl

/-- After a reset both are empty, whatever they held. -/
theorem reset (r : Recorder α) (b : BufferedEngine α) :
    Mirrors (Backend.tell r (.reset : Statement α)) (Backend.tell b (.reset : Statement α)) :=
  { blank r.outcome b.engine with }

theorem tell (h : Mirrors r b) (s : Statement α) :
    Mirrors (Backend.tell r s) (Backend.tell b s) := by
  cases s with
  | reset => exact reset r b
  | direction d => exact { h with direction := rfl }
  | timeLimit ms => exact { h with timeLimit := rfl }
  | messageOutput on => exact { h with }
  | addColumns n =>
      have htotal : grownLength r.columnNames.length n = grownLength b.columns.length n := by
        rw [h.columnNames, List.length_map]
      exact { h with
        columnNames := attribute_resize h.columnNames htotal ⟨"", 0, .free, .continuous⟩
        objective := attribute_resize h.objective htotal ⟨"", 0, .free, .continuous⟩
        columnBounds := attribute_resize h.columnBounds htotal ⟨"", 0, .free, .continuous⟩
        columnKinds := attribute_resize h.columnKinds htotal ⟨"", 0, .free, .continuous⟩ }
  | addRows n =>
      have htotal : grownLength r.rowNames.length n = grownLength b.rows.length n := by
        rw [h.rowNames, List.length_map]
      exact { h with
        rowNames := attribute_resize h.rowNames htotal ⟨"", .free⟩
        rowBounds := attribute_resize h.rowBounds htotal ⟨"", .free⟩ }
  | columnName j name =>
      exact { h with
        columnNames := attribute_set h.columnNames j (by intro; rfl)
        objective := attribute_keep h.objective j (by intro; rfl)
        columnBounds := attribute_keep h.columnBounds j (by intro; rfl)
        columnKinds := attribute_keep h.columnKinds j (by intro; rfl) }
  | objective j v =>
      exact { h with
        columnNames := attribute_keep h.columnNames j (by intro; rfl)
        objective := attribute_set h.objective j (by intro; rfl)
        columnBounds := attribute_keep h.columnBounds j (by intro; rfl)
        columnKinds := attribute_keep h.columnKinds j (by intro; rfl) }
  | columnBound j bound =>
      exact { h with
        columnNames := attribute_keep h.columnNames j (by intro; rfl)
        objective := attribute_keep h.objective j (by intro; rfl)
        columnBounds := attribute_set h.columnBounds j (by intro; rfl)
        columnKinds := attribute_keep h.columnKinds j (by intro; rfl) }
  | columnKind j kind =>
      exact { h with
        columnNames := attribute_keep h.columnNames j (by intro; rfl)
        objective := attribute_keep h.objective j (by intro; rfl)
        columnBounds := attribute_keep h.columnBounds j (by intro; rfl)
        columnKinds := attribute_set h.columnKinds j (by intro; rfl) }
  | rowName i name =>
      exact { h with
        rowNames := attribute_set h.rowNames i (by intro; rfl)
        rowBounds := attribute_keep h.rowBounds i (by intro; rfl) }
  | rowBound i bound =>
      exact { h with
        rowNames := attribute_keep h.rowNames i (by intro; rfl)
        rowBounds := attribute_set h.rowBounds i (by intro; rfl) }

theorem tellAll (h : Mirrors r b) (statements : List (Statement α)) :
    Mirrors (Backend.tellAll r statements) (Backend.tellAll b statements) := by
  induction statements generalizing r b with
  | nil => exact h
  | cons s rest ih => exact ih (h.tell s)

/-- The two have equally many rows and columns, so they take the same matrices. -/
theorem load (h : Mirrors r b) (m : CoordinateList α) :
    (Backend.load r m).1 = (Backend.load b m).1 ∧
      Mirrors (Backend.load r m).2 (Backend.load b m).2 := by
  have hrows : r.rowBounds.length = b.rows.length := by rw [h.rowBounds, List.length_map]
  have hcols : r.columnBounds.length = b.columns.length := by rw [h.columnBounds, List.length_map]
  show (Recorder.load r m).1 = (BufferedEngine.load b m).1 ∧
    Mirrors (Recorder.load r m).2 (BufferedEngine.load b m).2
  simp only [Recorder.load, BufferedEngine.load, note, hrows, hcols]
  cases m.validate b.rows.length b.columns.length with
  | ok _ => exact ⟨rfl, { h with matrix := rfl }⟩
  | error e => exact ⟨rfl, { h with }⟩

/-- Solving changes no description: a recorder logs it, a buffered engine keeps a point. -/
theorem solve (h : Mirrors r b) (integral : Bool) :
    Mirrors (Backend.solve r integral).2 (Backend.solve b integral).2 := by
  obtain ⟨values, objectiveValue, hsolved⟩ := b.exists_solve_eq integral
  show Mirrors (r.note (if integral then .solveMixedInteger else .solveLinear)) (b.solve integral).2
  rw [hsolved]
  exact { h with }

theorem perform (h : Mirrors r b) (c : Call α) :
    Mirrors (Backend.perform r c) (Backend.perform b c) := by
  cases c with
  | tell s => exact h.tell s
  | load m => exact (h.load m).2
  | solve integral => exact h.solve integral

theorem performAll (h : Mirrors r b) (calls : List (Call α)) :
    Mirrors (Backend.performAll r calls) (Backend.performAll b calls) := by
  induction calls generalizing r b with
  | nil => exact h
  | cons c rest ih => exact ih (h.perform c)

theorem loadAnswers (h : Mirrors r b) (calls : List (Call α)) :
    Backend.loadAnswers r calls = Backend.loadAnswers b calls := by
  induction calls generalizing r b with
  | nil => rfl
  | cons c rest ih =>
      cases c with
      | tell s => exact ih (h.tell s)
      | load m => exact List.cons_eq_cons.2 ⟨(h.load m).1, ih (h.load m).2⟩
      | solve integral => exact ih (h.solve integral)

end Mirrors

/-- A new recorder and a new buffered engine to which the same is done, in whatever order, answer
every matrix alike and end with the same description. -/
theorem mirrors_of_calls (engine : Engine α) (calls : List (Call α)) :
    Backend.loadAnswers (Recorder.new : Recorder α) calls =
        Backend.loadAnswers (BufferedEngine.new engine) calls ∧
      Mirrors (Backend.performAll (Recorder.new : Recorder α) calls)
        (Backend.performAll (BufferedEngine.new engine) calls) := by
  have hnew : Mirrors (Recorder.new : Recorder α) (.new engine) := Mirrors.blank _ engine
  exact ⟨hnew.loadAnswers calls, hnew.performAll calls⟩

end Recorder

end LinearModel
