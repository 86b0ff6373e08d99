import Mathlib
import LinearModel.ProblemFile
import LinearModel.Proofs.LastWrite

/-!
# The program of a problem file

A problem file is a list of edits of the program that has nothing but its objective
(`ProblemFile.edits`), and making the program is making these edits one after the other, up to the
first that does not fit. What is reported is therefore the first of the complaints that can be read
off the file part by part (`ProblemFile.complaints`), and without any the program holds what the
file says (`ProblemFile.Describes`): every view of it shows what the last edit that writes to it
wrote, and of most views there is only one such edit.
-/

namespace LinearModel

section Edits

variable {α : Type}

/-- Where all edits that write anything write the same, the last one does not matter. -/
theorem latest_eq_some_iff {β : Type} {write : Edit α → Option β} {edits : List (Edit α)} {x : β}
    (h : ∀ e ∈ edits, ∀ y ∈ write e, y = x) :
    latest write edits = some x ↔ ∃ e ∈ edits, write e = some x := by
  constructor
  · intro hlatest
    exact List.mem_filterMap.1 (List.mem_of_getLast? hlatest)
  · rintro ⟨e, he, hwrite⟩
    have hwritten : x ∈ edits.filterMap write := List.mem_filterMap.2 ⟨e, he, hwrite⟩
    obtain ⟨y, hlatest⟩ := Option.isSome_iff_exists.1
      (List.getLast?_isSome.2 (List.ne_nil_of_mem hwritten))
    obtain ⟨f, hf, hy⟩ := List.mem_filterMap.1 (List.mem_of_getLast? hlatest)
    rw [latest, hlatest, h f hf y hy]

/-- Why a requirement is not met, if it is not. -/
def complaintOf? : Except AlgebraError Unit → Option AlgebraError
  | .ok () => none
  | .error cause => some cause

theorem complaintOf?_ok : complaintOf? (.ok ()) = none := rfl

/-- Why the edit does not fit a program with `d` variables, if it does not. -/
def Edit.complaint? (d : Nat) (e : Edit α) : Option AlgebraError := complaintOf? (e.require d)

theorem Edit.complaint?_eq_none_iff (d : Nat) (e : Edit α) : e.complaint? d = none ↔ e.Fits d := by
  rw [← e.require_eq_ok_iff d, complaint?]
  cases e.require d <;> simp [complaintOf?]

/-- The names that the edit gives to the variables. -/
def Edit.names? : Edit α → Option (List String)
  | .names xs => some xs
  | _ => none

def Edit.minimize? : Edit α → Option Bool
  | .minimize on => some on
  | _ => none

def Edit.objective? : Edit α → Option (SparseVector α)
  | .objective v => some (v.orient .row)
  | _ => none

namespace ProgramParts

variable [Number α] (p : ProgramParts α) (e : Edit α)

theorem names_write : some (p.write e).names = e.names?.or (some p.names) := by
  cases e <;> rfl

theorem minimize_write : some (p.write e).minimize = e.minimize?.or (some p.minimize) := by
  cases e <;> rfl

theorem objective_write : some (p.write e).objective = e.objective?.or (some p.objective) := by
  cases e <;> rfl

end ProgramParts

namespace LinearProgram

variable [Number α] {lp : LinearProgram α} {d : Nat}

/-- Edits are made up to the first that does not fit, and that one is reported. -/
theorem foldlM_edit (h : lp.BoundsDeclared) (hp : lp.parts.InStep d) (edits : List (Edit α)) :
    edits.foldlM LinearProgram.edit lp =
      match (edits.filterMap (Edit.complaint? d)).head? with
      | none => .ok (lp.revise edits)
      | some cause => .error cause := by
  induction edits generalizing lp with
  | nil => rfl
  | cons e rest ih =>
      have hdimension : lp.dimension = d := hp.objective.1
      rw [List.foldlM_cons]
      by_cases he : e.Fits d
      · obtain ⟨lp', hedit, hdeclared, hparts⟩ := exists_edit_eq_ok h (hdimension ▸ he)
        have hrevise : lp.revise (e :: rest) = lp'.revise rest := by
          simp [revise, hedit, Except.toOption]
        rw [List.filterMap_cons_none ((e.complaint?_eq_none_iff d).2 he), hrevise,
          ← ih hdeclared (hparts ▸ hp.write he), hedit]
        rfl
      · obtain ⟨cause, hedit, hcause⟩ := lp.edit_eq_error (hdimension ▸ he)
        have hcomplaint : e.complaint? d = some cause := by
          rw [Edit.complaint?, ← hdimension, hcause, complaintOf?]
        rw [List.filterMap_cons_some hcomplaint, hedit]
        rfl

theorem made_eq_self (h : lp.BoundsDeclared) (hp : lp.parts.InStep d)
    {edits : List (Edit α)} (hedits : ∀ e ∈ edits, e.Fits d) : lp.made edits = edits := by
  induction edits generalizing lp with
  | nil => rfl
  | cons e rest ih =>
      have he : e.Fits d := hedits e List.mem_cons_self
      have hdimension : lp.dimension = d := hp.objective.1
      obtain ⟨lp', hedit, hdeclared, hparts⟩ := exists_edit_eq_ok h (hdimension ▸ he)
      rw [made_cons_of_ok hedit, ih hdeclared (hparts ▸ hp.write he) fun f hf =>
        hedits f (List.mem_cons_of_mem e hf)]

end LinearProgram

end Edits

namespace ProblemFile

/-- The changes that turn a program with the objective of the file into the one that it describes,
in the order in which they are tried. -/
def edits (file : ProblemFile) : List (Edit Float) :=
  (file.names.map Edit.names).toList
    ++ [.minimize file.minimize]
    ++ (file.lowerBounds.map fun bounds => Edit.lowerBounds (filled Number.negInf bounds)).toList
    ++ (file.upperBounds.map fun bounds => Edit.upperBounds (filled Number.posInf bounds)).toList
    ++ file.integer.map Edit.integer
    ++ file.binary.map Edit.binary
    ++ file.constraints.zipIdx.map fun (entry, i) =>
      Edit.constraint (constraintName i entry) (.ofDense entry.coefficients) entry.relation
        entry.rhs

theorem whenSome_eq_foldlM {β : Type} {f : LinearProgram Float → β →
    Except AlgebraError (LinearProgram Float)} {write : β → Edit Float}
    (h : ∀ lp x, f lp x = lp.edit (write x)) (x : Option β) (lp : LinearProgram Float) :
    whenSome x f lp = (x.map write).toList.foldlM LinearProgram.edit lp := by
  cases x with
  | none => rfl
  | some x =>
      show f lp x = lp.edit (write x) >>= pure
      rw [h, bind_pure]

theorem toProgram_eq (file : ProblemFile) :
    file.toProgram = file.edits.foldlM LinearProgram.edit (.ofDense file.objective) := by
  have hnames : ∀ x lp, whenSome x LinearProgram.setNames lp =
      (x.map Edit.names).toList.foldlM LinearProgram.edit lp :=
    whenSome_eq_foldlM fun _ _ => rfl
  have hlower : ∀ x lp, whenSome x LinearProgram.setLowerBounds lp =
      (x.map Edit.lowerBounds).toList.foldlM LinearProgram.edit lp :=
    whenSome_eq_foldlM fun _ _ => rfl
  have hupper : ∀ x lp, whenSome x LinearProgram.setUpperBounds lp =
      (x.map Edit.upperBounds).toList.foldlM LinearProgram.edit lp :=
    whenSome_eq_foldlM fun _ _ => rfl
  simp only [toProgram, hnames, hlower, hupper, Option.map_map, edits, forEach,
    List.foldlM_append, List.foldlM_map, List.foldlM_cons, List.foldlM_nil, bind_assoc]
  rfl

theorem filterMap_toList_map {β γ δ : Type} (f : β → γ) (g : γ → Option δ) (x : Option β) :
    (x.map f).toList.filterMap g = (x.bind fun y => g (f y)).toList := by
  cases x with
  | none => rfl
  | some y => cases h : g (f y) <;> simp [h]

/-- What is made of the edits is made of the parts of the file. -/
theorem filterMap_edits {β : Type} (g : Edit Float → Option β) (file : ProblemFile) :
    file.edits.filterMap g =
      (file.names.bind fun names => g (.names names)).toList
        ++ (g (.minimize file.minimize)).toList
        ++ (file.lowerBounds.bind fun bounds =>
          g (.lowerBounds (filled Number.negInf bounds))).toList
        ++ (file.upperBounds.bind fun bounds =>
          g (.upperBounds (filled Number.posInf bounds))).toList
        ++ file.integer.filterMap (fun j => g (.integer j))
        ++ file.binary.filterMap (fun j => g (.binary j))
        ++ file.constraints.zipIdx.filterMap fun (entry, i) =>
          g (.constraint (constraintName i entry) (.ofDense entry.coefficients) entry.relation
            entry.rhs) := by
  simp only [edits, List.filterMap_append, filterMap_toList_map, List.filterMap_map]
  rfl

/-- The complaint about a list of another length than the number of variables. -/
def lengthComplaint? (purpose : Agreement) (length size : Nat) : Option AlgebraError :=
  if length = size then none else some (.dimensionMismatch purpose ⟨1, size⟩ ⟨1, length⟩)

/-- The complaint about an index past the last variable. -/
def indexComplaint? (index size : Nat) : Option AlgebraError :=
  if index < size then none else some (.indexOutOfRange index size)

/-- All that does not fit the number of variables, in the order of the file's parts and within a
part in its own. -/
def complaints (file : ProblemFile) : List AlgebraError :=
  let size := file.objective.length
  (file.names.bind fun names => lengthComplaint? .variableNames names.length size).toList
    ++ (file.lowerBounds.bind fun bounds => lengthComplaint? .lowerBounds bounds.length size).toList
    ++ (file.upperBounds.bind fun bounds => lengthComplaint? .upperBounds bounds.length size).toList
    ++ file.integer.filterMap (fun j => indexComplaint? j size)
    ++ file.binary.filterMap (fun j => indexComplaint? j size)
    ++ file.constraints.filterMap fun entry =>
      lengthComplaint? .constraint entry.coefficients.length size

theorem complaintOf?_requireLength (purpose : Agreement) (length size : Nat) :
    complaintOf? (requireLength purpose length size) = lengthComplaint? purpose length size :=
  apply_ite complaintOf? _ _ _

theorem complaintOf?_requireIndex (index size : Nat) :
    complaintOf? (requireIndex index size) = indexComplaint? index size :=
  apply_ite complaintOf? _ _ _

/-- The edits that do not fit are what the file is complained about for. -/
theorem filterMap_complaint_edits (file : ProblemFile) :
    file.edits.filterMap (Edit.complaint? file.objective.length) = file.complaints := by
  have hconstraints : (file.constraints.zipIdx.filterMap fun e =>
      lengthComplaint? .constraint e.1.coefficients.length file.objective.length) =
        file.constraints.filterMap fun entry =>
          lengthComplaint? .constraint entry.coefficients.length file.objective.length := by
    conv_rhs => rw [← file.constraints.zipIdx_map_fst 0, List.filterMap_map]
    rfl
  rw [filterMap_edits, complaints]
  simp only [Edit.complaint?, Edit.require, complaintOf?_requireLength, complaintOf?_requireIndex,
    complaintOf?_ok, filled, List.length_map, SparseVector.ofDense, hconstraints,
    Option.toList_none, List.append_nil]

/-- All parts of the file fit the number of variables, which is that of the objective's entries. -/
structure Fits (file : ProblemFile) : Prop where
  names : ∀ names ∈ file.names, names.length = file.objective.length
  lowerBounds : ∀ bounds ∈ file.lowerBounds, bounds.length = file.objective.length
  upperBounds : ∀ bounds ∈ file.upperBounds, bounds.length = file.objective.length
  integer : ∀ j ∈ file.integer, j < file.objective.length
  binary : ∀ j ∈ file.binary, j < file.objective.length
  constraints : ∀ entry ∈ file.constraints, entry.coefficients.length = file.objective.length

theorem complaints_eq_nil_iff (file : ProblemFile) : file.complaints = [] ↔ file.Fits := by
  have hlength (purpose : Agreement) (length size : Nat) :
      lengthComplaint? purpose length size = none ↔ length = size := by
    simp [lengthComplaint?]
  have hindex (index size : Nat) : indexComplaint? index size = none ↔ index < size := by
    simp [indexComplaint?]
  simp only [complaints, List.append_eq_nil_iff, Option.toList_eq_nil_iff, Option.bind_eq_none_iff,
    List.filterMap_eq_nil_iff, hlength, hindex]
  constructor
  · rintro ⟨⟨⟨⟨⟨hnames, hlower⟩, hupper⟩, hinteger⟩, hbinary⟩, hconstraints⟩
    exact ⟨hnames, hlower, hupper, hinteger, hbinary, hconstraints⟩
  · rintro ⟨hnames, hlower, hupper, hinteger, hbinary, hconstraints⟩
    exact ⟨⟨⟨⟨⟨hnames, hlower⟩, hupper⟩, hinteger⟩, hbinary⟩, hconstraints⟩

theorem toProgram_eq_match (file : ProblemFile) :
    file.toProgram = match file.complaints.head? with
      | none => .ok ((LinearProgram.ofDense file.objective).revise file.edits)
      | some cause => .error cause := by
  have hparts := (Origin.dense file.objective).parts_program ▸
    (Origin.dense file.objective).inStep_parts
  rw [toProgram_eq, ← filterMap_complaint_edits]
  exact LinearProgram.foldlM_edit (Origin.dense file.objective).boundsDeclared_program hparts
    file.edits

theorem exists_toProgram_iff (file : ProblemFile) :
    (∃ lp, file.toProgram = .ok lp) ↔ file.Fits := by
  rw [toProgram_eq_match, ← complaints_eq_nil_iff]
  cases file.complaints <;> simp

theorem toProgram_eq_error_iff (file : ProblemFile) (cause : AlgebraError) :
    file.toProgram = .error cause ↔ file.complaints.head? = some cause := by
  rw [toProgram_eq_match]
  cases file.complaints <;> simp

/-- A program is what all edits of the file leave, none of which is refused. -/
theorem eq_revise_of_toProgram_eq_ok {file : ProblemFile} {lp : LinearProgram Float}
    (h : file.toProgram = .ok lp) :
    lp = (Origin.dense file.objective).program.revise file.edits ∧
      (Origin.dense file.objective).program.made file.edits = file.edits := by
  rw [toProgram_eq_match] at h
  cases hcomplaints : file.complaints with
  | cons cause rest => rw [hcomplaints] at h; cases h
  | nil =>
      rw [hcomplaints] at h
      cases h
      refine ⟨rfl, ?_⟩
      have hstart := (Origin.dense file.objective).parts_program ▸
        (Origin.dense file.objective).inStep_parts
      refine LinearProgram.made_eq_self (Origin.boundsDeclared_program _) hstart fun e he => ?_
      rw [← filterMap_complaint_edits, List.filterMap_eq_nil_iff] at hcomplaints
      exact (e.complaint?_eq_none_iff _).1 (hcomplaints e he)

/-- The bound that a list of bounds gives to variable `j`; it is missing where the list has null,
and with the list. -/
def given (missing : Float) (bounds : Option (List (Option Float))) (j : Nat) : Float :=
  (bounds.bind fun bounds => bounds[j]?).join.getD missing

/-- The program holds what the file says. -/
structure Describes (file : ProblemFile) (lp : LinearProgram Float) : Prop where
  dimension : lp.dimension = file.objective.length
  minimize : lp.minimize = file.minimize
  objective : lp.objective.toDense = file.objective
  names : lp.names =
    file.names.getD ((List.range file.objective.length).map fun j => s!"x{j}")
  bounds : ∀ j < file.objective.length, lp.bounds j =
    .ok (given Number.negInf file.lowerBounds j, given Number.posInf file.upperBounds j)
  hasBounds : lp.hasBounds = (file.lowerBounds.isSome || file.upperBounds.isSome)
  isBinary : ∀ j, lp.isBinary j = true ↔ j ∈ file.binary
  isInteger : ∀ j, lp.isInteger j = true ↔ j ∈ file.integer ∨ j ∈ file.binary
  constraints :
    lp.constraints.map (fun c => (c.name, c.coefficients.toDense, c.relation, c.rhs)) =
      file.constraints.zipIdx.map fun (entry, i) =>
        (entry.name.getD s!"c{i + 1}", entry.coefficients, entry.relation, entry.rhs)

section Views

variable (file : ProblemFile)

theorem getLast?_toList {β : Type} (x : Option β) : x.toList.getLast? = x := by
  cases x <;> rfl

theorem latest_names : latest Edit.names? file.edits = file.names := by
  rw [latest, filterMap_edits]
  simp [Edit.names?, getLast?_toList]

theorem latest_minimize : latest Edit.minimize? file.edits = some file.minimize := by
  rw [latest, filterMap_edits]
  simp [Edit.minimize?]

theorem latest_objective : latest Edit.objective? file.edits = none := by
  rw [latest, filterMap_edits]
  simp [Edit.objective?]

theorem getElem?_filled (missing : Float) (bounds : Option (List (Option Float))) (j : Nat) :
    (bounds.bind fun bounds => (filled missing bounds)[j]?).getD missing =
      given missing bounds j := by
  cases bounds with
  | none => rfl
  | some bounds =>
      simp only [given, filled, Option.bind_some, List.getElem?_map]
      cases bounds[j]? <;> rfl

theorem lastBounds_edits (j : Nat) : lastBounds j file.edits =
    (given Number.negInf file.lowerBounds j, given Number.posInf file.upperBounds j) := by
  rw [lastBounds, latest, latest, filterMap_edits, filterMap_edits]
  simp [Edit.lower?, Edit.upper?, getLast?_toList, getElem?_filled]

theorem latest_integer_iff (j : Nat) :
    latest (Edit.integer? j) file.edits = some true ↔ j ∈ file.integer := by
  have htrue : ∀ e ∈ file.edits, ∀ on ∈ e.integer? j, on = true := by
    intro e he on hon
    cases e with
    | integers flags => simp [edits] at he
    | integer k => exact (Option.some_inj.1 (Option.ite_none_right_eq_some.1 hon).2).symm
    | _ => cases hon
  rw [latest_eq_some_iff htrue]
  simp only [edits, List.mem_append, or_and_right, exists_or]
  simp [Edit.integer?]

theorem binary_mem_edits_iff (j : Nat) : .binary j ∈ file.edits ↔ j ∈ file.binary := by
  simp [edits]

theorem exists_setsBounds_iff : (∃ e ∈ file.edits, e.SetsBounds) ↔
    (file.lowerBounds.isSome || file.upperBounds.isSome) = true := by
  simp only [edits, List.mem_append, or_and_right, exists_or]
  simp [Edit.SetsBounds, Option.isSome_iff_exists]

theorem filterMap_constraint_edits : file.edits.filterMap Edit.constraint? =
    file.constraints.zipIdx.map fun (entry, i) => ⟨constraintName i entry,
      (SparseVector.ofDense entry.coefficients).orient .row, entry.relation, entry.rhs⟩ := by
  rw [filterMap_edits]
  simp [Edit.constraint?]

end Views

/-- A list made into a vector is the list again when all its places are read. -/
theorem toDense_ofDense (xs : List Float) : (Cells.ofDense xs).toDense = xs := by
  refine List.ext_getElem? fun i => ?_
  by_cases hi : i < xs.length
  · rw [Cells.getElem?_toDense _ hi, Cells.get, Cells.find?_ofDense, List.getElem?_eq_getElem hi,
      Option.getD_some]
  · rw [List.getElem?_eq_none (by rw [Cells.length_toDense]; omega),
      List.getElem?_eq_none (by omega)]

section Made

variable {file : ProblemFile} {lp : LinearProgram Float}

/-- The program has the parts that the edits write one after the other, all of which fit. -/
theorem parts_of_toProgram_eq_ok (h : file.toProgram = .ok lp) :
    lp.parts = file.edits.foldl ProgramParts.write (Origin.dense file.objective).parts ∧
      ∀ e ∈ file.edits, e.Fits file.objective.length := by
  obtain ⟨rfl, hmade⟩ := eq_revise_of_toProgram_eq_ok h
  have hparts := (Origin.dense file.objective).parts_revise_program file.edits
  rwa [hmade] at hparts

/-- A view that each edit writes or keeps shows what the last of the file's edits wrote. -/
theorem view_of_toProgram_eq_ok {β : Type} {f : ProgramParts Float → Option β}
    {write : Edit Float → Option β}
    (hstep : ∀ (p : ProgramParts Float) (e : Edit Float), p.InStep file.objective.length →
      e.Fits file.objective.length → f (p.write e) = (write e).or (f p))
    (h : file.toProgram = .ok lp) :
    f lp.parts = (latest write file.edits).or (f (Origin.dense file.objective).parts) := by
  obtain ⟨hparts, hfits⟩ := parts_of_toProgram_eq_ok h
  rw [hparts]
  exact ProgramParts.view_foldl_write hstep (Origin.dense file.objective).inStep_parts hfits

theorem mark_of_toProgram_eq_ok {P : ProgramParts Float → Prop} {Sets : Edit Float → Prop}
    (hstep : ∀ (p : ProgramParts Float) (e : Edit Float), p.InStep file.objective.length →
      e.Fits file.objective.length → (P (p.write e) ↔ Sets e ∨ P p))
    (h : file.toProgram = .ok lp) :
    P lp.parts ↔ (∃ e ∈ file.edits, Sets e) ∨ P (Origin.dense file.objective).parts := by
  obtain ⟨hparts, hfits⟩ := parts_of_toProgram_eq_ok h
  rw [hparts]
  exact ProgramParts.mark_foldl_write_iff hstep (Origin.dense file.objective).inStep_parts hfits

theorem isBinary_of_toProgram_eq_ok (h : file.toProgram = .ok lp) (j : Nat) :
    lp.isBinary j = true ↔ j ∈ file.binary := by
  have hmark := mark_of_toProgram_eq_ok (P := fun p => p.binaries[j]? = some true)
    (fun p e hp he => p.binaries_write_iff hp he j) h
  rw [lp.isBinary_eq_true_iff, hmark, or_iff_left (Origin.binaries_parts_ne _ j),
    ← binary_mem_edits_iff]
  exact exists_eq_right

theorem constraints_of_toProgram_eq_ok (h : file.toProgram = .ok lp) :
    lp.constraints.map Constraint.parts =
      file.constraints.zipIdx.map fun (entry, i) => ⟨constraintName i entry,
        (SparseVector.ofDense entry.coefficients).orient .row, entry.relation, entry.rhs⟩ := by
  obtain ⟨hparts, -⟩ := parts_of_toProgram_eq_ok h
  have hconstraints := congrArg ProgramParts.constraints hparts
  rw [ProgramParts.constraints_foldl_write, filterMap_constraint_edits] at hconstraints
  exact hconstraints

theorem describes_of_toProgram_eq_ok (h : file.toProgram = .ok lp) : file.Describes lp where
  dimension := by
    obtain ⟨rfl, -⟩ := eq_revise_of_toProgram_eq_ok h
    exact ((Origin.dense file.objective).inStep_revise_program file.edits).objective.1
  minimize := by
    have hview := view_of_toProgram_eq_ok (f := fun p => some p.minimize)
      (fun p e _ _ => p.minimize_write e) h
    rw [latest_minimize] at hview
    exact Option.some_inj.1 hview
  objective := by
    have hview := view_of_toProgram_eq_ok (f := fun p => some p.objective)
      (fun p e _ _ => p.objective_write e) h
    rw [latest_objective] at hview
    have hobjective := congrArg SparseVector.toDense (Option.some_inj.1 hview)
    exact hobjective.trans (toDense_ofDense file.objective)
  names := by
    have hview := view_of_toProgram_eq_ok (f := fun p => some p.names)
      (fun p e _ _ => p.names_write e) h
    rw [latest_names, Option.or_some] at hview
    exact Option.some_inj.1 hview
  bounds j hj := by
    obtain ⟨rfl, hmade⟩ := eq_revise_of_toProgram_eq_ok h
    rw [(Origin.dense file.objective).bounds_revise_program file.edits hj, hmade, lastBounds_edits]
  hasBounds := by
    have hmark := mark_of_toProgram_eq_ok (fun p e _ _ => p.hasBounds_write_iff e) h
    rw [exists_setsBounds_iff, or_iff_left (Origin.not_hasBounds_parts _),
      ← lp.hasBounds_eq_true_iff] at hmark
    exact Bool.eq_iff_iff.2 hmark
  isBinary := isBinary_of_toProgram_eq_ok h
  isInteger j := by
    have hview := view_of_toProgram_eq_ok (f := fun p => p.integers[j]?)
      (fun p e hp he => p.integers_write hp he j) h
    rw [lp.isInteger_eq_true_iff, isBinary_of_toProgram_eq_ok h, hview, Option.or_eq_some_iff,
      latest_integer_iff, or_comm]
    simp [Origin.integers_parts_ne]
  constraints := by
    have hread := congrArg (List.map fun c : ConstraintParts Float =>
      (c.name, c.coefficients.toDense, c.relation, c.rhs)) (constraints_of_toProgram_eq_ok h)
    rw [List.map_map, List.map_map] at hread
    refine hread.trans (List.map_congr_left fun ⟨entry, i⟩ _ => ?_)
    exact congrArg (fun xs => (entry.name.getD s!"c{i + 1}", xs, entry.relation, entry.rhs))
      (toDense_ofDense entry.coefficients)

end Made

/-- A file is made into a program exactly if all its parts fit the objective, else the first one
that does not is reported, and the program holds what the file says. -/
theorem toProgram_describes (file : ProblemFile) :
    ((∃ lp, file.toProgram = .ok lp) ↔ file.Fits) ∧
      (∀ cause, file.toProgram = .error cause ↔ file.complaints.head? = some cause) ∧
      ∀ lp, file.toProgram = .ok lp → file.Describes lp :=
  ⟨file.exists_toProgram_iff, file.toProgram_eq_error_iff, fun _ => describes_of_toProgram_eq_ok⟩

end ProblemFile

end LinearModel
