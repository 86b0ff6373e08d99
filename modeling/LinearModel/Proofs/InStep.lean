import Mathlib
import LinearModel.Program.Parts
import LinearModel.Proofs.Evaluation
import LinearModel.Proofs.Mirror

/-!
# The parts of a program stay in step

An edit fits a program when the list or vector that it brings has the dimension for its length, or
the index that it names lies below it (`Edit.Fits`). The parts of a program are in step when all
of them have the dimension (`ProgramParts.InStep`). Each write of what fits preserves this, and so
does a run of edits, since an edit that does not fit writes nothing.

The typed program and its parts answer every edit alike. This rests on what the types do not say:
bounds that were never declared are infinite (`LinearProgram.BoundsDeclared`), so that a list of
bounds that comes up with its first member agrees with those that the variables always had.
-/

namespace LinearModel

variable {α : Type}

/-- What the edit brings fits a program with `d` variables: lists and vectors have that length,
indices are below it. -/
def Edit.Fits (d : Nat) : Edit α → Prop
  | .names xs => xs.length = d
  | .lowerBounds xs | .upperBounds xs => xs.length = d
  | .integers xs => xs.length = d
  | .lowerBound j _ | .upperBound j _ | .integer j | .binary j => j < d
  | .objective v | .constraint _ v _ _ => v.size = d
  | .minimize _ => True

theorem requireLength_eq_ok_iff {purpose : Agreement} {length size : Nat} :
    requireLength purpose length size = .ok () ↔ length = size := by
  unfold requireLength
  split <;> simp_all

theorem Edit.require_eq_ok_iff (e : Edit α) (d : Nat) : e.require d = .ok () ↔ e.Fits d := by
  cases e <;> simp [Edit.require, Edit.Fits, requireLength_eq_ok_iff, requireIndex_eq_ok_iff]

namespace ProgramParts

/-- All parts have the size `d`, and the vectors are rows. -/
structure InStep (p : ProgramParts α) (d : Nat) : Prop where
  objective : p.objective.size = d ∧ p.objective.orientation = .row
  names : p.names.length = d
  lowerBounds : ∀ bounds ∈ p.lowerBounds, bounds.length = d
  upperBounds : ∀ bounds ∈ p.upperBounds, bounds.length = d
  integers : p.integers.length = d
  binaries : p.binaries.length = d
  constraints : ∀ c ∈ p.constraints, c.coefficients.size = d ∧ c.coefficients.orientation = .row

theorem inStep_ofObjective (v : SparseVector α) : (ofObjective v).InStep v.size where
  objective := ⟨rfl, rfl⟩
  names := by simp [ofObjective]
  lowerBounds := by simp [ofObjective]
  upperBounds := by simp [ofObjective]
  integers := by simp [ofObjective]
  binaries := by simp [ofObjective]
  constraints := by simp [ofObjective]

/-- The bounds that a single one is written to are a whole list, declared or not. -/
theorem length_getD_replicate {d : Nat} {bounds : Option (List α)}
    (h : ∀ xs ∈ bounds, xs.length = d) (x : α) :
    (bounds.getD (List.replicate d x)).length = d := by
  cases bounds with
  | none => exact List.length_replicate
  | some xs => exact h xs rfl

/-- Bounds that were not declared read as a whole list of infinite ones. -/
theorem elim_getElem? {j d : Nat} (hj : j < d) (bounds : Option (List α)) (x : α) :
    (bounds.elim (some x) fun xs => xs[j]?) = (bounds.getD (List.replicate d x))[j]? := by
  cases bounds with
  | none => exact (List.getElem?_replicate_of_lt hj).symm
  | some xs => rfl

theorem bounds_of_lt [Number α] {p : ProgramParts α} {j : Nat} (hj : j < p.dimension) :
    p.bounds j = .ok (do
      let lower ← (p.lowerBounds.getD (List.replicate p.dimension Number.negInf))[j]?
      let upper ← (p.upperBounds.getD (List.replicate p.dimension Number.posInf))[j]?
      return (lower, upper)) := by
  rw [bounds, requireIndex_eq_ok_iff.2 hj, elim_getElem? hj, elim_getElem? hj]
  rfl

namespace InStep

variable [Number α] {p : ProgramParts α} {d : Nat}

/-- A write of what fits keeps the parts in step. -/
theorem write (h : p.InStep d) {e : Edit α} (he : e.Fits d) : (p.write e).InStep d := by
  have hdimension : p.dimension = d := h.objective.1
  cases e with
  | names xs => exact { h with names := he }
  | objective v => exact { h with objective := ⟨he, rfl⟩ }
  | minimize on => exact { h with }
  | lowerBounds xs => exact { h with lowerBounds := by rintro _ ⟨⟩; exact he }
  | upperBounds xs => exact { h with upperBounds := by rintro _ ⟨⟩; exact he }
  | lowerBound j x =>
      exact { h with
        lowerBounds := by
          rintro _ ⟨⟩
          rw [List.length_set, hdimension, length_getD_replicate h.lowerBounds] }
  | upperBound j x =>
      exact { h with
        upperBounds := by
          rintro _ ⟨⟩
          rw [List.length_set, hdimension, length_getD_replicate h.upperBounds] }
  | integer j => exact { h with integers := (List.length_set ..).trans h.integers }
  | integers xs => exact { h with integers := he }
  | binary j => exact { h with binaries := (List.length_set ..).trans h.binaries }
  | constraint name v relation rhs =>
      exact { h with
        constraints := by
          intro c hc
          rcases List.mem_append.1 hc with hc | hc
          · exact h.constraints c hc
          · cases List.mem_singleton.1 hc
            exact ⟨he, rfl⟩ }

theorem edit (h : p.InStep d) (e : Edit α) : (p.edit e).2.InStep d := by
  rw [ProgramParts.edit]
  cases hrequire : e.require p.dimension with
  | error cause => exact h
  | ok _ => exact h.write (h.objective.1 ▸ (e.require_eq_ok_iff _).1 hrequire)

theorem revise (h : p.InStep d) (edits : List (Edit α)) : (p.revise edits).InStep d := by
  induction edits generalizing p with
  | nil => exact h
  | cons e edits ih => exact ih (h.edit e)

end InStep

end ProgramParts

namespace LinearProgram

section Edits

variable (lp : LinearProgram α)

/-- A change of every variable by its member of a list leaves the attributes that it does not set,
and makes the list of those that it sets. -/
theorem exists_editEach_eq_ok {β : Type} (purpose : Agreement) {xs : List β}
    (hx : xs.length = lp.dimension) (f : Variable α → β → Variable α) :
    ∃ us : Vector (Variable α) lp.dimension,
      lp.editEach purpose xs f = .ok { lp with unknowns := us } ∧
      (∀ {γ : Type} (g : Variable α → γ), (∀ v x, g (f v x) = g v) →
        us.toList.map g = lp.unknowns.toList.map g) ∧
      ∀ g : Variable α → β, (∀ v x, g (f v x) = x) → us.toList.map g = xs := by
  refine ⟨_, dif_pos hx, fun g hg => ?_, fun g hg => ?_⟩
  · apply List.ext_getElem <;> simp [hg]
  · apply List.ext_getElem <;> simp [hg, hx]

/-- The same of a change of one variable. -/
theorem exists_editAt_eq_ok {j : Nat} (hj : j < lp.dimension) (f : Variable α → Variable α) :
    ∃ us : Vector (Variable α) lp.dimension,
      lp.editAt j f = .ok { lp with unknowns := us } ∧
      (∀ {γ : Type} (g : Variable α → γ), (∀ v, g (f v) = g v) →
        us.toList.map g = lp.unknowns.toList.map g) ∧
      ∀ {γ : Type} (g : Variable α → γ) (x : γ), (∀ v, g (f v) = x) →
        us.toList.map g = (lp.unknowns.toList.map g).set j x := by
  have hmodify : (lp.unknowns.set j (f lp.unknowns[j])).toList = lp.unknowns.toList.modify j f := by
    rw [Vector.toList_set, List.modify_eq_set_getElem?]
    simp [hj]
  refine ⟨_, dif_pos hj, fun g hg => ?_, fun g x hg => ?_⟩
  · rw [hmodify]
    exact (attribute_keep rfl (j + 1) hg).symm
  · rw [hmodify]
    exact (attribute_set rfl (j + 1) hg).symm

/-- An edit that does not fit is refused, for the reason for which the parts refuse it. -/
theorem edit_eq_error {e : Edit α} (he : ¬ e.Fits lp.dimension) :
    ∃ cause, lp.edit e = .error cause ∧ e.require lp.dimension = .error cause := by
  cases e with
  | names xs => exact ⟨_, dif_neg he, if_neg he⟩
  | objective v => exact ⟨_, dif_neg he, if_neg he⟩
  | minimize on => exact absurd trivial he
  | lowerBounds xs => exact ⟨_, congrArg (· >>= _) (dif_neg he), if_neg he⟩
  | upperBounds xs => exact ⟨_, congrArg (· >>= _) (dif_neg he), if_neg he⟩
  | lowerBound j x => exact ⟨_, congrArg (· >>= _) (dif_neg he), if_neg he⟩
  | upperBound j x => exact ⟨_, congrArg (· >>= _) (dif_neg he), if_neg he⟩
  | integer j => exact ⟨_, dif_neg he, if_neg he⟩
  | integers xs => exact ⟨_, dif_neg he, if_neg he⟩
  | binary j => exact ⟨_, dif_neg he, if_neg he⟩
  | constraint name v relation rhs => exact ⟨_, dif_neg he, if_neg he⟩

end Edits

variable [Number α]

/-- Bounds that were never declared are infinite. -/
structure BoundsDeclared (lp : LinearProgram α) : Prop where
  lower : lp.lowerDeclared = false →
    lp.unknowns.toList.map Variable.lower = List.replicate lp.dimension Number.negInf
  upper : lp.upperDeclared = false →
    lp.unknowns.toList.map Variable.upper = List.replicate lp.dimension Number.posInf

theorem boundsDeclared_ofObjective (v : SparseVector α) : (ofObjective v).BoundsDeclared where
  lower _ := by
    apply List.ext_getElem <;> simp [ofObjective]
  upper _ := by
    apply List.ext_getElem <;> simp [ofObjective]

theorem parts_ofObjective (v : SparseVector α) : (ofObjective v).parts = .ofObjective v := by
  have hattribute : ∀ {γ : Type} (g : Variable α → γ),
      (ofObjective v).unknowns.toList.map g =
        (List.range v.size).map fun j => g ⟨s!"x{j}", Number.negInf, Number.posInf, false, false⟩ :=
    fun g => by
      apply List.ext_getElem
      · simp [ofObjective]
      · intro j hj hj'
        simp only [ofObjective, Vector.toList_ofFn, List.getElem_map, List.getElem_ofFn,
          List.getElem_range]
        rfl
  simp only [parts, names, hattribute, ProgramParts.ofObjective]
  simp [ofObjective, objectiveRow, SparseVector.orient, lowerBounds?, upperBounds?]

variable {lp : LinearProgram α}

namespace BoundsDeclared

theorem getD_lowerBounds (h : lp.BoundsDeclared) :
    lp.lowerBounds?.getD (List.replicate lp.dimension Number.negInf) =
      lp.unknowns.toList.map Variable.lower := by
  unfold lowerBounds?
  cases hdeclared : lp.lowerDeclared with
  | false => exact (h.lower hdeclared).symm
  | true => rfl

theorem getD_upperBounds (h : lp.BoundsDeclared) :
    lp.upperBounds?.getD (List.replicate lp.dimension Number.posInf) =
      lp.unknowns.toList.map Variable.upper := by
  unfold upperBounds?
  cases hdeclared : lp.upperDeclared with
  | false => exact (h.upper hdeclared).symm
  | true => rfl

end BoundsDeclared

/-- An edit that fits is made, and changes the parts by a write. -/
theorem exists_edit_eq_ok (h : lp.BoundsDeclared) {e : Edit α} (he : e.Fits lp.dimension) :
    ∃ lp', lp.edit e = .ok lp' ∧ lp'.BoundsDeclared ∧ lp'.parts = lp.parts.write e := by
  cases e with
  | names xs =>
      obtain ⟨us, hedit, hkeep, hset⟩ :=
        lp.exists_editEach_eq_ok .variableNames he fun v name => { v with name }
      refine ⟨_, hedit, ⟨by simpa [hkeep] using h.lower, by simpa [hkeep] using h.upper⟩, ?_⟩
      simp [parts, names, lowerBounds?, upperBounds?, objectiveRow, ProgramParts.write, hkeep, hset]
  | objective v =>
      refine ⟨_, dif_pos he, ⟨h.lower, h.upper⟩, ?_⟩
      obtain ⟨n, orientation, cells⟩ := v
      cases he
      rfl
  | minimize on => exact ⟨_, rfl, ⟨h.lower, h.upper⟩, rfl⟩
  | lowerBounds xs =>
      obtain ⟨us, hedit, hkeep, hset⟩ :=
        lp.exists_editEach_eq_ok .lowerBounds he fun v lower => { v with lower }
      refine ⟨_, congrArg (· >>= _) hedit, ⟨nofun, by simpa [hkeep] using h.upper⟩, ?_⟩
      simp [parts, names, lowerBounds?, upperBounds?, objectiveRow, ProgramParts.write, hkeep, hset]
  | upperBounds xs =>
      obtain ⟨us, hedit, hkeep, hset⟩ :=
        lp.exists_editEach_eq_ok .upperBounds he fun v upper => { v with upper }
      refine ⟨_, congrArg (· >>= _) hedit, ⟨by simpa [hkeep] using h.lower, nofun⟩, ?_⟩
      simp [parts, names, lowerBounds?, upperBounds?, objectiveRow, ProgramParts.write, hkeep, hset]
  | lowerBound j x =>
      obtain ⟨us, hedit, hkeep, hset⟩ :=
        lp.exists_editAt_eq_ok he fun v => { v with lower := x }
      refine ⟨_, congrArg (· >>= _) hedit, ⟨nofun, by simpa [hkeep] using h.upper⟩, ?_⟩
      simp only [ProgramParts.write, ProgramParts.dimension, parts, objectiveRow,
        h.getD_lowerBounds]
      simp [names, lowerBounds?, upperBounds?, hkeep, hset Variable.lower x]
  | upperBound j x =>
      obtain ⟨us, hedit, hkeep, hset⟩ :=
        lp.exists_editAt_eq_ok he fun v => { v with upper := x }
      refine ⟨_, congrArg (· >>= _) hedit, ⟨by simpa [hkeep] using h.lower, nofun⟩, ?_⟩
      simp only [ProgramParts.write, ProgramParts.dimension, parts, objectiveRow,
        h.getD_upperBounds]
      simp [names, lowerBounds?, upperBounds?, hkeep, hset Variable.upper x]
  | integer j =>
      obtain ⟨us, hedit, hkeep, hset⟩ :=
        lp.exists_editAt_eq_ok he fun v => { v with integer := true }
      refine ⟨_, hedit, ⟨by simpa [hkeep] using h.lower, by simpa [hkeep] using h.upper⟩, ?_⟩
      simp [parts, names, lowerBounds?, upperBounds?, objectiveRow, ProgramParts.write, hkeep,
        hset Variable.integer true]
  | integers xs =>
      obtain ⟨us, hedit, hkeep, hset⟩ :=
        lp.exists_editEach_eq_ok .integerFlags he fun v integer => { v with integer }
      refine ⟨_, hedit, ⟨by simpa [hkeep] using h.lower, by simpa [hkeep] using h.upper⟩, ?_⟩
      simp [parts, names, lowerBounds?, upperBounds?, objectiveRow, ProgramParts.write, hkeep, hset]
  | binary j =>
      obtain ⟨us, hedit, hkeep, hset⟩ :=
        lp.exists_editAt_eq_ok he fun v => { v with binary := true }
      refine ⟨_, hedit, ⟨by simpa [hkeep] using h.lower, by simpa [hkeep] using h.upper⟩, ?_⟩
      simp [parts, names, lowerBounds?, upperBounds?, objectiveRow, ProgramParts.write, hkeep,
        hset Variable.binary true]
  | constraint name v relation rhs =>
      refine ⟨_, dif_pos he, ⟨h.lower, h.upper⟩, ?_⟩
      obtain ⟨n, orientation, cells⟩ := v
      cases he
      simp [parts, names, lowerBounds?, upperBounds?, objectiveRow, ProgramParts.write,
        Constraint.parts, Constraint.row, SparseVector.orient]
      rfl

/-- The program and its parts answer an edit alike and are left alike by it. -/
theorem edit_parts (h : lp.BoundsDeclared) (e : Edit α) :
    lp.parts.edit e = ((lp.edit e).map fun _ => (), (lp.revise [e]).parts) ∧
      (lp.revise [e]).BoundsDeclared := by
  by_cases he : e.Fits lp.dimension
  · obtain ⟨lp', hedit, hdeclared, hparts⟩ := exists_edit_eq_ok h he
    have hrevise : lp.revise [e] = lp' := by simp [revise, hedit, Except.toOption]
    have hrequire : e.require lp.parts.dimension = .ok () := (e.require_eq_ok_iff _).2 he
    rw [ProgramParts.edit, hrequire, hrevise, hedit, hparts]
    exact ⟨rfl, hdeclared⟩
  · obtain ⟨cause, hedit, hcause⟩ := lp.edit_eq_error he
    have hrevise : lp.revise [e] = lp := by simp [revise, hedit, Except.toOption]
    have hrequire : e.require lp.parts.dimension = .error cause := hcause
    rw [ProgramParts.edit, hrequire, hrevise, hedit]
    exact ⟨rfl, h⟩

/-- The run of edits on the program is the run of edits on its parts. -/
theorem parts_revise (h : lp.BoundsDeclared) (edits : List (Edit α)) :
    (lp.revise edits).parts = lp.parts.revise edits ∧ (lp.revise edits).BoundsDeclared := by
  induction edits generalizing lp with
  | nil => exact ⟨rfl, h⟩
  | cons e edits ih =>
      obtain ⟨hedit, hdeclared⟩ := edit_parts h e
      have hfirst : lp.parts.revise (e :: edits) = (lp.parts.edit e).2.revise edits := rfl
      rw [hfirst, hedit]
      exact ih hdeclared

/-- A variable has the bounds that the parts declare for it. -/
theorem bounds_parts (h : lp.BoundsDeclared) (j : Nat) :
    lp.parts.bounds j = (lp.bounds j).map some := by
  have hdimension : lp.parts.dimension = lp.dimension := rfl
  by_cases hj : j < lp.dimension
  · have hlower : lp.parts.lowerBounds.getD (List.replicate lp.dimension Number.negInf) =
      lp.unknowns.toList.map Variable.lower := h.getD_lowerBounds
    have hupper : lp.parts.upperBounds.getD (List.replicate lp.dimension Number.posInf) =
      lp.unknowns.toList.map Variable.upper := h.getD_upperBounds
    rw [ProgramParts.bounds_of_lt (hdimension ▸ hj), hdimension, hlower, hupper]
    simp [bounds, hj, Except.map]
  · rw [ProgramParts.bounds, hdimension, requireIndex, if_neg hj]
    simp [bounds, hj, Except.map, bind, Except.bind]

theorem bounds_eq_ok_iff (j : Nat) : (∃ b, lp.bounds j = .ok b) ↔ j < lp.dimension := by
  by_cases hj : j < lp.dimension <;> simp [bounds, hj]

/-- A program of dimension `d` whose parts are `p` stays so through every edit, and answers every
question that fits. -/
structure Steady (lp : LinearProgram α) (p : ProgramParts α) (d : Nat) : Prop where
  dimension : lp.dimension = d
  parts : lp.parts = p
  inStep : p.InStep d
  /-- An edit that fits is made, and writes to the parts. -/
  made : ∀ e : Edit α, e.Fits d → p.edit e = (.ok (), p.write e) ∧
    ∃ lp', lp.edit e = .ok lp' ∧ lp'.dimension = d ∧ lp'.parts = p.write e
  /-- An edit that does not fit is refused, and leaves everything as it is. -/
  refused : ∀ e : Edit α, ¬ e.Fits d →
    ∃ cause, p.edit e = (.error cause, p) ∧ lp.edit e = .error cause ∧ lp.revise [e] = lp
  bounds_parts : ∀ j, p.bounds j = (lp.bounds j).map some
  bounds_eq_ok_iff : ∀ j, (∃ b, lp.bounds j = .ok b) ↔ j < d
  /-- No stored place lies outside a point. -/
  indices_lt : ∀ v ∈ p.objective :: p.constraints.map ConstraintParts.coefficients,
    ∀ j ∈ v.indices, j < d
  evaluate : ∀ x : List α, x.length = d → lp.evaluate x = .ok (lp.objective.sumAt x)
  lhs : ∀ c ∈ lp.constraints, ∀ x : List α, x.length = d → c.lhs x = .ok (c.coefficients.sumAt x)
  isFeasible : ∀ x : List α, x.length = d → ∃ answer, lp.isFeasible x = .ok answer

theorem BoundsDeclared.steady (h : lp.BoundsDeclared) (hparts : lp.parts.InStep lp.dimension) :
    lp.Steady lp.parts lp.dimension where
  dimension := rfl
  parts := rfl
  inStep := hparts
  made e he := by
    obtain ⟨lp', hedit, -, hwritten⟩ := exists_edit_eq_ok h he
    refine ⟨?_, lp', hedit, ?_, hwritten⟩
    · rw [ProgramParts.edit, (e.require_eq_ok_iff lp.parts.dimension).2 he]
    · have hdimension : lp'.parts.dimension = lp.dimension := by
        rw [hwritten]
        exact (hparts.write he).objective.1
      exact hdimension
  refused e he := by
    obtain ⟨cause, hedit, hcause⟩ := lp.edit_eq_error he
    have hrequire : e.require lp.parts.dimension = .error cause := hcause
    refine ⟨cause, ?_, hedit, ?_⟩
    · rw [ProgramParts.edit, hrequire]
    · simp [revise, hedit, Except.toOption]
  bounds_parts := LinearProgram.bounds_parts h
  bounds_eq_ok_iff := lp.bounds_eq_ok_iff
  indices_lt := by
    have hlt : ∀ v : SparseVector α, v.size = lp.dimension → ∀ j ∈ v.indices, j < lp.dimension :=
      fun v hv j hj => hv ▸ v.cells.lt_of_mem_indices hj
    intro v hv
    rcases List.mem_cons.1 hv with rfl | hv
    · exact hlt _ hparts.objective.1
    · obtain ⟨c, hc, rfl⟩ := List.mem_map.1 hv
      exact hlt _ (hparts.constraints c hc).1
  evaluate _ hx := lp.evaluate_of_length hx
  lhs c _ _ hx := c.lhs_of_length hx
  isFeasible _ hx := ⟨_, lp.isFeasible_of_length hx⟩

end LinearProgram

namespace Origin

variable (origin : Origin α)

theorem size_vector : origin.vector.size = origin.size := by
  cases origin <;> rfl

variable [Number α]

theorem program_eq : origin.program = .ofObjective origin.vector := by
  cases origin <;> rfl

theorem parts_program : origin.program.parts = origin.parts := by
  rw [program_eq, LinearProgram.parts_ofObjective]
  rfl

theorem boundsDeclared_program : origin.program.BoundsDeclared := by
  rw [program_eq]
  exact LinearProgram.boundsDeclared_ofObjective _

omit [Number α] in
theorem inStep_parts : origin.parts.InStep origin.size := by
  rw [← size_vector]
  exact ProgramParts.inStep_ofObjective origin.vector

/-- Whatever is done to a program, its parts stay in step with the dimension that it was made
with. -/
theorem steady_revise (edits : List (Edit α)) :
    (origin.program.revise edits).Steady (origin.parts.revise edits) origin.size := by
  have hinStep : (origin.parts.revise edits).InStep origin.size := origin.inStep_parts.revise edits
  obtain ⟨hparts, hbounds⟩ := LinearProgram.parts_revise origin.boundsDeclared_program edits
  rw [parts_program] at hparts
  have hdimension : (origin.program.revise edits).dimension = origin.size := by
    have hsize := hinStep.objective.1
    rw [← hparts] at hsize
    exact hsize
  rw [← hparts, ← hdimension] at hinStep ⊢
  exact hbounds.steady hinStep

end Origin

end LinearModel
