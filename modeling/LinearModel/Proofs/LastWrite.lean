import Mathlib
import LinearModel.Proofs.InStep

/-!
# The last write decides

What a history of edits leaves is what the edits that were made wrote, one after the other
(`LinearProgram.parts_revise_eq_foldl`). A bound or a kind of a variable is a view of the parts that
some edits write and all others keep, so after a history it is what the last edit that wrote it
says, or what it was at the start if none did (`ProgramParts.view_foldl_write`). Bounds that come up
as a whole list with their first member are no exception, and neither are the two lists of flags,
each of which is kept by the edits of the other. Being binary and having bounds are never taken
back, and constraints are not written over: each one that fits is added behind the others.
-/

namespace LinearModel

variable {α : Type}

namespace Edit

/-- The lower bound that the edit gives to variable `j`. -/
def lower? (j : Nat) : Edit α → Option α
  | .lowerBounds xs => xs[j]?
  | .lowerBound k x => if k = j then some x else none
  | _ => none

def upper? (j : Nat) : Edit α → Option α
  | .upperBounds xs => xs[j]?
  | .upperBound k x => if k = j then some x else none
  | _ => none

/-- What the edit declares about variable `j` being an integer. -/
def integer? (j : Nat) : Edit α → Option Bool
  | .integers flags => flags[j]?
  | .integer k => if k = j then some true else none
  | _ => none

def SetsBounds : Edit α → Prop
  | .lowerBounds _ | .upperBounds _ | .lowerBound _ _ | .upperBound _ _ => True
  | _ => False

/-- The constraint that the edit adds. -/
def constraint? : Edit α → Option (ConstraintParts α)
  | .constraint name coefficients relation rhs =>
    some ⟨name, coefficients.orient .row, relation, rhs⟩
  | _ => none

end Edit

/-- What the last of the edits that write anything writes. -/
def latest {β : Type} (write : Edit α → Option β) (edits : List (Edit α)) : Option β :=
  (edits.filterMap write).getLast?

theorem latest_cons {β : Type} (write : Edit α → Option β) (e : Edit α) (edits : List (Edit α)) :
    latest write (e :: edits) = (latest write edits).or (write e) := by
  unfold latest
  cases hwrite : write e with
  | none => rw [List.filterMap_cons_none hwrite, Option.or_none]
  | some x =>
      rw [List.filterMap_cons_some hwrite, ← List.singleton_append, List.getLast?_append]
      rfl

/-- The edits of a history that are made; the others are refused where they stand. -/
def LinearProgram.made (lp : LinearProgram α) : List (Edit α) → List (Edit α)
  | [] => []
  | e :: rest =>
    match lp.edit e with
    | .ok next => e :: next.made rest
    | .error _ => lp.made rest

namespace ProgramParts

section Lists

variable {β : Type} {xs ys : List β}

/-- A list written over another of the same length leaves nothing of it. -/
theorem getElem?_or_of_length_eq (h : xs.length = ys.length) (j : Nat) :
    xs[j]?.or ys[j]? = xs[j]? := by
  by_cases hj : j < xs.length
  · rw [List.getElem?_eq_getElem hj, Option.some_or]
  · rw [List.getElem?_eq_none (by omega), List.getElem?_eq_none (by omega), Option.or_none]

/-- A member written over another leaves the rest of the list. -/
theorem getElem?_set_eq_or {k : Nat} (hk : k < ys.length) (x : β) (j : Nat) :
    (ys.set k x)[j]? = (if k = j then some x else none).or ys[j]? := by
  by_cases hj : k = j
  · subst hj
    simp [hk]
  · rw [List.getElem?_set_ne hj, if_neg hj, Option.none_or]

end Lists

variable [Number α]

/-- The lower bound of variable `j`, which is infinite before any was declared. -/
def lowerAt (p : ProgramParts α) (j : Nat) : Option α :=
  (p.lowerBounds.getD (List.replicate p.dimension Number.negInf))[j]?

def upperAt (p : ProgramParts α) (j : Nat) : Option α :=
  (p.upperBounds.getD (List.replicate p.dimension Number.posInf))[j]?

def HasBounds (p : ProgramParts α) : Prop := p.lowerBounds.isSome ∨ p.upperBounds.isSome

section Write

variable {p : ProgramParts α} {d : Nat} {e : Edit α}

theorem dimension_write (h : p.InStep d) (he : e.Fits d) : (p.write e).dimension = p.dimension :=
  (h.write he).objective.1.trans h.objective.1.symm

theorem lowerAt_write (h : p.InStep d) (he : e.Fits d) (j : Nat) :
    (p.write e).lowerAt j = (e.lower? j).or (p.lowerAt j) := by
  have hlength : (p.lowerBounds.getD (List.replicate p.dimension Number.negInf)).length = d := by
    rw [show p.dimension = d from h.objective.1, length_getD_replicate h.lowerBounds]
  rw [lowerAt, dimension_write h he]
  cases e with
  | lowerBounds xs =>
      have hxs : xs.length = d := he
      exact (getElem?_or_of_length_eq (hxs.trans hlength.symm) j).symm
  | lowerBound k x =>
      have hk : k < d := he
      exact getElem?_set_eq_or (hlength.symm ▸ hk) x j
  | _ => rfl

theorem upperAt_write (h : p.InStep d) (he : e.Fits d) (j : Nat) :
    (p.write e).upperAt j = (e.upper? j).or (p.upperAt j) := by
  have hlength : (p.upperBounds.getD (List.replicate p.dimension Number.posInf)).length = d := by
    rw [show p.dimension = d from h.objective.1, length_getD_replicate h.upperBounds]
  rw [upperAt, dimension_write h he]
  cases e with
  | upperBounds xs =>
      have hxs : xs.length = d := he
      exact (getElem?_or_of_length_eq (hxs.trans hlength.symm) j).symm
  | upperBound k x =>
      have hk : k < d := he
      exact getElem?_set_eq_or (hlength.symm ▸ hk) x j
  | _ => rfl

theorem integers_write (h : p.InStep d) (he : e.Fits d) (j : Nat) :
    (p.write e).integers[j]? = (e.integer? j).or p.integers[j]? := by
  cases e with
  | integers flags =>
      have hflags : flags.length = d := he
      exact (getElem?_or_of_length_eq (hflags.trans h.integers.symm) j).symm
  | integer k =>
      have hk : k < d := he
      exact getElem?_set_eq_or (h.integers.symm ▸ hk) true j
  | _ => rfl

theorem binaries_write_iff (h : p.InStep d) (he : e.Fits d) (j : Nat) :
    (p.write e).binaries[j]? = some true ↔ e = .binary j ∨ p.binaries[j]? = some true := by
  cases e with
  | binary k =>
      have hk : k < d := he
      have hset : (p.write (.binary k)).binaries[j]? = _ :=
        getElem?_set_eq_or (h.binaries.symm ▸ hk) true j
      rw [hset]
      by_cases hj : k = j <;> simp [hj]
  | _ => exact (or_iff_right (by simp)).symm

theorem hasBounds_write_iff (p : ProgramParts α) (e : Edit α) :
    (p.write e).HasBounds ↔ e.SetsBounds ∨ p.HasBounds := by
  cases e with
  | lowerBounds xs => exact iff_of_true (.inl rfl) (.inl trivial)
  | upperBounds xs => exact iff_of_true (.inr rfl) (.inl trivial)
  | lowerBound j x => exact iff_of_true (.inl rfl) (.inl trivial)
  | upperBound j x => exact iff_of_true (.inr rfl) (.inl trivial)
  | _ => exact (or_iff_right id).symm

theorem constraints_write (p : ProgramParts α) (e : Edit α) :
    (p.write e).constraints = p.constraints ++ e.constraint?.toList := by
  cases e with
  | constraint name v relation rhs => rfl
  | _ => exact (List.append_nil _).symm

end Write

section Run

variable {p : ProgramParts α} {d : Nat} {edits : List (Edit α)}

/-- A view that each edit writes or keeps shows what the last edit that wrote it wrote. -/
theorem view_foldl_write {β : Type} {f : ProgramParts α → Option β} {write : Edit α → Option β}
    (hstep : ∀ (p : ProgramParts α) (e : Edit α), p.InStep d → e.Fits d →
      f (p.write e) = (write e).or (f p))
    (h : p.InStep d) (hedits : ∀ e ∈ edits, e.Fits d) :
    f (edits.foldl ProgramParts.write p) = (latest write edits).or (f p) := by
  induction edits generalizing p with
  | nil => rfl
  | cons e edits ih =>
      have he : e.Fits d := hedits e List.mem_cons_self
      rw [List.foldl_cons, ih (h.write he) fun g hg => hedits g (List.mem_cons_of_mem e hg),
        hstep p e h he, latest_cons, Option.or_assoc]

/-- What each edit brings about or keeps is there once some edit brought it about. -/
theorem mark_foldl_write_iff {P : ProgramParts α → Prop} {Sets : Edit α → Prop}
    (hstep : ∀ (p : ProgramParts α) (e : Edit α), p.InStep d → e.Fits d →
      (P (p.write e) ↔ Sets e ∨ P p))
    (h : p.InStep d) (hedits : ∀ e ∈ edits, e.Fits d) :
    P (edits.foldl ProgramParts.write p) ↔ (∃ e ∈ edits, Sets e) ∨ P p := by
  induction edits generalizing p with
  | nil => simp
  | cons e edits ih =>
      have he : e.Fits d := hedits e List.mem_cons_self
      rw [List.foldl_cons, ih (h.write he) fun f hf => hedits f (List.mem_cons_of_mem e hf),
        hstep p e h he, List.exists_mem_cons_iff, ← or_assoc, or_comm (a := ∃ f ∈ edits, Sets f)]

theorem constraints_foldl_write (p : ProgramParts α) (edits : List (Edit α)) :
    (edits.foldl ProgramParts.write p).constraints =
      p.constraints ++ edits.filterMap Edit.constraint? := by
  induction edits generalizing p with
  | nil => exact (List.append_nil _).symm
  | cons e edits ih =>
      rw [List.foldl_cons, ih, constraints_write, List.append_assoc]
      cases hc : e.constraint? <;> simp [hc]

end Run

end ProgramParts

namespace LinearProgram

variable [Number α] {lp : LinearProgram α} {d : Nat}

omit [Number α] in
theorem made_cons_of_ok {lp' : LinearProgram α} {e : Edit α} (h : lp.edit e = .ok lp')
    (rest : List (Edit α)) : lp.made (e :: rest) = e :: lp'.made rest := by
  rw [made, h]

omit [Number α] in
theorem made_cons_of_error {cause : AlgebraError} {e : Edit α} (h : lp.edit e = .error cause)
    (rest : List (Edit α)) : lp.made (e :: rest) = lp.made rest := by
  rw [made, h]

/-- The edits that are made are those that fit. What they write, one after the other, is what the
history leaves. -/
theorem parts_revise_eq_foldl (h : lp.BoundsDeclared) (hp : lp.parts.InStep d)
    (edits : List (Edit α)) :
    (lp.revise edits).parts = (lp.made edits).foldl ProgramParts.write lp.parts ∧
      ∀ e ∈ lp.made edits, e.Fits d := by
  induction edits generalizing lp with
  | nil => exact ⟨rfl, nofun⟩
  | cons e rest ih =>
      have hdimension : lp.dimension = d := hp.objective.1
      have hrevise : lp.revise (e :: rest) = ((lp.edit e).toOption.getD lp).revise rest := rfl
      by_cases he : e.Fits d
      · obtain ⟨lp', hedit, hdeclared, hparts⟩ := exists_edit_eq_ok h (hdimension ▸ he)
        obtain ⟨hrest, hfits⟩ := ih hdeclared (hparts ▸ hp.write he)
        rw [made_cons_of_ok hedit, hrevise, hedit]
        exact ⟨hrest.trans (by rw [hparts]; rfl), List.forall_mem_cons.2 ⟨he, hfits⟩⟩
      · obtain ⟨cause, hedit, -⟩ := lp.edit_eq_error (hdimension ▸ he)
        rw [made_cons_of_error hedit, hrevise, hedit]
        exact ih h hp

section Kinds

omit [Number α]

theorem isBinary_eq_true_iff (lp : LinearProgram α) (j : Nat) :
    lp.isBinary j = true ↔ lp.parts.binaries[j]? = some true := by
  simp [isBinary, parts, Option.getD_eq_iff]

theorem isInteger_eq_true_iff (lp : LinearProgram α) (j : Nat) :
    lp.isInteger j = true ↔ lp.isBinary j = true ∨ lp.parts.integers[j]? = some true := by
  rw [isInteger, Bool.or_eq_true, or_comm]
  simp [parts, Option.getD_eq_iff]

theorem isMixedInteger_eq_true_iff (lp : LinearProgram α) :
    lp.isMixedInteger = true ↔ ∃ j < lp.dimension, lp.isInteger j = true := by
  have hkind (j : Nat) (hj : j < lp.dimension) :
      lp.isInteger j = (lp.unknowns[j].integer || lp.unknowns[j].binary) := by
    simp [isInteger, isBinary, hj]
  rw [isMixedInteger, List.any_eq_true]
  constructor
  · rintro ⟨v, hv, hinteger⟩
    obtain ⟨j, hj, rfl⟩ := List.getElem_of_mem hv
    have hlt : j < lp.dimension := by simpa using hj
    exact ⟨j, hlt, by simpa [hkind j hlt] using hinteger⟩
  · rintro ⟨j, hj, hinteger⟩
    exact ⟨lp.unknowns[j], by simp, by rwa [← hkind j hj]⟩

theorem hasBounds_eq_true_iff (lp : LinearProgram α) :
    lp.hasBounds = true ↔ lp.parts.HasBounds := by
  simp [hasBounds, ProgramParts.HasBounds, parts, lowerBounds?, upperBounds?]

end Kinds

end LinearProgram

/-- The bounds of variable `j` by the last edits that set them, infinite where none did. -/
def lastBounds [Number α] (j : Nat) (edits : List (Edit α)) : α × α :=
  ((latest (Edit.lower? j) edits).getD Number.negInf,
    (latest (Edit.upper? j) edits).getD Number.posInf)

namespace Origin

section Start

variable (origin : Origin α)

theorem lowerAt_parts [Number α] {j : Nat} (hj : j < origin.size) :
    origin.parts.lowerAt j = some Number.negInf :=
  List.getElem?_replicate_of_lt (hj.trans_eq origin.inStep_parts.objective.1.symm)

theorem upperAt_parts [Number α] {j : Nat} (hj : j < origin.size) :
    origin.parts.upperAt j = some Number.posInf :=
  List.getElem?_replicate_of_lt (hj.trans_eq origin.inStep_parts.objective.1.symm)

theorem integers_parts_ne (j : Nat) : origin.parts.integers[j]? ≠ some true := by
  simp [parts, ProgramParts.ofObjective, List.getElem?_replicate]

theorem binaries_parts_ne (j : Nat) : origin.parts.binaries[j]? ≠ some true := by
  simp [parts, ProgramParts.ofObjective, List.getElem?_replicate]

theorem not_hasBounds_parts : ¬ origin.parts.HasBounds := by
  simp [parts, ProgramParts.ofObjective, ProgramParts.HasBounds]

end Start

variable [Number α] (origin : Origin α) (edits : List (Edit α))

/-- What a history leaves are the parts that the edits that are made write. -/
theorem parts_revise_program :
    (origin.program.revise edits).parts =
        (origin.program.made edits).foldl ProgramParts.write origin.parts ∧
      ∀ e ∈ origin.program.made edits, e.Fits origin.size := by
  have hparts := LinearProgram.parts_revise_eq_foldl origin.boundsDeclared_program
    (origin.parts_program.symm ▸ origin.inStep_parts) edits
  rwa [parts_program] at hparts

theorem inStep_revise_program : (origin.program.revise edits).parts.InStep origin.size := by
  rw [(LinearProgram.parts_revise origin.boundsDeclared_program edits).1, parts_program]
  exact origin.inStep_parts.revise edits

theorem bounds_revise_program {j : Nat} (hj : j < origin.size) :
    (origin.program.revise edits).bounds j =
      .ok (lastBounds j (origin.program.made edits)) := by
  obtain ⟨hparts, hfits⟩ := origin.parts_revise_program edits
  have hdimension : (origin.program.revise edits).parts.dimension = origin.size :=
    (origin.inStep_revise_program edits).objective.1
  have hlower : (origin.program.revise edits).parts.lowerAt j =
      some (lastBounds j (origin.program.made edits)).1 := by
    rw [hparts, ProgramParts.view_foldl_write (f := fun p => p.lowerAt j)
      (fun p e hp he => p.lowerAt_write hp he j) origin.inStep_parts hfits,
      origin.lowerAt_parts hj, Option.or_some]
    rfl
  have hupper : (origin.program.revise edits).parts.upperAt j =
      some (lastBounds j (origin.program.made edits)).2 := by
    rw [hparts, ProgramParts.view_foldl_write (f := fun p => p.upperAt j)
      (fun p e hp he => p.upperAt_write hp he j) origin.inStep_parts hfits,
      origin.upperAt_parts hj, Option.or_some]
    rfl
  have hbounds : (origin.program.revise edits).parts.bounds j =
      .ok (some (lastBounds j (origin.program.made edits))) := by
    rw [ProgramParts.bounds_of_lt (hdimension ▸ hj)]
    show Except.ok ((origin.program.revise edits).parts.lowerAt j >>= fun lower =>
      (origin.program.revise edits).parts.upperAt j >>= fun upper => some (lower, upper)) = _
    rw [hlower, hupper]
    rfl
  have hdeclared := (LinearProgram.parts_revise origin.boundsDeclared_program edits).2
  rw [LinearProgram.bounds_parts hdeclared] at hbounds
  cases hanswer : (origin.program.revise edits).bounds j with
  | error cause => rw [hanswer] at hbounds; cases hbounds
  | ok b => rw [hanswer] at hbounds; cases hbounds; rfl

/-- Of the edits of a history that are made, the last one to set a bound or to declare a variable an
integer or not decides; binary variables stay so and count as integers, and constraints stand in
the order in which they were added. -/
theorem last_write_decides :
    (∀ j < origin.size, (origin.program.revise edits).bounds j =
      .ok (lastBounds j (origin.program.made edits))) ∧
    (∀ j, (origin.program.revise edits).isBinary j = true ↔
      .binary j ∈ origin.program.made edits) ∧
    (∀ j, (origin.program.revise edits).isInteger j = true ↔
      (origin.program.revise edits).isBinary j = true ∨
        latest (Edit.integer? j) (origin.program.made edits) = some true) ∧
    ((origin.program.revise edits).isMixedInteger = true ↔
      ∃ j < origin.size, (origin.program.revise edits).isInteger j = true) ∧
    ((origin.program.revise edits).hasBounds = true ↔
      ∃ e ∈ origin.program.made edits, e.SetsBounds) ∧
    (origin.program.revise edits).constraints.map Constraint.parts =
      (origin.program.made edits).filterMap Edit.constraint? := by
  obtain ⟨hparts, hfits⟩ := origin.parts_revise_program edits
  refine ⟨fun j hj => origin.bounds_revise_program edits hj, fun j => ?_, fun j => ?_, ?_, ?_, ?_⟩
  · rw [LinearProgram.isBinary_eq_true_iff, hparts,
      ProgramParts.mark_foldl_write_iff (P := fun p => p.binaries[j]? = some true)
        (fun p e hp he => p.binaries_write_iff hp he j) origin.inStep_parts hfits]
    simp [origin.binaries_parts_ne j]
  · rw [LinearProgram.isInteger_eq_true_iff, hparts,
      ProgramParts.view_foldl_write (f := fun p => p.integers[j]?)
        (fun p e hp he => p.integers_write hp he j) origin.inStep_parts hfits]
    simp [Option.or_eq_some_iff, origin.integers_parts_ne j]
  · rw [LinearProgram.isMixedInteger_eq_true_iff,
      show (origin.program.revise edits).dimension = origin.size from
        (origin.inStep_revise_program edits).objective.1]
  · rw [LinearProgram.hasBounds_eq_true_iff, hparts,
      ProgramParts.mark_foldl_write_iff (fun p e _ _ => p.hasBounds_write_iff e)
        origin.inStep_parts hfits]
    simp [origin.not_hasBounds_parts]
  · show (origin.program.revise edits).parts.constraints = _
    rw [hparts, ProgramParts.constraints_foldl_write]
    rfl

end Origin

end LinearModel
