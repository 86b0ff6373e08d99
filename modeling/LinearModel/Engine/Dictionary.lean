/-!
# Simplex dictionaries

A dictionary writes some variables, the basic ones, and an objective as linear forms in the others.
All variables are at least zero, and setting the others to zero gives the point the dictionary
stands for. A pivot exchanges one variable of each sort. Choosing the variable with the least label
among those that could enter, and again among those that could leave, never comes back to the same
basis, so the number of bases bounds the number of pivots.
-/

namespace LinearModel

/-- A constant plus a linear form in the nonbasic variables of a dictionary. -/
structure LinearForm where
  constant : Rat
  coefficients : Array Rat
  deriving DecidableEq, Repr

namespace LinearForm

def coefficient (f : LinearForm) (c : Nat) : Rat := f.coefficients.getD c 0

def substitute (f : LinearForm) (c : Nat) (p : LinearForm) : LinearForm :=
  let k := f.coefficient c
  if k = 0 then f
  else
    let sums := f.coefficients.zipWith (fun a b => a + k * b) p.coefficients
    ⟨f.constant + k * p.constant, sums.setIfInBounds c (k * p.coefficient c)⟩

/-- From a form for one variable, the form for the variable in column `c`, the first variable
taking over that column. -/
def solveFor (f : LinearForm) (c : Nat) : LinearForm :=
  let a := f.coefficient c
  ⟨-f.constant / a, (f.coefficients.map fun b => -b / a).setIfInBounds c (1 / a)⟩

def dropColumn (f : LinearForm) (c : Nat) : LinearForm :=
  ⟨f.constant, f.coefficients.eraseIdxIfInBounds c⟩

end LinearForm

/-- Basic variables by label with their forms, nonbasic variables by label, and an objective that
is to rise. -/
structure Dictionary where
  nonbasic : Array Nat
  basic : Array Nat
  rows : Array LinearForm
  objective : LinearForm
  deriving DecidableEq, Repr

inductive Ascent where
  | optimal (d : Dictionary)
  | unbounded
  | exhausted

namespace Dictionary

def pivot (d : Dictionary) (r c : Nat) : Dictionary :=
  let form := (d.rows.getD r ⟨0, #[]⟩).solveFor c
  { nonbasic := d.nonbasic.setIfInBounds c (d.basic.getD r 0)
    basic := d.basic.setIfInBounds r (d.nonbasic.getD c 0)
    rows := (d.rows.map fun f => f.substitute c form).setIfInBounds r form
    objective := d.objective.substitute c form }

def least {β : Type} (before : β → β → Bool) (xs : List β) : Option β :=
  xs.foldl (fun best x =>
    match best with
    | none => some x
    | some y => if before x y then some x else some y) none

/-- The column of least label whose variable raises the objective. -/
def entering (d : Dictionary) : Option Nat :=
  let columns := (List.range d.nonbasic.size).filter fun c => 0 < d.objective.coefficient c
  least (fun c c' => d.nonbasic.getD c 0 < d.nonbasic.getD c' 0) columns

/-- The row that limits the variable of column `c` most, of several the one of least label. -/
def leaving (d : Dictionary) (c : Nat) : Option Nat :=
  let candidates := (List.range d.rows.size).filterMap fun r =>
    let f := d.rows.getD r ⟨0, #[]⟩
    let a := f.coefficient c
    if a < 0 then some (r, f.constant / -a) else none
  (least (fun (r, limit) (r', limit') =>
    limit < limit' || (limit = limit' && d.basic.getD r 0 < d.basic.getD r' 0)) candidates).map
      Prod.fst

def ascend : Nat → Dictionary → Ascent
  | 0, _ => .exhausted
  | fuel + 1, d =>
    match d.entering with
    | none => .optimal d
    | some c =>
      match d.leaving c with
      | none => .unbounded
      | some r => ascend fuel (d.pivot r c)

/-- As many pivots as there are bases suffice. -/
def pivotLimit (d : Dictionary) : Nat := Nat.pow 2 (d.nonbasic.size + d.basic.size)

def value (d : Dictionary) (label : Nat) : Rat :=
  match d.basic.idxOf? label with
  | some r => (d.rows.getD r ⟨0, #[]⟩).constant
  | none => 0

def isFeasible (d : Dictionary) : Bool := d.rows.all fun f => 0 ≤ f.constant

/-- The objective `coefficients` over the variables labelled from zero on, in terms of the
nonbasic variables. -/
def express (d : Dictionary) (coefficients : Array Rat) : LinearForm :=
  let start : LinearForm := ⟨0, Array.replicate d.nonbasic.size 0⟩
  (List.range coefficients.size).foldl (fun f label =>
    let k := coefficients.getD label 0
    match d.basic.idxOf? label with
    | some r =>
      let row := d.rows.getD r ⟨0, #[]⟩
      ⟨f.constant + k * row.constant,
        f.coefficients.zipWith (fun a b => a + k * b) row.coefficients⟩
    | none =>
      match d.nonbasic.idxOf? label with
      | some c => ⟨f.constant, f.coefficients.modify c (· + k)⟩
      | none => f) start

/-- The dictionary with one more variable, labelled `label`, that lifts every row, and whose
negation is the objective. -/
def lifted (d : Dictionary) (label : Nat) : Dictionary :=
  { nonbasic := d.nonbasic.push label
    basic := d.basic
    rows := d.rows.map fun f => ⟨f.constant, f.coefficients.push 1⟩
    objective := ⟨0, (Array.replicate d.nonbasic.size 0).push (-1)⟩ }

def lowestRow (d : Dictionary) : Option Nat :=
  least (fun r r' => (d.rows.getD r ⟨0, #[]⟩).constant < (d.rows.getD r' ⟨0, #[]⟩).constant)
    (List.range d.rows.size)

/-- Takes the lifting variable out again once it is zero. -/
def lowered (d : Dictionary) (label : Nat) : Dictionary :=
  let d :=
    match d.basic.idxOf? label with
    | none => d
    | some r =>
      let f := d.rows.getD r ⟨0, #[]⟩
      match (List.range d.nonbasic.size).find? fun c => f.coefficient c ≠ 0 with
      | some c => d.pivot r c
      | none => d
  match d.nonbasic.idxOf? label with
  | some c =>
    { nonbasic := d.nonbasic.eraseIdxIfInBounds c
      basic := d.basic
      rows := d.rows.map fun f => f.dropColumn c
      objective := d.objective.dropColumn c }
  | none => d

inductive Start where
  | feasible (d : Dictionary)
  | infeasible
  | exhausted

/-- A feasible dictionary for the same rows, found by lifting all of them and letting the lift
fall as far as it goes. -/
def start (d : Dictionary) : Start :=
  if d.isFeasible then .feasible d
  else
    let label := d.nonbasic.size + d.basic.size
    let lift := d.lifted label
    match lift.lowestRow with
    | none => .feasible d
    | some r =>
      let first := lift.pivot r d.nonbasic.size
      match first.ascend first.pivotLimit with
      | .optimal last =>
        if last.objective.constant < 0 then .infeasible else .feasible (last.lowered label)
      | .unbounded | .exhausted => .exhausted

end Dictionary

end LinearModel
