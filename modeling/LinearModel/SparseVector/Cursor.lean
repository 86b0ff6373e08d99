import LinearModel.SparseVector

/-!
# Walking the stored cells

A cursor stands at a position of a vector's storage. `Cursor.next` hands out the cell there with
its coordinates and moves on; at the end it hands out nothing and stays, so that it never passes
the end and `Cursor.remaining` counts what is left without going below zero.
-/

namespace LinearModel

/-- A position in the storage of a vector. -/
structure Cursor (α : Type) where
  vector : SparseVector α
  position : Nat

def SparseVector.entryOf {α : Type} (v : SparseVector α) (cell : Nat × α) : Entry α :=
  match v.orientation with
  | .row => ⟨0, cell.1, cell.2⟩
  | .column => ⟨cell.1, 0, cell.2⟩

def SparseVector.nonZeros {α : Type} (v : SparseVector α) : List (Entry α) :=
  v.cells.entries.map v.entryOf

def SparseVector.cursor {α : Type} (v : SparseVector α) : Cursor α := ⟨v, 0⟩

namespace Cursor

variable {α : Type}

/-- The cell at the cursor, and the cursor behind it. -/
def next (c : Cursor α) : Option (Entry α) × Cursor α :=
  match c.vector.cells.entries[c.position]? with
  | some cell => (some (c.vector.entryOf cell), { c with position := c.position + 1 })
  | none => (none, c)

def remaining (c : Cursor α) : Nat := c.vector.occupied - c.position

/-- How many cells are still to come, at least and at most. -/
def sizeHint (c : Cursor α) : Nat × Option Nat := (c.remaining, some c.remaining)

/-- What `m` steps hand out, and where they leave the cursor. -/
def steps : Nat → Cursor α → List (Option (Entry α)) × Cursor α
  | 0, c => ([], c)
  | m + 1, c =>
    let (entry, after) := c.next
    let (entries, last) := steps m after
    (entry :: entries, last)

@[simp] theorem steps_zero (c : Cursor α) : steps 0 c = ([], c) := rfl

theorem steps_succ (m : Nat) (c : Cursor α) :
    steps (m + 1) c = (c.next.1 :: (steps m c.next.2).1, (steps m c.next.2).2) := rfl

end Cursor

end LinearModel
