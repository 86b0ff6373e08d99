import LinearModel.Bound
import LinearModel.CoordinateList

/-!
# Backends

A backend is what a program is described to: something that is told directions, columns and rows
one `Statement` at a time, takes the matrix in one piece, and then solves what it was told. Rows
and columns are counted from one; a statement about a row or column that does not exist is heard
and changes nothing. Only loading a matrix and solving can fail.

How many rows and columns there are is a 64-bit word, and adding to it is addition of words: a sum
that passes the last word starts again at zero (`grownLength`), and rows or columns past it are
dropped. How much memory there is for them is outside the model.
-/

namespace LinearModel

/-- One thing a backend is told about the problem. -/
inductive Statement (α : Type) where
  | reset
  | direction (direction : Direction)
  | timeLimit (milliseconds : Nat)
  | messageOutput (on : Bool)
  | addColumns (count : Nat)
  | addRows (count : Nat)
  | columnName (col : Nat) (name : String)
  | rowName (row : Nat) (name : String)
  | columnBound (col : Nat) (bound : Bound α)
  | rowBound (row : Nat) (bound : Bound α)
  | columnKind (col : Nat) (kind : VariableKind)
  | objective (col : Nat) (coefficient : α)
  deriving DecidableEq, Repr

/-- Something a problem can be described to and that can be asked to solve it. -/
class Backend (B : Type) (α : outParam Type) where
  tell : B → Statement α → B
  /-- Takes in the whole matrix, or refuses it. -/
  load : B → CoordinateList α → Except (SolveError α) Unit × B
  /-- Solves what was described, with integer columns held to integers if `integral`. -/
  solve : B → (integral : Bool) → Except (SolveError α) SolveStatus × B
  /-- The value of a column in the last solve that gave one. -/
  primal : B → Nat → α
  /-- The objective in the last solve that gave one. -/
  objectiveValue : B → α

namespace Backend

variable {B α : Type} [Backend B α]

def tellAll (b : B) (statements : List (Statement α)) : B := statements.foldl tell b

@[simp] theorem tellAll_nil (b : B) : tellAll b ([] : List (Statement α)) = b := rfl

@[simp] theorem tellAll_cons (b : B) (s : Statement α) (rest : List (Statement α)) :
    tellAll b (s :: rest) = tellAll (tell b s) rest := rfl

theorem tellAll_append (b : B) (ss ts : List (Statement α)) :
    tellAll b (ss ++ ts) = tellAll (tellAll b ss) ts := by
  simp [tellAll]

end Backend

/-- A backend of either of two sorts. -/
instance {B C α : Type} [Backend B α] [Backend C α] : Backend (B ⊕ C) α where
  tell backend s := backend.map (Backend.tell · s) (Backend.tell · s)
  load backend m :=
    match backend with
    | .inl b => (Backend.load b m).map id .inl
    | .inr c => (Backend.load c m).map id .inr
  solve backend integral :=
    match backend with
    | .inl b => (Backend.solve b integral).map id .inl
    | .inr c => (Backend.solve c integral).map id .inr
  primal backend col := backend.elim (Backend.primal · col) (Backend.primal · col)
  objectiveValue backend := backend.elim Backend.objectiveValue Backend.objectiveValue

structure Column (α : Type) where
  name : String
  objective : α
  bound : Bound α
  kind : VariableKind
  deriving DecidableEq, Repr

structure Row (α : Type) where
  name : String
  bound : Bound α
  deriving DecidableEq, Repr

/-- How many 64-bit words there are. -/
def wordCount : Nat := 18446744073709551616

/-- How long a list becomes when `count` members are added. The sum is one of words; a count that is
no word is never asked for, and is added as it is. -/
def grownLength (length count : Nat) : Nat :=
  if count < wordCount then (length + count) % wordCount else length + count

/-- Drops the members from `n` on, or fills up with blanks to `n` members. -/
def resize {β : Type} (xs : List β) (n : Nat) (blank : β) : List β :=
  xs.take n ++ List.replicate (n - xs.length) blank

/-- Replaces the member with number `i`, counted from one; other numbers change nothing. -/
def setNumbered {β : Type} (xs : List β) (i : Nat) (x : β) : List β :=
  match i with
  | 0 => xs
  | i + 1 => xs.set i x

def modifyNumbered {β : Type} (xs : List β) (i : Nat) (f : β → β) : List β :=
  match i with
  | 0 => xs
  | i + 1 => xs.modify i f

def getNumbered? {β : Type} (xs : List β) (i : Nat) : Option β :=
  match i with
  | 0 => none
  | i + 1 => xs[i]?

@[simp] theorem grownLength_zero (count : Nat) : grownLength 0 count = count := by
  rw [grownLength, Nat.zero_add]
  split
  · next hword => exact Nat.mod_eq_of_lt hword
  · rfl

theorem grownLength_eq_add {length count : Nat} (h : length + count < wordCount) :
    grownLength length count = length + count := by
  have hword : count < wordCount := Nat.lt_of_le_of_lt (Nat.le_add_left count length) h
  rw [grownLength, if_pos hword, Nat.mod_eq_of_lt h]

@[simp] theorem length_resize {β : Type} (xs : List β) (n : Nat) (blank : β) :
    (resize xs n blank).length = n := by
  rw [resize, List.length_append, List.length_take, List.length_replicate]
  omega

theorem map_resize {β γ : Type} (f : β → γ) (xs : List β) (n : Nat) (blank : β) :
    (resize xs n blank).map f = resize (xs.map f) n (f blank) := by
  simp [resize]

@[simp] theorem resize_nil {β : Type} (n : Nat) (blank : β) :
    resize [] n blank = List.replicate n blank := by
  simp [resize]

@[simp] theorem length_setNumbered {β : Type} (xs : List β) (i : Nat) (x : β) :
    (setNumbered xs i x).length = xs.length := by
  cases i <;> simp [setNumbered]

@[simp] theorem length_modifyNumbered {β : Type} (xs : List β) (i : Nat) (f : β → β) :
    (modifyNumbered xs i f).length = xs.length := by
  cases i <;> simp [modifyNumbered]

end LinearModel
