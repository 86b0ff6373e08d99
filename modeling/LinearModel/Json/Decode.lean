import LinearModel.Json.ReadError
import LinearModel.Json.Tree

/-!
# Reading values off a tree

A decoder reads a tree from its start to its end and stops at the first problem. Records come as
objects with members in any order or as arrays with the members in their declared order;
`Record.members` checks every member as it comes, and what the record holds is then looked up by
name (`Record.required`, `Record.optional`), so that the order of members cannot matter to it.
-/

namespace LinearModel

namespace Json

abbrev Result (β : Type) := Except ReadError β

def Tree.mismatch (expected : String) : Tree → ReadError
  | .broken => .malformed
  | .null => .mismatch (.invalidType .null expected)
  | .bool b => .mismatch (.invalidType (.bool b) expected)
  | .number n =>
    match n.value? with
    | some (.unsigned k) => .mismatch (.invalidType (.integer k) expected)
    | some (.negative k) => .mismatch (.invalidType (.integer (-k)) expected)
    | some (.float x) => .mismatch (.invalidType (.float x) expected)
    | none => .malformed
  | .string (some s) => .mismatch (.invalidType (.string s) expected)
  | .string none => .malformed
  | .array _ _ => .mismatch (.invalidType .sequence expected)
  | .object _ _ | .oddObject _ => .mismatch (.invalidType .map expected)

namespace Decode

/-- A floating point number; integers are rounded to the nearest. -/
def float (t : Tree) : Result Float :=
  match t with
  | .number n =>
    match n.value? with
    | some (.unsigned k) => .ok (Numeral.ofNat k)
    | some (.negative k) => .ok (-Numeral.ofNat k)
    | some (.float x) => .ok x
    | none => .error .malformed
  | _ => .error (t.mismatch "f64")

def index (t : Tree) : Result Nat :=
  match t with
  | .number n =>
    match n.value? with
    | some (.unsigned k) => .ok k
    | some (.negative k) => .error (.mismatch (.invalidValue (.integer (-k)) "usize"))
    | _ => .error (t.mismatch "usize")
  | _ => .error (t.mismatch "usize")

def bool (t : Tree) : Result Bool :=
  match t with
  | .bool b => .ok b
  | _ => .error (t.mismatch "a boolean")

def string (t : Tree) : Result String :=
  match t with
  | .string (some s) => .ok s
  | _ => .error (t.mismatch "a string")

def optional {β : Type} (decode : Tree → Result β) : Tree → Result (Option β)
  | .null => .ok none
  | t => (decode t).map some

def each {β : Type} (decode : Tree → Result β) : List Tree → Result (List β)
  | [] => .ok []
  | t :: rest => do
    let x ← decode t
    return x :: (← each decode rest)

def list {β : Type} (decode : Tree → Result β) (t : Tree) : Result (List β) :=
  match t with
  | .array items closed => do
    let xs ← each decode items
    if closed then return xs else .error .malformed
  | _ => .error (t.mismatch "a sequence")

/-- One of several names, either alone or as the only member of an object, with the value null. -/
def choice {β : Type} (names : List String) (named : String → Option β) (t : Tree) : Result β :=
  match t with
  | .string (some s) => ofName s
  | .object ((some key, value) :: others) closed => do
    let x ← ofName key
    match value with
    | .null => if others.isEmpty && closed then return x else .error .malformed
    | _ => .error (value.mismatch "unit")
  | .oddObject key => .error (key.mismatch "variant identifier")
  | _ => .error .malformed
where
  ofName (s : String) : Result β :=
    match named s with
    | some x => .ok x
    | none => .error (.mismatch (.unknownVariant s names))

end Decode

structure Record where
  name : String
  /-- The names of its members in order, and whether each must be there. -/
  fields : List (String × Bool)
  /-- Members of other names are refused; otherwise they are passed over. -/
  strict : Bool
  /-- The problem with the value of a member, if it has one. -/
  check : String → Tree → Result Unit

namespace Record

abbrev Members := List (String × Tree)

def names (r : Record) : List String := r.fields.map Prod.fst

/-- Checks the members of an object as they come, behind those of `before`. -/
def ofMembers (r : Record) (before : Members) :
    List (Option String × Tree) → Result Members
  | [] => .ok before
  | (none, _) :: _ => .error .malformed
  | (some key, value) :: rest =>
    if r.names.contains key then
      if (before.map Prod.fst).contains key then
        .error (.mismatch (.duplicateField key))
      else do
        r.check key value
        r.ofMembers (before ++ [(key, value)]) rest
    else if r.strict then
      .error (.mismatch (.unknownField key r.names))
    else if value.isComplete then
      r.ofMembers before rest
    else
      .error .malformed

def firstMissing (r : Record) (members : Members) : Option String :=
  (r.fields.find? fun (name, required) => required && !(members.map Prod.fst).contains name).map
    Prod.fst

/-- Checks the items of an array in order, each as the member it stands for. -/
def ofItems (r : Record) : List String → List Tree → Result Members
  | name :: names, item :: items => do
    r.check name item
    return (name, item) :: (← r.ofItems names items)
  | _, _ => .ok []

def expectation (r : Record) : String := s!"{r.name} with {r.fields.length} elements"

def firstRequired (r : Record) (start : Nat) : Option Nat :=
  ((r.fields.drop start).findIdx? Prod.snd).map (start + ·)

def members (r : Record) (t : Tree) : Result Members :=
  match t with
  | .object members closed => do
    let found ← r.ofMembers [] members
    if !closed then .error .malformed
    else
      match r.firstMissing found with
      | some name => .error (.mismatch (.missingField name))
      | none => return found
  | .oddObject _ => .error .malformed
  | .array items closed => do
    let found ← r.ofItems r.names items
    if !closed || r.fields.length < items.length then .error .malformed
    else
      match r.firstRequired items.length with
      | some i => .error (.mismatch (.invalidLength i r.expectation))
      | none => return found
  | _ => .error (t.mismatch r.name)

def required {β : Type} (members : Members) (name : String) (decode : Tree → Result β) : Result β :=
  match members.lookup name with
  | some t => decode t
  | none => .error (.mismatch (.missingField name))

/-- The value of a member, or the one it has when it is left out. -/
def optional {β : Type} (members : Members) (name : String) (decode : Tree → Result β)
    (absent : β) : Result β :=
  match members.lookup name with
  | some t => decode t
  | none => .ok absent

def problem {β : Type} (decode : Tree → Result β) (t : Tree) : Result Unit := do
  let _ ← decode t

end Record

def readText {β : Type} (decode : Tree → Result β) (text : String) : Result β := do
  let document := Document.ofText text
  let x ← decode document.tree
  if document.trailing then .error .malformed else return x

end Json

end LinearModel
