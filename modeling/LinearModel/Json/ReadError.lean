import LinearModel.Decimal.Layout
import LinearModel.Text.Quoted

/-!
# Why a data file cannot be read

Either the text makes no sense, or a value is not what was expected where it stands. The second
sort of cause has a wording, `Mismatch.message`.
-/

namespace LinearModel

namespace Json

inductive Found where
  | integer (n : Int)
  | float (x : Float)
  | bool (b : Bool)
  | string (s : String)
  | null
  | sequence
  | map

def Found.text : Found → String
  | integer n => s!"integer `{n}`"
  | float x => s!"floating point `{Decimal.Layout.data.write x}`"
  | bool b => s!"boolean `{b}`"
  | string s => s!"string {Text.quoted s}"
  | null => "null"
  | sequence => "sequence"
  | map => "map"

/-- A value that makes sense but is not the one expected. -/
inductive Mismatch where
  | missingField (name : String)
  | duplicateField (name : String)
  | unknownField (name : String) (expected : List String)
  | unknownVariant (name : String) (expected : List String)
  | invalidType (found : Found) (expected : String)
  | invalidValue (found : Found) (expected : String)
  | invalidLength (length : Nat) (expected : String)

def choices (names : List String) : String :=
  match names.map fun name => "`" ++ name ++ "`" with
  | [a, b] => s!"expected {a} or {b}"
  | names => "expected one of " ++ ", ".intercalate names

def Mismatch.message : Mismatch → String
  | missingField name => s!"missing field `{name}`"
  | duplicateField name => s!"duplicate field `{name}`"
  | unknownField name expected => s!"unknown field `{name}`, {choices expected}"
  | unknownVariant name expected => s!"unknown variant `{name}`, {choices expected}"
  | invalidType found expected => s!"invalid type: {found.text}, expected {expected}"
  | invalidValue found expected => s!"invalid value: {found.text}, expected {expected}"
  | invalidLength length expected => s!"invalid length {length}, expected {expected}"

inductive ReadError where
  /-- The text makes no sense. -/
  | malformed
  | mismatch (cause : Mismatch)

end Json

end LinearModel
