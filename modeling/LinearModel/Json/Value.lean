import LinearModel.Decimal.Layout

/-!
# Writing data files

A `Value` is what is to be written, `Value.compact` writes it without blanks and `Value.pretty`
with one item or member a line, indented by two blanks a level. A number that is not finite has no
spelling and is written as null.
-/

namespace LinearModel

namespace Json

inductive Value where
  | null
  | bool (b : Bool)
  | integer (n : Nat)
  | float (x : Float)
  | string (s : String)
  | array (items : List Value)
  | object (members : List (String × Value))

namespace Value

def hexDigit (n : Nat) : Char := if n < 10 then Char.ofNat (n + '0'.toNat) else
  Char.ofNat (n - 10 + 'a'.toNat)

/-- A character as it stands in a string: quotes, backslashes and control characters are escaped,
all others stand for themselves. -/
def escaped (c : Char) : List Char :=
  if c = '"' then ['\\', '"']
  else if c = '\\' then ['\\', '\\']
  else if c = '\x08' then ['\\', 'b']
  else if c = '\x0c' then ['\\', 'f']
  else if c = '\n' then ['\\', 'n']
  else if c = '\r' then ['\\', 'r']
  else if c = '\t' then ['\\', 't']
  else if c.toNat < 0x20 then
    ['\\', 'u', '0', '0', hexDigit (c.toNat / 16), hexDigit (c.toNat % 16)]
  else [c]

def quoted (s : String) : String :=
  String.ofList ('"' :: s.toList.flatMap escaped ++ ['"'])

def number (x : Float) : String := Decimal.Layout.data.write x

mutual

/-- The value without blanks. -/
def compact : Value → String
  | null => "null"
  | bool b => toString b
  | integer n => toString n
  | float x => number x
  | string s => quoted s
  | array items => "[" ++ ",".intercalate (compactItems items) ++ "]"
  | object members => "\x7b" ++ ",".intercalate (compactMembers members) ++ "\x7d"

def compactItems : List Value → List String
  | [] => []
  | v :: rest => compact v :: compactItems rest

def compactMembers : List (String × Value) → List String
  | [] => []
  | (name, v) :: rest => (quoted name ++ ":" ++ compact v) :: compactMembers rest

end

def lineBreak (level : Nat) : String := "\n" ++ String.ofList (List.replicate (2 * level) ' ')

/-- Parts between brackets, one a line; no parts leave no line. -/
def block (level : Nat) (opening closing : String) (parts : List String) : String :=
  if parts.isEmpty then opening ++ closing
  else
    opening ++ lineBreak (level + 1) ++ ("," ++ lineBreak (level + 1)).intercalate parts
      ++ lineBreak level ++ closing

mutual

def indented (level : Nat) : Value → String
  | array items => block level "[" "]" (indentedItems (level + 1) items)
  | object members => block level "\x7b" "\x7d" (indentedMembers (level + 1) members)
  | null => "null"
  | bool b => toString b
  | integer n => toString n
  | float x => number x
  | string s => quoted s

def indentedItems (level : Nat) : List Value → List String
  | [] => []
  | v :: rest => indented level v :: indentedItems level rest

def indentedMembers (level : Nat) : List (String × Value) → List String
  | [] => []
  | (name, v) :: rest => (quoted name ++ ": " ++ indented level v) :: indentedMembers level rest

end

def pretty (v : Value) : String := indented 0 v

end Value

end Json

end LinearModel
