import LinearModel.Json.Numeral

/-!
# Tokens of a data file

A text is cut into tokens from its start. Where no token begins, a single `Token.junk` ends the
list, so that the list says how far the text makes sense. A string whose escapes spell half a
character is a token too, without a text: it may stand where nobody reads it.
-/

namespace LinearModel

namespace Json

inductive Token where
  | openObject
  | closeObject
  | openArray
  | closeArray
  | colon
  | comma
  | null
  | bool (b : Bool)
  | number (n : Numeral)
  /-- A string, with its text if it spells one. -/
  | string (text : Option String)
  /-- No token begins here. -/
  | junk
  deriving DecidableEq

/-- A character of a string, or one 16-bit unit of an escape. -/
inductive Piece where
  | char (c : Char)
  | unit (u : Nat)

namespace Scan

def hexDigit? (c : Char) : Option Nat :=
  if '0' ≤ c ∧ c ≤ '9' then some (c.toNat - '0'.toNat)
  else if 'a' ≤ c ∧ c ≤ 'f' then some (c.toNat - 'a'.toNat + 10)
  else if 'A' ≤ c ∧ c ≤ 'F' then some (c.toNat - 'A'.toNat + 10)
  else none

def hexUnit? (a b c d : Char) : Option Nat := do
  return 4096 * (← hexDigit? a) + 256 * (← hexDigit? b) + 16 * (← hexDigit? c) + (← hexDigit? d)

def shortEscape? : Char → Option Char
  | '"' => some '"'
  | '\\' => some '\\'
  | '/' => some '/'
  | 'b' => some '\x08'
  | 'f' => some '\x0c'
  | 'n' => some '\n'
  | 'r' => some '\r'
  | 't' => some '\t'
  | _ => none

/-- The pieces of a string behind its opening quote, and the text behind its closing quote. -/
def pieces : List Char → Option (List Piece × List Char)
  | [] => none
  | '"' :: rest => some ([], rest)
  | '\\' :: 'u' :: a :: b :: c :: d :: rest => do
    let u ← hexUnit? a b c d
    let (ps, behind) ← pieces rest
    return (.unit u :: ps, behind)
  | '\\' :: c :: rest => do
    let escaped ← shortEscape? c
    let (ps, behind) ← pieces rest
    return (.char escaped :: ps, behind)
  | c :: rest =>
    if c = '\\' ∨ c.toNat < 0x20 then none
    else do
      let (ps, behind) ← pieces rest
      return (.char c :: ps, behind)

/-- The first unit of a pair that spells one character. -/
def isLeading (u : Nat) : Bool := 0xD800 ≤ u && u < 0xDC00

def isTrailing (u : Nat) : Bool := 0xDC00 ≤ u && u < 0xE000

/-- The characters that pieces spell: units pair up, and half a pair spells nothing. -/
def characters? : List Piece → Option (List Char)
  | [] => some []
  | .char c :: rest => (characters? rest).map (c :: ·)
  | .unit u :: .unit v :: rest =>
    if isLeading u && isTrailing v then
      (characters? rest).map (Char.ofNat (0x10000 + 1024 * (u - 0xD800) + (v - 0xDC00)) :: ·)
    else if isLeading u || isTrailing u then none
    else (characters? (.unit v :: rest)).map (Char.ofNat u :: ·)
  | .unit u :: rest =>
    if isLeading u || isTrailing u then none else (characters? rest).map (Char.ofNat u :: ·)

def string? (cs : List Char) : Option (Token × List Char) :=
  (pieces cs).map fun (ps, behind) => (.string ((characters? ps).map String.ofList), behind)

def isDigit (c : Char) : Bool := '0' ≤ c && c ≤ '9'

def digits (cs : List Char) : List Char × List Char := cs.span isDigit

/-- The digits behind a point, none if there is no point. A point must be followed by a digit. -/
def fraction? : List Char → Option (List Char × List Char)
  | '.' :: rest =>
    let (ds, behind) := digits rest
    if ds.isEmpty then none else some (ds, behind)
  | cs => some ([], cs)

/-- The sign of an exponent, true for minus. -/
def exponentSign : List Char → Bool × List Char
  | '-' :: rest => (true, rest)
  | '+' :: rest => (false, rest)
  | cs => (false, cs)

/-- The exponent, if there is one; its letter must be followed by a digit. -/
def exponent? : List Char → Option (Option (Bool × List Char) × List Char)
  | c :: rest =>
    if c = 'e' ∨ c = 'E' then
      let (negative, unsigned) := exponentSign rest
      let (ds, behind) := digits unsigned
      if ds.isEmpty then none else some (some (negative, ds), behind)
    else
      some (none, c :: rest)
  | [] => some (none, [])

/-- A numeral behind its sign. Digits before the point are needed, and a zero stands alone. -/
def unsigned? (negative : Bool) (cs : List Char) : Option (Token × List Char) := do
  let (whole, rest) := digits cs
  if whole.isEmpty || (whole.length > 1 && whole.head? = some '0') then none
  let (fraction, rest) ← fraction? rest
  let (exponent, rest) ← exponent? rest
  return (.number ⟨negative, whole, fraction, exponent⟩, rest)

def token? : List Char → Option (Token × List Char)
  | '{' :: rest => some (.openObject, rest)
  | '}' :: rest => some (.closeObject, rest)
  | '[' :: rest => some (.openArray, rest)
  | ']' :: rest => some (.closeArray, rest)
  | ':' :: rest => some (.colon, rest)
  | ',' :: rest => some (.comma, rest)
  | 'n' :: 'u' :: 'l' :: 'l' :: rest => some (.null, rest)
  | 't' :: 'r' :: 'u' :: 'e' :: rest => some (.bool true, rest)
  | 'f' :: 'a' :: 'l' :: 's' :: 'e' :: rest => some (.bool false, rest)
  | '"' :: rest => string? rest
  | '-' :: rest => unsigned? true rest
  | cs => unsigned? false cs

def isBlank (c : Char) : Bool := c = ' ' || c = '\t' || c = '\n' || c = '\r'

def tokensUpTo : Nat → List Char → List Token
  | 0, _ => []
  | fuel + 1, cs =>
    match cs.dropWhile isBlank with
    | [] => []
    | c :: rest =>
      match token? (c :: rest) with
      | some (t, behind) => t :: tokensUpTo fuel behind
      | none => [.junk]

end Scan

/-- The tokens of a text. Every token takes a character, so there are no more than characters. -/
def tokens (text : String) : List Token := Scan.tokensUpTo text.length text.toList

end Json

end LinearModel
