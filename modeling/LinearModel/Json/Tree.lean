import LinearModel.Json.Token

/-!
# Trees of a data file

The tree of a text, as far as there is one. Where the text breaks off or stops making sense the
tree has a `Tree.broken` leaf, or an array or object that is not closed, and nothing behind it.
Whoever reads a tree from its start to its end therefore meets the first problem of the text where
it is, whether that is a text that makes no sense or a value that is not the one expected.
-/

namespace LinearModel

namespace Json

/-- The tree of a text up to where it stops making sense. -/
inductive Tree where
  /-- The text makes no sense from here on. -/
  | broken
  | null
  | bool (b : Bool)
  | number (n : Numeral)
  | string (text : Option String)
  | array (items : List Tree) (closed : Bool)
  | object (members : List (Option String × Tree)) (closed : Bool)
  /-- An object that begins with a value other than a string; the text makes no sense behind it. -/
  | oddObject (key : Tree)

namespace Tree

mutual

def value : Nat → List Token → Tree × List Token
  | 0, _ => (.broken, [])
  | fuel + 1, tokens =>
    match tokens with
    | .null :: rest => (.null, rest)
    | .bool b :: rest => (.bool b, rest)
    | .number n :: rest => (.number n, rest)
    | .string s :: rest => (.string s, rest)
    | .openArray :: .closeArray :: rest => (.array [] true, rest)
    | .openArray :: rest =>
      let (items, closed, behind) := items fuel rest
      (.array items closed, behind)
    | .openObject :: .closeObject :: rest => (.object [] true, rest)
    | .openObject :: .string key :: rest =>
      let (members, closed, behind) := members fuel (.string key :: rest)
      (.object members closed, behind)
    | .openObject :: .null :: _ => (.oddObject .null, [])
    | .openObject :: .bool b :: _ => (.oddObject (.bool b), [])
    | .openObject :: .number n :: _ => (.oddObject (.number n), [])
    | .openObject :: .openArray :: _ => (.oddObject (.array [] false), [])
    | .openObject :: .openObject :: _ => (.oddObject (.object [] false), [])
    | .openObject :: _ => (.object [] false, [])
    | _ => (.broken, [])

/-- The items of an array from one item on, whether the array is closed, and the tokens behind. -/
def items : Nat → List Token → List Tree × Bool × List Token
  | 0, _ => ([], false, [])
  | fuel + 1, tokens =>
    let (item, rest) := value fuel tokens
    match rest with
    | .comma :: rest =>
      let (others, closed, behind) := items fuel rest
      (item :: others, closed, behind)
    | .closeArray :: rest => ([item], true, rest)
    | _ => ([item], false, [])

def members : Nat → List Token → List (Option String × Tree) × Bool × List Token
  | 0, _ => ([], false, [])
  | fuel + 1, tokens =>
    match tokens with
    | .string key :: .colon :: rest =>
      let (member, rest) := value fuel rest
      match rest with
      | .comma :: rest =>
        let (others, closed, behind) := members fuel rest
        ((key, member) :: others, closed, behind)
      | .closeObject :: rest => ([(key, member)], true, rest)
      | _ => ([(key, member)], false, [])
    | .string key :: _ => ([(key, .broken)], false, [])
    | _ => ([], false, [])

end

mutual

/-- The text of the tree makes sense to its end. Numbers out of range and strings that spell half a
character do. -/
def isComplete : Tree → Bool
  | broken => false
  | null | bool _ | number _ | string _ => true
  | array items closed => allComplete items && closed
  | object members closed => allMembersComplete members && closed
  | oddObject _ => false

def allComplete : List Tree → Bool
  | [] => true
  | t :: rest => isComplete t && allComplete rest

def allMembersComplete : List (Option String × Tree) → Bool
  | [] => true
  | (_, t) :: rest => isComplete t && allMembersComplete rest

end

end Tree

/-- The tree of a text, and whether something other than blanks stands behind it. -/
structure Document where
  tree : Tree
  trailing : Bool

/-- Reads a text. Going one level down takes a token, so twice as many steps as there are tokens
suffice. -/
def Document.ofText (text : String) : Document :=
  let tokens := tokens text
  let (tree, rest) := Tree.value (2 * tokens.length + 1) tokens
  ⟨tree, !rest.isEmpty⟩

end Json

end LinearModel
