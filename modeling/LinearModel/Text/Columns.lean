/-!
# Text in columns

Padding to a least width, counted in characters: words are set to the left and numbers to the right.
-/

namespace LinearModel

namespace Text

/-- Blanks for what a text lacks to a width. -/
def blanks (width : Nat) (s : String) : String :=
  String.ofList (List.replicate (width - s.length) ' ')

def left (width : Nat) (s : String) : String := s ++ blanks width s

def right (width : Nat) (s : String) : String := blanks width s ++ s

def lines (ls : List String) : String := String.join (ls.map (· ++ "\n"))

end Text

end LinearModel
