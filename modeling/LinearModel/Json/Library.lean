import LinearModel.Json.ReadError
import LinearModel.Json.Value

/-!
# Data libraries

The words that a program uses about data files are not its own: they come from the library that
reads and writes them. A `Library` says why a text cannot be read, naming the place as it likes, and
gives the text of a value, or says why there is none.
-/

namespace LinearModel

namespace Json

structure Library where
  /-- Why this text cannot be read, in words. -/
  explain : String → ReadError → String
  write : Value → Except String String

namespace Library

/-- The library has a text for every value. -/
def Writes (library : Library) : Prop := ∀ v, ∃ text, library.write v = .ok text

/-- Words that leave out the place and, where the text makes no sense, what is wrong with it. -/
def brief : Library where
  explain _ cause :=
    match cause with
    | .malformed => "malformed text"
    | .mismatch cause => cause.message
  write v := .ok v.pretty

theorem brief_writes : brief.Writes := fun v => ⟨v.pretty, rfl⟩

end Library

end Json

end LinearModel
