import AgentLoop.Number.Binary

/-!
# TOML values

A TOML document is a table: a list of entries in the order of the document, with different keys.
Integers have 64 bits with a sign, other numbers are 64-bit binary numbers, and a date or time is
kept as it was written.
-/

namespace AgentLoop

/-- A TOML value. -/
inductive Toml where
  | text (value : String)
  | integer (value : Int)
  | float (value : Binary)
  | bool (value : Bool)
  | dateTime (text : String)
  | array (items : List Toml)
  | table (entries : List (String × Toml))
  deriving Repr, Inhabited

/-- A table of TOML values. -/
abbrev TomlTable := List (String × Toml)

namespace Toml

/-- The largest integer. -/
def maxInteger : Int := 0x7fffffffffffffff

/-- The smallest integer. -/
def minInteger : Int := -0x8000000000000000

/-- An integer that TOML can hold. -/
def inRange (i : Int) : Bool := minInteger ≤ i && i ≤ maxInteger

mutual

/-- Every integer inside a value is one that TOML can hold. -/
def writable : Toml → Bool
  | .integer i => inRange i
  | .array items => writableItems items
  | .table entries => writableEntries entries
  | _ => true

/-- `Toml.writable` for every item of an array. -/
def writableItems : List Toml → Bool
  | [] => true
  | item :: items => item.writable && writableItems items

/-- `Toml.writable` for the value of every entry of a table. -/
def writableEntries : List (String × Toml) → Bool
  | [] => true
  | (_, value) :: entries => value.writable && writableEntries entries

end

end Toml

end AgentLoop
