import AgentLoop.Number.Layout
import AgentLoop.Toml.Basic
import AgentLoop.Toml.Quoted

/-!
# The text of a TOML document

A document is written section by section.  Each table has a section with a header and the entries
that are no tables; a table that holds tables only has no header, but an empty table has one.  An
array of several items is written over several lines, one item a line.

* `Toml.chars` is the text of a value within an entry.
* `Toml.sections` lists the sections of a table, `Toml.document` writes a table as a document.
* `Toml.write` writes a document if TOML can hold all its integers.
-/

namespace AgentLoop.Toml

/-! ## Values -/

/-- The text of an integer. -/
def integerChars (i : Int) : List Char :=
  if i < 0 then '-' :: Layout.digitsOf i.natAbs else Layout.digitsOf i.natAbs

/-- The text of a number that is not an integer. -/
def floatChars : Binary → List Char
  | .nan => ['n', 'a', 'n']
  | .infinite negative => (if negative then ['-'] else []) ++ ['i', 'n', 'f']
  | x => (Layout.toml.write binary64 x).getD []

/-- The text of a key. -/
def keyChars (key : String) : List Char := Quoted.writeKey key.toList

mutual

/-- The text of a value within an entry. -/
def chars : Toml → List Char
  | .text s => Quoted.write s.toList
  | .integer i => integerChars i
  | .float x => floatChars x
  | .bool true => ['t', 'r', 'u', 'e']
  | .bool false => ['f', 'a', 'l', 's', 'e']
  | .dateTime s => s.toList
  | .array [] => ['[', ']']
  | .array [item] => '[' :: item.chars ++ [']']
  | .array items => '[' :: itemLines items ++ ['\n', ']']
  | .table [] => ['\x7b', '\x7d']
  | .table entries => '\x7b' :: inlineEntries entries ++ [' ', '\x7d']

/-- The items of an array, each on a line of its own and with a comma. -/
def itemLines : List Toml → List Char
  | [] => []
  | item :: items => ['\n', ' ', ' ', ' ', ' '] ++ item.chars ++ ',' :: itemLines items

/-- The entries of a table within an entry. -/
def inlineEntries : List (String × Toml) → List Char
  | [] => []
  | [(key, value)] => ' ' :: keyChars key ++ [' ', '=', ' '] ++ value.chars
  | (key, value) :: entries =>
    ' ' :: keyChars key ++ [' ', '=', ' '] ++ value.chars ++ ',' :: inlineEntries entries

end

/-! ## Documents -/

/-- The value is a table. -/
def isTable : Toml → Bool
  | .table _ => true
  | _ => false

/-- A section: the names on the way to a table, and its entries. -/
structure Section where
  path : List String
  entries : TomlTable

mutual

/-- The sections of a value under a key: none, unless it is a table. -/
def sectionsAt (path : List String) : Toml → List Section
  | .table entries => ⟨path, entries⟩ :: sections path entries
  | _ => []

/-- The sections of the tables among some entries. -/
def sections (path : List String) : List (String × Toml) → List Section
  | [] => []
  | (key, value) :: entries => value.sectionsAt (path ++ [key]) ++ sections path entries

end

/-- The entries that are no tables, one a line. -/
def entryLines (entries : TomlTable) : List Char :=
  (entries.filter fun entry => !entry.2.isTable).flatMap fun (key, value) =>
    keyChars key ++ [' ', '=', ' '] ++ value.chars ++ ['\n']

namespace Section

/-- The section has a header. -/
def isVisible (s : Section) : Bool :=
  s.entries.isEmpty || s.entries.any fun entry => !entry.2.isTable

/-- The header of a section. -/
def header (s : Section) : List Char :=
  '[' :: (List.intersperse ['.'] (s.path.map keyChars)).flatten ++ [']', '\n']

/-- The text of a section. -/
def chars (s : Section) : List Char := s.header ++ entryLines s.entries

end Section

/-- A table written as a document, with an empty line between sections. -/
def document (table : TomlTable) : List Char :=
  let own := entryLines table
  let rest := ((sections [] table).filter Section.isVisible).map Section.chars
  (List.intersperse ['\n'] (if own.isEmpty then rest else own :: rest)).flatten

/-- A table written as a document, if TOML can hold all its integers. -/
def write (table : TomlTable) : Option String :=
  if (Toml.table table).writable then some (String.ofList (document table)) else none

end AgentLoop.Toml
