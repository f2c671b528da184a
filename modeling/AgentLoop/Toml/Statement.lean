import AgentLoop.Toml.Numeral
import AgentLoop.Toml.Table

/-!
# The lines of a TOML document

A document is a sequence of statements, one a line: headers, and entries of a key and a value.  Only
arrays and long texts go over several lines.

* `Statement` is a line that says something.
* `Statement.value` reads a value, `Statement.line` a line, `Statement.all` a document.
-/

namespace AgentLoop

/-- A line of a document that says something.  A dotted key is given as the way to it and its last
part. -/
inductive Statement where
  | header (path : List String) (key : String)
  /-- A header with double brackets. -/
  | doubleHeader (path : List String) (key : String)
  | entry (path : List String) (key : String) (value : Toml)
  deriving Inhabited

namespace Statement

/-! ## Blanks -/

/-- Blanks within a line. -/
def spaces : Reader Unit := do
  let _ ← Reader.span Quoted.isSpace
  return ()

/-- A comment, up to the end of its line. -/
def comment : Reader Unit := do
  Reader.the '#'
  let _ ← Reader.span Quoted.isPlain
  return ()

/-- The end of a line or of the text. -/
def lineEnd : Reader Unit := fun cs =>
  match cs with
  | [] => some ((), [])
  | cs => (Quoted.newline cs).map fun (_, rest) => ((), rest)

/-- What may follow at the end of a line. -/
def trailing : Reader Unit := do
  spaces
  let _ ← Reader.possible comment
  lineEnd

/-- Blanks, comments and line breaks, as they may stand in an array. -/
def gap : Reader Unit := do
  let _ ← Reader.many ((do
    let _ ← Reader.run Quoted.isSpace
    return ()) <|> (do
    let _ ← Quoted.newline
    return ()) <|> (do
    comment
    let _ ← Quoted.newline
    return ()))
  return ()

/-! ## Keys and values -/

/-- How deep a document may go: the number of parts of a dotted key, and of brackets around a
value. -/
def maxDepth : Nat := 79

/-- One part of a key. -/
def keyPart : Reader String := do
  spaces
  let cs ← Quoted.short <|> Reader.run Quoted.isBare
  spaces
  return String.ofList cs

/-- A key: the way to it and its last part. -/
def key : Reader (List String × String) := do
  let parts ← Reader.separated (Reader.the '.') keyPart
  if parts.length ≤ maxDepth then return (parts.dropLast, parts.getLastD "") else failure

/-- A truth value. -/
def bool : Reader Toml :=
  (do
    Reader.word ['t', 'r', 'u', 'e']
    return .bool true) <|>
  (do
    Reader.word ['f', 'a', 'l', 's', 'e']
    return .bool false)

/-- A text. -/
def text : Reader Toml := do
  let cs ← Quoted.any
  return .text (String.ofList cs)

/-- A value that has no brackets. -/
def scalar : Reader Toml :=
  text <|> bool <|> Toml.Numeral.dateTime <|> Toml.Numeral.float <|> Toml.Numeral.integer

/-- An array of given values.  A comma may follow the last one. -/
def array (item : Reader Toml) : Reader Toml := do
  Reader.the '['
  let items ← Reader.possible (Reader.separated (Reader.the ',') (do
    gap
    let v ← item
    gap
    return v))
  if items.isSome then
    let _ ← Reader.possible (Reader.the ',')
  gap
  Reader.the ']'
  return .array (items.getD [])

/-- An entry: a key and a value. -/
def assignment (item : Reader Toml) : Reader (List String × String × Toml) := do
  let (path, last) ← key
  Reader.the '='
  spaces
  let v ← item
  return (path, last, v)

/-- The table of some entries, if nothing in them is defined twice. -/
def tableOf (entries : List (List String × String × Toml)) : Option TomlTable :=
  (entries.foldlM (fun draft (path, last, v) => Draft.assign path last v draft)
    Draft.empty).map Draft.toTable

/-- A table on one line. -/
def inlineTable (item : Reader Toml) : Reader Toml := do
  Reader.the '\x7b'
  let entries ← Reader.possible (Reader.separated (Reader.the ',') (do
    let entry ← assignment item
    spaces
    return entry))
  spaces
  Reader.the '\x7d'
  return .table (← Reader.ofOption (tableOf (entries.getD [])))

/-- A value with at most some brackets around one another. -/
def value : Nat → Reader Toml
  | 0 => scalar
  | depth + 1 => scalar <|> array (value depth) <|> inlineTable (value depth)

/-! ## Lines -/

/-- A header. -/
def headerLine : Reader Statement :=
  (do
    Reader.word ['[', '[']
    let (path, last) ← key
    Reader.word [']', ']']
    trailing
    return .doubleHeader path last) <|>
  (do
    Reader.the '['
    let (path, last) ← key
    Reader.the ']'
    trailing
    return .header path last)

/-- An entry. -/
def entryLine : Reader Statement := do
  let (path, last, v) ← assignment (value maxDepth)
  trailing
  return .entry path last v

/-- A line, which need not say anything. -/
def line : Reader (Option Statement) := do
  spaces
  (do
    let s ← headerLine <|> entryLine
    return some s) <|>
  (do
    trailing
    return none)

/-- The statements of a document.  A byte order mark at its beginning does not count. -/
def all (document : List Char) : Option (List Statement) :=
  let body :=
    match document with
    | '\uFEFF' :: cs => cs
    | cs => cs
  (Reader.whole (Reader.many line) body).map fun lines => lines.filterMap id

end Statement

end AgentLoop
