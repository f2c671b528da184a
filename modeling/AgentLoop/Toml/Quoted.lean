import AgentLoop.Text.Reader

/-!
# Quoted texts in TOML

A text stands in one of four forms: between double quotes, with escapes, or between single quotes,
as it is, and each of the two over one line or, between triple quotes, over several.

* `TextForm.choose` picks the form in which a text is written: the plainest in which it needs no
  escapes.
* `Quoted.write` and `Quoted.writeKey` write a text and a key.
* `Quoted.short` and `Quoted.any` read a text of one line and of any form.
-/

namespace AgentLoop

namespace Quoted

/-! ## Writing -/

/-- The length of the longest run of a character, of which some were seen just before. -/
def longestRun (c : Char) (seen : Nat) : List Char → Nat
  | [] => seen
  | d :: cs => if d = c then longestRun c (seen + 1) cs else max seen (longestRun c 0 cs)

/-- A character that can only be written by an escape, a line break apart. -/
def needsEscape (c : Char) : Bool :=
  (c.toNat < 0x20 && c != '\t' && c != '\n') || c == '\x7f'

/-- An upper-case hexadecimal digit. -/
def upperHexDigit (n : Nat) : Char :=
  if n < 10 then Char.ofNat ('0'.toNat + n) else Char.ofNat ('A'.toNat + (n - 10))

/-- A character as it is escaped. -/
def escape (c : Char) : List Char :=
  match c with
  | '\x08' => ['\\', 'b']
  | '\t' => ['\\', 't']
  | '\n' => ['\\', 'n']
  | '\x0c' => ['\\', 'f']
  | '\r' => ['\\', 'r']
  | '"' => ['\\', '"']
  | '\\' => ['\\', '\\']
  | c => ['\\', 'u', '0', '0', upperHexDigit (c.toNat / 16), upperHexDigit (c.toNat % 16)]

/-- A character between double quotes on one line. -/
def shortChar (c : Char) : List Char :=
  if c == '"' || c == '\\' || c == '\t' || c == '\n' || needsEscape c then escape c else [c]

/-- A text between triple double quotes: a line break stands as it is, and so do two quotes in a
row, but not three. -/
def longBody (quotes : Nat) : List Char → List Char
  | [] => []
  | c :: cs =>
    if c = '"' then
      if quotes < 2 then '"' :: longBody (quotes + 1) cs else escape '"' ++ longBody 0 cs
    else if c = '\n' then '\n' :: longBody 0 cs
    else shortChar c ++ longBody 0 cs

end Quoted

/-- The forms of a text. -/
inductive TextForm where
  | basic
  | literal
  | longBasic
  | longLiteral
  deriving DecidableEq, Repr

namespace TextForm

/-- The form in which a text is written. -/
def choose (cs : List Char) : TextForm :=
  let plain := !cs.any Quoted.needsEscape
  let straight := !cs.contains '\\'
  let oneLine := !cs.contains '\n'
  let doubles := Quoted.longestRun '"' 0 cs
  let singles := Quoted.longestRun '\'' 0 cs
  if plain && straight && oneLine && doubles == 0 then .basic
  else if plain && oneLine && singles == 0 then .literal
  else if plain && straight && doubles ≤ 2 then .longBasic
  else if plain && singles ≤ 2 then .longLiteral
  else if oneLine then .basic
  else .longBasic

/-- A text in a form. -/
def write (cs : List Char) : TextForm → List Char
  | basic => '"' :: cs.flatMap Quoted.shortChar ++ ['"']
  | literal => '\'' :: cs ++ ['\'']
  | longBasic => ['"', '"', '"'] ++ opening ++ Quoted.longBody 0 cs ++ ['"', '"', '"']
  | longLiteral => ['\'', '\'', '\''] ++ opening ++ cs ++ ['\'', '\'', '\'']
where
  /-- A line break right after the opening quotes does not count. -/
  opening : List Char := if cs.contains '\n' then ['\n'] else []

end TextForm

namespace Quoted

/-- A text. -/
def write (cs : List Char) : List Char := (TextForm.choose cs).write cs

/-- A character of a key without quotes. -/
def isBare (c : Char) : Bool :=
  c.isAlphanum || c == '_' || c == '-'

/-- A key, which always stands on one line. -/
def writeKey (cs : List Char) : List Char :=
  let plain := !cs.any needsEscape && !cs.contains '\n'
  if !cs.isEmpty && cs.all isBare then cs
  else if plain && !cs.contains '\\' && !cs.contains '"' then TextForm.basic.write cs
  else if plain && !cs.contains '\'' then TextForm.literal.write cs
  else TextForm.basic.write cs

/-! ## Reading -/

/-- A character that may stand as it is between quotes, the quote and the backslash apart. -/
def isPlain (c : Char) : Bool :=
  c == '\t' || (0x20 ≤ c.toNat && c.toNat != 0x7f)

/-- A character that may stand as it is between double quotes. -/
def isBasic (c : Char) : Bool := isPlain c && c != '"' && c != '\\'

/-- A character that may stand as it is between single quotes. -/
def isLiteral (c : Char) : Bool := isPlain c && c != '\''

/-- A blank within a line. -/
def isSpace (c : Char) : Bool := c == ' ' || c == '\t'

/-- A line break. -/
def newline : Reader Char := do
  let _ ← Reader.possible (Reader.the '\r')
  Reader.the '\n'
  return '\n'

/-- A hexadecimal digit. -/
def isHexDigit (c : Char) : Bool :=
  c.isDigit || ('a' ≤ c && c ≤ 'f') || ('A' ≤ c && c ≤ 'F')

/-- The value of a hexadecimal digit. -/
def hexValue (c : Char) : Nat :=
  if c.isDigit then c.toNat - '0'.toNat
  else if 'a' ≤ c then c.toNat - 'a'.toNat + 10
  else c.toNat - 'A'.toNat + 10

/-- The value of digits in a base. -/
def valueIn (base : Nat) (digits : List Char) : Nat :=
  digits.foldl (fun n c => n * base + hexValue c) 0

/-- A character given by the hexadecimal digits of its number. -/
def numbered (count : Nat) : Reader Char := do
  let digits ← Reader.exactly isHexDigit count
  let n := valueIn 16 digits
  if n.isValidChar then return Char.ofNat n else failure

/-- An escape. -/
def escaped : Reader Char := do
  Reader.the '\\'
  let c ← Reader.one fun _ => true
  match c with
  | 'b' => return '\x08'
  | 't' => return '\t'
  | 'n' => return '\n'
  | 'f' => return '\x0c'
  | 'r' => return '\r'
  | '"' => return '"'
  | '\\' => return '\\'
  | 'u' => numbered 4
  | 'U' => numbered 8
  | _ => failure

/-- A text between double quotes on one line. -/
def basic : Reader (List Char) := do
  Reader.the '"'
  let cs ← Reader.many (Reader.one isBasic <|> escaped)
  Reader.the '"'
  return cs

/-- A text between single quotes on one line. -/
def literal : Reader (List Char) := do
  Reader.the '\''
  let cs ← Reader.span isLiteral
  Reader.the '\''
  return cs

/-- A backslash at the end of a line, with all blanks and line breaks that follow. -/
def continued : Reader (List Char) := do
  Reader.the '\\'
  let _ ← Reader.span isSpace
  let _ ← newline
  let _ ← Reader.many (Reader.one isSpace <|> newline)
  return []

/-- One or two quotes inside a text between triple quotes. -/
def quotesInside (quote : Char) : Reader (List Char) := fun cs =>
  match cs with
  | a :: b :: c :: rest =>
    if a = quote ∧ b = quote ∧ c ≠ quote then some ([quote, quote], c :: rest)
    else if a = quote ∧ b ≠ quote then some ([quote], b :: c :: rest)
    else none
  | [a, b] => if a = quote ∧ b ≠ quote then some ([quote], [b]) else none
  | _ => none

/-- The quotes at the end of a text between triple quotes.  Up to two more than three belong to
the text. -/
def closing (quote : Char) : Reader (List Char) := fun cs =>
  let quotes := (cs.takeWhile fun c => c = quote).length
  if quotes < 3 then none
  else some (List.replicate (min 2 (quotes - 3)) quote, cs.drop (min 5 quotes))

/-- A text between triple quotes, put together from pieces. -/
def long (quote : Char) (piece : Reader (List Char)) : Reader (List Char) := do
  Reader.word [quote, quote, quote]
  let _ ← Reader.possible newline
  let pieces ← Reader.many (piece <|> quotesInside quote)
  let last ← closing quote
  return pieces.flatten ++ last

/-- A single character as a piece. -/
def piece (p : Reader Char) : Reader (List Char) := do
  let c ← p
  return [c]

/-- A text between triple double quotes. -/
def longBasic : Reader (List Char) :=
  long '"' (Reader.run isBasic <|> continued <|> piece escaped <|> piece newline)

/-- A text between triple single quotes. -/
def longLiteral : Reader (List Char) :=
  long '\'' (Reader.run isLiteral <|> piece newline)

/-- A text of one line. -/
def short : Reader (List Char) := basic <|> literal

/-- A text of any form. -/
def any : Reader (List Char) := longBasic <|> basic <|> longLiteral <|> literal

end Quoted

end AgentLoop
