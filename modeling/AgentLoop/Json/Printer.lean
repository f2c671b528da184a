import AgentLoop.Json.Basic
import AgentLoop.Number.Layout

/-!
# The text of a JSON value

A value is written compactly, without any blank, or laid out over lines with an indent of two
spaces.  Both write the fields of an object in their order.  In a text only the quote, the
backslash and the characters below the space are escaped; a number that is infinite or undefined
is written as `null`.

* `Json.chars` is the compact text as a list of characters, `Json.compact` as a string.
* `Json.pretty` is the text laid out over lines.
-/

namespace AgentLoop

/-- The lower-case hexadecimal digit of a number below sixteen. -/
def hexDigit (n : Nat) : Char :=
  if n < 10 then Char.ofNat ('0'.toNat + n) else Char.ofNat ('a'.toNat + (n - 10))

namespace Json

/-- A character as it stands inside quotes. -/
def escapeChar (c : Char) : List Char :=
  match c with
  | '"' => ['\\', '"']
  | '\\' => ['\\', '\\']
  | '\x08' => ['\\', 'b']
  | '\x0c' => ['\\', 'f']
  | '\n' => ['\\', 'n']
  | '\r' => ['\\', 'r']
  | '\t' => ['\\', 't']
  | c =>
    if c.toNat < 0x20 then ['\\', 'u', '0', '0', hexDigit (c.toNat / 16), hexDigit (c.toNat % 16)]
    else [c]

/-- A text in quotes. -/
def quoteChars (s : List Char) : List Char :=
  '"' :: s.flatMap escapeChar ++ ['"']

/-- The text of an integer. -/
def intChars (i : Int) : List Char :=
  if i < 0 then '-' :: Layout.digitsOf i.natAbs else Layout.digitsOf i.natAbs

/-- The text of a number. -/
def numberChars : JsonNumber → List Char
  | .int i => intChars i
  | .real x => (Layout.json64.write binary64 x).getD ['n', 'u', 'l', 'l']
  | .single x => (Layout.json32.write binary32 x).getD ['n', 'u', 'l', 'l']

/-! ## Compact text -/

mutual

/-- The compact text of a value. -/
def chars : Json → List Char
  | .null => ['n', 'u', 'l', 'l']
  | .bool true => ['t', 'r', 'u', 'e']
  | .bool false => ['f', 'a', 'l', 's', 'e']
  | .num n => numberChars n
  | .str s => quoteChars s.toList
  | .arr items => '[' :: itemsChars items ++ [']']
  | .obj fields => '{' :: fieldsChars fields ++ ['}']

/-- The items of an array with commas between them. -/
def itemsChars : List Json → List Char
  | [] => []
  | [item] => item.chars
  | item :: items => item.chars ++ ',' :: itemsChars items

/-- The fields of an object with commas between them. -/
def fieldsChars : List (String × Json) → List Char
  | [] => []
  | [(key, value)] => quoteChars key.toList ++ ':' :: value.chars
  | (key, value) :: fields => quoteChars key.toList ++ ':' :: (value.chars ++ ',' :: fieldsChars fields)

end

/-- The compact text of a value. -/
def compact (value : Json) : String := String.ofList value.chars

/-! ## Text over several lines -/

/-- A new line indented by some levels. -/
def newLine (level : Nat) : List Char := '\n' :: List.replicate (2 * level) ' '

mutual

/-- The text of a value that begins on a line of the given level. -/
def prettyChars (level : Nat) : Json → List Char
  | .arr [] => ['[', ']']
  | .arr (item :: items) =>
    '[' :: prettyItems (level + 1) (item :: items) ++ newLine level ++ [']']
  | .obj [] => ['{', '}']
  | .obj (field :: fields) =>
    '{' :: prettyFields (level + 1) (field :: fields) ++ newLine level ++ ['}']
  | value => value.chars

/-- The items of an array, each on a line of its own. -/
def prettyItems (level : Nat) : List Json → List Char
  | [] => []
  | [item] => newLine level ++ item.prettyChars level
  | item :: items => newLine level ++ item.prettyChars level ++ ',' :: prettyItems level items

/-- The fields of an object, each on a line of its own. -/
def prettyFields (level : Nat) : List (String × Json) → List Char
  | [] => []
  | [(key, value)] =>
    newLine level ++ quoteChars key.toList ++ ':' :: ' ' :: value.prettyChars level
  | (key, value) :: fields =>
    newLine level ++ quoteChars key.toList ++ ':' :: ' ' ::
      (value.prettyChars level ++ ',' :: prettyFields level fields)

end

/-- The text of a value laid out over lines, with an indent of two spaces. -/
def pretty (value : Json) : String := String.ofList (value.prettyChars 0)

end Json

end AgentLoop
