import AgentLoop.Text.Shown

/-!
# Texts in quotes, for people

In a description of a value a text stands between double quotes, and whatever would not show by
itself is escaped.

* `Text.quoted` is a text in quotes.
* `Text.braced` is a list of described things in braces.
-/

namespace AgentLoop.Text

/-- The lower-case hexadecimal digits of a number. -/
def lowerHex (n : Nat) : List Char := Nat.toDigits 16 n

/-- A character as it stands between quotes. -/
def quotedChar (c : Char) : List Char :=
  match c with
  | '\x00' => ['\\', '0']
  | '\t' => ['\\', 't']
  | '\n' => ['\\', 'n']
  | '\r' => ['\\', 'r']
  | '"' => ['\\', '"']
  | '\\' => ['\\', '\\']
  | c => if isShown c then [c] else ['\\', 'u', '\x7b'] ++ lowerHex c.toNat ++ ['\x7d']

/-- A text between double quotes. -/
def quoted (s : String) : String :=
  String.ofList ('"' :: s.toList.flatMap quotedChar ++ ['"'])

/-- Described things in braces. -/
def braced (items : List String) : String :=
  "\x7b" ++ ", ".intercalate items ++ "\x7d"

end AgentLoop.Text
