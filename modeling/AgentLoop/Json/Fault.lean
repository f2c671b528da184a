/-!
# Faults in a JSON text

A text that is no JSON document is refused at one place and for one cause.  Places are counted
in lines from one and in bytes on the line: the place reported for a character is the one
reached after its first byte, so the column of an ASCII character is its ordinal on the line,
and a line break is at column zero of the line it begins.

* `Position` is such a place, `Position.after` moves over a character.
* `Cause` lists what can be wrong, `Cause.message` words it.
* `Cause.isCut` tells the causes that more text could mend: the text ended too early.
-/

namespace AgentLoop

/-- A place in a text: the line, and the number of bytes read on it. -/
structure Position where
  line : Nat
  column : Nat
  deriving DecidableEq, Repr, Inhabited

namespace Position

/-- The beginning of a text. -/
def start : Position := ⟨1, 0⟩

/-- The place after a whole character. -/
def after (p : Position) (c : Char) : Position :=
  if c = '\n' then ⟨p.line + 1, 0⟩ else ⟨p.line, p.column + c.utf8Size⟩

/-- The place after some bytes of a character that has at least as many. -/
def within (p : Position) (c : Char) (bytes : Nat) : Position :=
  if c = '\n' then ⟨p.line + 1, 0⟩ else ⟨p.line, p.column + bytes⟩

/-- The place reported for a character: the one after its first byte. -/
def report (p : Position) (c : Char) : Position :=
  p.within c 1

end Position

/-- What can be wrong with a JSON text. -/
inductive Cause where
  | valueCut
  | listCut
  | objectCut
  | stringCut
  | expectedValue
  | expectedIdent
  | expectedColon
  | expectedCommaOrBracket
  | expectedCommaOrBrace
  | trailingComma
  | trailingCharacters
  | keyNotString
  | invalidNumber
  | numberOutOfRange
  | controlCharacter
  | invalidEscape
  | hexEscapeCut
  | loneSurrogate
  | tooDeep
  deriving DecidableEq, Repr, Inhabited

namespace Cause

/-- The wording of a cause. -/
def message : Cause → String
  | valueCut => "EOF while parsing a value"
  | listCut => "EOF while parsing a list"
  | objectCut => "EOF while parsing an object"
  | stringCut => "EOF while parsing a string"
  | expectedValue => "expected value"
  | expectedIdent => "expected ident"
  | expectedColon => "expected `:`"
  | expectedCommaOrBracket => "expected `,` or `]`"
  | expectedCommaOrBrace => "expected `,` or `\x7d`"
  | trailingComma => "trailing comma"
  | trailingCharacters => "trailing characters"
  | keyNotString => "key must be a string"
  | invalidNumber => "invalid number"
  | numberOutOfRange => "number out of range"
  | controlCharacter => "control character (\\u0000-\\u001F) found while parsing a string"
  | invalidEscape => "invalid escape"
  | hexEscapeCut => "unexpected end of hex escape"
  | loneSurrogate => "lone leading surrogate in hex escape"
  | tooDeep => "recursion limit exceeded"

/-- The text ended where more was needed. -/
def isCut : Cause → Bool
  | valueCut | listCut | objectCut | stringCut => true
  | _ => false

end Cause

/-- One thing wrong at one place. -/
structure Fault where
  cause : Cause
  position : Position
  deriving DecidableEq, Repr, Inhabited

/-- The wording of a fault, place included. -/
def Fault.message (f : Fault) : String :=
  s!"{f.cause.message} at line {f.position.line} column {f.position.column}"

end AgentLoop
