import AgentLoop.Json.Basic
import AgentLoop.Json.Fault

/-!
# Tokens of a JSON text

A JSON text is first cut into tokens by a machine that looks at one character at a time, so
`Token.scan` is recursion over the text and nothing else.  The machine refuses nothing by
itself: what it cannot make a token of becomes a token too, and whoever reads the tokens decides
what is wrong there.

Some faults depend on whether a value is used or passed over.  A number out of range, or half of
a surrogate pair, spoils a value that is used and does no harm in one that is passed over; a
lexeme that never ends spoils both.  Hence a number or a text carries its value or a fault, and a
broken lexeme carries the fault for either case.  It also carries the character it begins with (a
zero for every number), because a reader that looks no further than that may refuse it earlier.

* `Numeral` and `Quoted` are the unfinished number and the unfinished text.
* `Scan.step` takes one character, `Scan.close` the end of the text.
* `Token.scan` gives all tokens, the last of which is the end of the text unless a token before
  it was broken or stray.
-/

namespace AgentLoop

/-- What a token is. -/
inductive Lexeme where
  | openBracket
  | closeBracket
  | openBrace
  | closeBrace
  | colon
  | comma
  | null
  | bool (value : Bool)
  /-- A number, or why it cannot be used. -/
  | number (value : Except Fault JsonNumber)
  /-- A text, or why it cannot be used. -/
  | text (value : Except Fault String)
  /-- A number, a word or a quoted text that is spoilt, with the character it begins with: what
  is wrong when it is used, and when it is passed over. -/
  | broken (opening : Char) (used skipped : Fault)
  /-- A character that begins no lexeme. -/
  | stray
  /-- The end of the text. -/
  | ending
  deriving Repr, Inhabited

/-- The first letter of a word. -/
def Lexeme.initial : Lexeme → Char
  | .null => 'n'
  | .bool true => 't'
  | _ => 'f'

/-- A lexeme with the place reported for its first character. -/
structure Token where
  lexeme : Lexeme
  position : Position
  deriving Repr, Inhabited

/-- A decimal digit. -/
def isDigit (c : Char) : Bool := '0' ≤ c && c ≤ '9'

/-- The value of a decimal digit. -/
def digitValue (c : Char) : Nat := c.toNat - '0'.toNat

/-- The value of a hexadecimal digit. -/
def hexValue? (c : Char) : Option Nat :=
  if isDigit c then some (digitValue c)
  else if 'a' ≤ c ∧ c ≤ 'f' then some (c.toNat - 'a'.toNat + 10)
  else if 'A' ≤ c ∧ c ≤ 'F' then some (c.toNat - 'A'.toNat + 10)
  else none

/-! ## Numbers -/

/-- The part of a number that was read last. -/
inductive NumeralPart where
  | sign
  | zero
  | whole
  | point
  | fraction
  | mark
  | markSign
  | exponent
  deriving DecidableEq, Repr

/-- A number being read: `± significand · 10 ^ (scale ± exponent)`.  The significand takes in digits
as long as it fits 64 bits. -/
structure Numeral where
  part : NumeralPart
  negative : Bool
  significand : Nat
  /-- What the place of the point and the digits left out come to. -/
  scale : Int
  /-- The part of the number that is being read has digits that were left out. -/
  full : Bool
  exponentNegative : Bool
  exponent : Nat
  /-- The place at which the exponent grew beyond 32 bits. -/
  beyond : Option Position
  deriving Repr

namespace Numeral

/-- The number that a first character begins. -/
def begin (c : Char) : Option Numeral :=
  let blank : Numeral := ⟨.sign, false, 0, 0, false, false, 0, none⟩
  if c = '-' then some { blank with negative := true }
  else if c = '0' then some { blank with part := .zero }
  else if isDigit c then some { blank with part := .whole, significand := digitValue c }
  else none

/-- One more digit: the significand that takes it in, or nothing if it is left out. -/
def takeIn (n : Numeral) (c : Char) : Option Nat :=
  let significand := n.significand * 10 + digitValue c
  if !n.full && significand < 0x10000000000000000 then some significand else none

/-- One more digit before the point.  Of those left out only the number counts. -/
def pushWhole (n : Numeral) (c : Char) : Numeral :=
  match n.takeIn c with
  | some significand => { n with part := .whole, significand }
  | none => { n with part := .whole, scale := n.scale + 1, full := true }

/-- One more digit after the point.  Those left out do not count. -/
def pushPlace (n : Numeral) (c : Char) : Numeral :=
  match n.takeIn c with
  | some significand => { n with part := .fraction, significand, scale := n.scale - 1 }
  | none => { n with part := .fraction, full := true }

/-- One more digit of the exponent, read up to the place `p`. -/
def pushExponent (n : Numeral) (p : Position) (c : Char) : Numeral :=
  let exponent := n.exponent * 10 + digitValue c
  { n with
    part := .exponent
    exponent := exponent
    beyond := if n.beyond.isNone && 0x80000000 ≤ exponent then some p else n.beyond }

/-- The number with one more character, read up to the place `p`; `none` when the character
does not belong to it. -/
def next (n : Numeral) (p : Position) (c : Char) : Option Numeral :=
  let isMark := c = 'e' || c = 'E'
  match n.part with
  | .sign =>
    if c = '0' then some { n with part := .zero }
    else if isDigit c then some (n.pushWhole c)
    else none
  | .zero =>
    if c = '.' then some { n with part := .point }
    else if isMark then some { n with part := .mark }
    else none
  | .whole =>
    if isDigit c then some (n.pushWhole c)
    else if c = '.' then some { n with part := .point, full := false }
    else if isMark then some { n with part := .mark }
    else none
  | .point => if isDigit c then some (n.pushPlace c) else none
  | .fraction =>
    if isDigit c then some (n.pushPlace c)
    else if isMark then some { n with part := .mark }
    else none
  | .mark =>
    if c = '+' then some { n with part := .markSign }
    else if c = '-' then some { n with part := .markSign, exponentNegative := true }
    else if isDigit c then some (n.pushExponent p c)
    else none
  | .markSign => if isDigit c then some (n.pushExponent p c) else none
  | .exponent => if isDigit c then some (n.pushExponent p c) else none

/-- The number may end here, unless the character that follows forbids it. -/
def complete (n : Numeral) : Bool :=
  match n.part with
  | .zero | .whole | .fraction | .exponent => true
  | _ => false

/-- No digit may follow a leading zero. -/
def forbids (n : Numeral) (c : Char) : Bool :=
  n.part == .zero && isDigit c

/-- The value of a complete number that was written as an integer without leaving out a digit, if
it fits 64 bits.  Minus zero has a sign and is therefore no integer. -/
def integer? (n : Numeral) : Option Int :=
  match n.part with
  | .zero | .whole =>
    if n.full then none
    else if !n.negative then some n.significand
    else if 0 < n.significand && n.significand ≤ 0x8000000000000000 then some (-(n.significand : Int))
    else none
  | _ => none

/-- The value of a complete number that ends at the place `p`: an integer if it can be, otherwise the
binary number that comes of scaling the significand.  None is infinite. -/
def value (n : Numeral) (p : Position) : Except Fault JsonNumber :=
  match n.integer? with
  | some i => .ok (.int i)
  | none =>
    let exponent : Int := if n.exponentNegative then -(n.exponent : Int) else n.exponent
    let scaled := binary64.scaleDecimal n.negative n.significand (n.scale + exponent)
    if scaled.isFinite then .ok (.real scaled)
    else .error ⟨.numberOutOfRange, n.beyond.getD p⟩

end Numeral

/-! ## Texts in quotes -/

/-- What the next character of a quoted text means. -/
inductive QuotedMode where
  | plain
  | escape
  /-- Inside a hexadecimal escape: the value so far, the bytes still to come, and whether all
  characters so far were hexadecimal digits. -/
  | hex (value : Nat) (left : Nat) (valid : Bool)
  deriving DecidableEq, Repr

/-- A quoted text being read. -/
structure Quoted where
  mode : QuotedMode
  /-- The characters so far, last one first, or why they cannot be used. -/
  chars : Except Fault (List Char)
  /-- The first half of a surrogate pair, just read. -/
  lead : Option Nat
  deriving Repr

/-- What a character does to a quoted text. -/
inductive QuotedStep where
  | goOn (q : Quoted)
  | close (value : Except Fault String)
  | broken (used skipped : Fault)

namespace Quoted

/-- A quoted text after its opening quote. -/
def empty : Quoted := ⟨.plain, .ok [], none⟩

/-- The text with a fault, unless it has an earlier one. -/
def spoil (q : Quoted) (f : Fault) : Quoted :=
  match q.chars with
  | .ok _ => { q with chars := .error f, lead := none }
  | .error _ => { q with lead := none }

/-- The text when something other than a hexadecimal escape is met at the place `p`: a first
half of a surrogate pair must not be left alone. -/
def settle (q : Quoted) (p : Position) : Quoted :=
  match q.lead with
  | some _ => q.spoil ⟨.hexEscapeCut, p⟩
  | none => q

/-- The text with one more character. -/
def push (q : Quoted) (c : Char) : Quoted :=
  { q with mode := .plain, chars := q.chars.map (c :: ·) }

/-- The text with one more 16-bit unit, read up to the place `p`. -/
def pushUnit (q : Quoted) (p : Position) (unit : Nat) : Quoted :=
  let isLead := 0xD800 ≤ unit && unit < 0xDC00
  let isTrail := 0xDC00 ≤ unit && unit < 0xE000
  let plain := { q with mode := .plain, lead := none }
  match q.lead with
  | some lead =>
    if isTrail then plain.push (Char.ofNat (0x10000 + (lead - 0xD800) * 0x400 + (unit - 0xDC00)))
    else plain.spoil ⟨.loneSurrogate, p⟩
  | none =>
    if isTrail then plain.spoil ⟨.loneSurrogate, p⟩
    else if isLead then { plain with lead := some unit }
    else plain.push (Char.ofNat unit)

/-- What is wrong with the text when it is spoilt for good by a fault. -/
def blame (q : Quoted) (f : Fault) : QuotedStep :=
  match q.chars with
  | .ok _ => .broken f f
  | .error earlier => .broken earlier f

/-- The character that a letter after a backslash stands for. -/
def unescape? : Char → Option Char
  | '"' => some '"'
  | '\\' => some '\\'
  | '/' => some '/'
  | 'b' => some '\x08'
  | 'f' => some '\x0c'
  | 'n' => some '\n'
  | 'r' => some '\r'
  | 't' => some '\t'
  | _ => none

/-- One more character of a hexadecimal escape.  Its four digits are counted in bytes, so a
character of several bytes may end the escape in its middle. -/
def stepHex (q : Quoted) (p : Position) (c : Char) (value left : Nat) (valid : Bool) :
    QuotedStep :=
  match hexValue? c with
  | some digit =>
    let value := value * 16 + digit
    if 1 < left then .goOn { q with mode := .hex value (left - 1) valid }
    else if valid then .goOn (q.pushUnit (p.report c) value)
    else q.blame ⟨.invalidEscape, p.report c⟩
  | none =>
    if c.utf8Size < left then .goOn { q with mode := .hex value (left - c.utf8Size) false }
    else q.blame ⟨.invalidEscape, p.within c left⟩

/-- One more character, read at the place `p`. -/
def step (q : Quoted) (p : Position) (c : Char) : QuotedStep :=
  let here := p.report c
  match q.mode with
  | .plain =>
    if c = '"' then .close ((q.settle here).chars.map fun cs => String.ofList cs.reverse)
    else if c = '\\' then .goOn { q with mode := .escape }
    else if c.toNat < 0x20 then (q.settle here).blame ⟨.controlCharacter, here⟩
    else .goOn ((q.settle here).push c)
  | .escape =>
    if c = 'u' then .goOn { q with mode := .hex 0 4 true }
    else
      match unescape? c with
      | some plain => .goOn ((q.settle here).push plain)
      | none => (q.settle here).blame ⟨.invalidEscape, here⟩
  | .hex value left valid => q.stepHex p c value left valid

end Quoted

/-! ## The machine -/

/-- What the machine is in the middle of. -/
inductive Scan where
  | between
  /-- A word of which some letters are still to come. -/
  | word (start : Position) (left : List Char) (lexeme : Lexeme)
  | numeral (start : Position) (n : Numeral)
  | quoted (start : Position) (q : Quoted)
  /-- Nothing more is read. -/
  | done

namespace Scan

/-- The first character of a lexeme, or a blank between two. -/
def first (p : Position) (c : Char) : List Token × Scan :=
  let here := p.report c
  let one (lexeme : Lexeme) : List Token × Scan := ([⟨lexeme, here⟩], .between)
  match c with
  | ' ' | '\n' | '\t' | '\r' => ([], .between)
  | '[' => one .openBracket
  | ']' => one .closeBracket
  | '{' => one .openBrace
  | '}' => one .closeBrace
  | ':' => one .colon
  | ',' => one .comma
  | '"' => ([], .quoted here .empty)
  | 'n' => ([], .word here ['u', 'l', 'l'] .null)
  | 't' => ([], .word here ['r', 'u', 'e'] (.bool true))
  | 'f' => ([], .word here ['a', 'l', 's', 'e'] (.bool false))
  | c =>
    match Numeral.begin c with
    | some n => ([], .numeral here n)
    | none => ([⟨.stray, here⟩], .done)

/-- One character, read at the place `p`: the tokens that it ends and what it begins. -/
def step (s : Scan) (p : Position) (c : Char) : List Token × Scan :=
  let here := p.report c
  match s with
  | .between => first p c
  | .word start left lexeme =>
    match left with
    | [] => ([], .done)
    | [letter] =>
      if c = letter then ([⟨lexeme, start⟩], .between)
      else ([⟨.broken lexeme.initial ⟨.expectedIdent, here⟩ ⟨.expectedIdent, here⟩, start⟩], .done)
    | letter :: left =>
      if c = letter then ([], .word start left lexeme)
      else ([⟨.broken lexeme.initial ⟨.expectedIdent, here⟩ ⟨.expectedIdent, here⟩, start⟩], .done)
  | .numeral start n =>
    match n.next here c with
    | some n => ([], .numeral start n)
    | none =>
      if n.complete && !n.forbids c then
        let (tokens, s) := first p c
        (⟨.number (n.value p), start⟩ :: tokens, s)
      else ([⟨.broken '0' ⟨.invalidNumber, here⟩ ⟨.invalidNumber, here⟩, start⟩], .done)
  | .quoted start q =>
    match q.step p c with
    | .goOn q => ([], .quoted start q)
    | .close value => ([⟨.text value, start⟩], .between)
    | .broken used skipped => ([⟨.broken '"' used skipped, start⟩], .done)
  | .done => ([], .done)

/-- The end of the text at the place `p`.  A number that is passed over is never cut off: it is
just no number. -/
def close (s : Scan) (p : Position) : List Token :=
  match s with
  | .between => [⟨.ending, p⟩]
  | .word start _ lexeme => [⟨.broken lexeme.initial ⟨.valueCut, p⟩ ⟨.valueCut, p⟩, start⟩]
  | .numeral start n =>
    if n.complete then [⟨.number (n.value p), start⟩, ⟨.ending, p⟩]
    else [⟨.broken '0' ⟨.valueCut, p⟩ ⟨.invalidNumber, p⟩, start⟩]
  | .quoted start q =>
    match q.chars with
    | .ok _ => [⟨.broken '"' ⟨.stringCut, p⟩ ⟨.stringCut, p⟩, start⟩]
    | .error earlier => [⟨.broken '"' earlier ⟨.stringCut, p⟩, start⟩]
  | .done => []

end Scan

/-- The tokens of the characters from the place `p` on. -/
def Token.scanFrom (s : Scan) (p : Position) : List Char → List Token
  | [] => s.close p
  | c :: cs =>
    let (tokens, s) := s.step p c
    tokens ++ Token.scanFrom s (p.after c) cs

/-- The tokens of a text. -/
def Token.scan (cs : List Char) : List Token :=
  Token.scanFrom .between .start cs

end AgentLoop
