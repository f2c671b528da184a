import AgentLoop.Log.Record
import AgentLoop.Number.Integer
import AgentLoop.Text.Alphanumeric
import AgentLoop.Text.Blank

/-!
# Log filters

A filter is a text of directives with commas between them.  A directive `target[span{field=form}]=level`
says up to which level records are kept that are from a part of the program, made within a span,
and have a field.  Everything but the target or the level may be missing.

The program makes its records outside of any span, so a directive with a span or with a form for a
field never counts; but it is there, and a filter with such directives only keeps nothing.

* `LogDirective.read?` reads a directive, `LogFilter.read?` reads a filter.
* `LogFilter.keeps` says whether a record is kept.
-/

namespace AgentLoop

/-! ## Levels -/

namespace LogFilter

/-- The highest verbosity. -/
def maxVerbosity : Nat := 5

/-- The verbosity that a word names, or gives as a number. -/
def verbosity? (word : String) : Option Nat :=
  ((readUnsigned? word).filter fun n => n ≤ maxVerbosity) <|>
    ["off", "error", "warn", "info", "debug", "trace"].findIdx? (· = Text.lowerAscii word)

end LogFilter

/-! ## Forms of values -/

namespace FieldForm

/-- A letter or digit that means something after a backslash. -/
def isEscape (c : Char) : Bool := "aftnrvdDsSwWbBAz".contains c

/-- A pattern is closed: what is opened in it is closed, and what is repeated is there.  `depth` is
the number of open groups, `repeatable` says that there is something to repeat, and `inClass` that
a class of characters is open. -/
def isPattern : (depth : Nat) → (repeatable inClass : Bool) → List Char → Bool
  | depth, _, inClass, [] => depth == 0 && !inClass
  | depth, _, inClass, '\\' :: c :: cs =>
    (isEscape c || !c.isAlphanum) && isPattern depth true inClass cs
  | _, _, _, ['\\'] => false
  | depth, repeatable, true, c :: cs => isPattern depth (repeatable || c = ']') (c != ']') cs
  | depth, _, false, '[' :: '^' :: ']' :: cs | depth, _, false, '[' :: ']' :: cs =>
    isPattern depth true true cs
  | depth, _, false, '[' :: cs => isPattern depth true true cs
  | depth, _, false, '(' :: '?' :: ':' :: cs | depth, _, false, '(' :: cs =>
    isPattern (depth + 1) false false cs
  | 0, _, false, ')' :: _ => false
  | depth + 1, _, false, ')' :: cs => isPattern depth true false cs
  | depth, _, false, '|' :: cs => isPattern depth false false cs
  | depth, repeatable, false, c :: cs =>
    c != '\x7b' && (repeatable || !"*+?".contains c) && isPattern depth true false cs

end FieldForm

/-- What a directive asks of a field. -/
structure FieldTest where
  name : String
  /-- The form of its value, if any will not do. -/
  form : Option String
  deriving DecidableEq, Repr

/-- The test that a text gives: a name, and after a sign of equality a form, which is a number or a
pattern.  What follows a second such sign is left out. -/
def FieldTest.read? (text : String) : Option FieldTest :=
  match text.splitOn "=" with
  | name :: form :: _ =>
    if (readSigned? form).isSome || FieldForm.isPattern 0 false false form.toList then
      some ⟨name, some form⟩
    else none
  | _ => if text = "" then none else some ⟨text, none⟩

/-! ## Directives -/

/-- Which records are kept. -/
structure LogDirective where
  /-- How the names of the parts of the program begin that it is about, if not about all. -/
  target : Option String
  span : Option String
  fields : List FieldTest
  verbosity : Nat
  deriving DecidableEq, Repr

namespace LogDirective

/-- The directive about all records. -/
def all (verbosity : Nat) : LogDirective := ⟨none, none, [], verbosity⟩

/-- What is read of a directive, and where it began. -/
inductive Part where
  | start
  /-- A level or a target, which are not told apart before the end. -/
  | word
  | span (start : Nat)
  | field (start : Nat)
  | closing
  | closed
  | level (start : Nat)
  deriving DecidableEq, Repr

/-- The characters of a text from a place on, with their places, which are counted in bytes. -/
def placed : Nat → List Char → List (Nat × Char)
  | _, [] => []
  | i, c :: cs => (i, c) :: placed (i + c.utf8Size) cs

/-- The piece of a text between two places. -/
def piece (text : String) (start stop : Nat) : String :=
  String.ofList (((placed 0 text.toList).filter fun (i, _) => start ≤ i && i < stop).map Prod.snd)

/-- A target may begin with the character. -/
def beginsTarget (c : Char) : Bool := c == '_' || c == ':' || c == '-' || Text.isAlphanumeric c

/-- Reads one more character of a directive. -/
def step (text : String) : LogDirective × Part → Nat × Char → Option (LogDirective × Part)
  | (d, .start), (i, c) =>
    if c = '[' then some (d, .span (i + 1)) else if beginsTarget c then some (d, .word) else none
  | (d, .word), (i, '=') => some ({ d with target := piece text 0 i }, .level (i + 1))
  | (d, .word), (i, '[') => some ({ d with target := piece text 0 i }, .span (i + 1))
  | (d, .span start), (i, ']') => some ({ d with span := piece text start i }, .closed)
  | (d, .span start), (i, '\x7b') =>
    let name := piece text start i
    some ({ d with span := if name = "" then none else some name }, .field (i + 1))
  | (d, .field start), (i, '\x7d') =>
    (FieldTest.read? (piece text start i)).map fun test =>
      ({ d with fields := d.fields ++ [test] }, .closing)
  | (d, .closing), (_, ']') => some (d, .closed)
  | (d, .closed), (i, '=') => some (d, .level (i + 1))
  | (_, .closing), _ | (_, .closed), _ => none
  | state, _ => some state

/-- Reads the end of a directive. -/
def finish (text : String) : LogDirective × Part → Option LogDirective
  | (d, .word) =>
    match LogFilter.verbosity? text with
    | some verbosity => some { d with verbosity }
    | none => some { d with target := some text }
  | (d, .level start) =>
    let word := piece text start text.utf8ByteSize
    if word = "" then some d
    else (LogFilter.verbosity? word).map fun verbosity => { d with verbosity }
  | (d, .closed) => some d
  | _ => none

/-- The directive that a text gives.  Blanks at its ends are not read, but they are not taken away
either: the places of what is read are those in the text without them, and the pieces are cut out
of the text with them. -/
def read? (text : String) : Option LogDirective :=
  ((placed 0 (Text.trimChars text.toList)).foldlM (step text)
    (all LogFilter.maxVerbosity, .start)).bind (finish text)

/-- The directive counts outside of spans. -/
def isOutright (d : LogDirective) : Bool :=
  d.span.isNone && d.fields.all fun test => test.form.isNone

/-- The names of the fields that it asks for. -/
def fieldNames (d : LogDirective) : List String := d.fields.map FieldTest.name

/-- The directive is about a record. -/
def appliesTo (d : LogDirective) (r : LogRecord) : Bool :=
  d.isOutright && (d.target.getD "").isPrefixOf r.target &&
    d.fieldNames.all fun name => name = "message" || (r.fields.lookup name).isSome

/-- Of two directives about one record, the first is the more specific one, or neither is: its
target is longer, or it asks for more fields, or for fields with later names. -/
def atLeastAsSpecific (d e : LogDirective) : Bool :=
  let weight (d : LogDirective) : List Nat :=
    [(d.target.map fun target => target.utf8ByteSize + 1).getD 0, d.fields.length]
  if weight d = weight e then !d.fieldNames.lex e.fieldNames fun a b => a < b
  else !(weight d).lex (weight e) fun a b => a < b

end LogDirective

/-! ## Filters -/

/-- The directives that say which records are kept. -/
abbrev LogFilter := List LogDirective

namespace LogFilter

/-- The filter that a text gives: directives with commas between them.  Without any, only errors
are kept. -/
def read? (text : String) : Option LogFilter :=
  let parts := (text.splitOn ",").filter fun part => part ≠ ""
  if parts.isEmpty then some [.all 1] else parts.mapM LogDirective.read?

/-- The filter for all parts of the program. -/
def ofVerbosity (verbosity : Nat) : LogFilter := [.all verbosity]

/-- The directive that counts for a record: the most specific of those about it, and of several the
last. -/
def directiveFor (filter : LogFilter) (r : LogRecord) : Option LogDirective :=
  (filter.filter fun d => d.appliesTo r).foldl
    (fun best d =>
      match best with
      | some b => if d.atLeastAsSpecific b then some d else best
      | none => some d)
    none

/-- The record is kept. -/
def keeps (filter : LogFilter) (r : LogRecord) : Bool :=
  match filter.directiveFor r with
  | some d => r.level.verbosity ≤ d.verbosity
  | none => false

end LogFilter

end AgentLoop
