import AgentLoop.Json.Token

/-!
# JSON texts as trees

Reading a JSON text as a typed value goes from left to right and stops at the first thing that
is wrong, be it with the text or with the type.  To keep the two apart, a text is first made into
a tree that is as large as the text allows: where the text is faulty the tree ends in the fault.
A typed reader then walks over the tree in the same order, and whatever it meets first, a fault of
the text or a misfit of its own, is what is reported.

* `Tree` is a JSON value with faults: in place of a value, in place of a key, and at the end of
  an array or object that is not properly closed.
* `Tree.tooDeep` marks a bracket nested deeper than 127 levels, which may be passed over but not
  used.
* `Build` puts a tree together from tokens by a stack of open brackets; `Document.ofText` is the
  result for a whole text, with the fault of what follows the value.
* `Tree.use` gives the value of a tree that is used whole, `Tree.skip` passes over one, and
  `Tree.ofJson` is the tree of a value.
-/

namespace AgentLoop

/-- What a JSON text says, as far as it goes. -/
inductive Tree where
  | null
  | bool (value : Bool)
  | number (value : Except Fault JsonNumber)
  | text (value : Except Fault String)
  /-- The items, and what is wrong after them if the array is not properly closed. -/
  | array (items : List Tree) (ending : Option Fault)
  /-- The members, and what is wrong after them if the object is not properly closed. -/
  | object (members : List (Except Fault String × Tree)) (ending : Option Fault)
  /-- A bracket beyond the nesting limit, and what it holds. -/
  | tooDeep (fault : Fault) (tree : Tree)
  /-- A value that is spoilt, with the character it begins with: what is wrong when it is used,
  and when it is passed over. -/
  | broken (opening : Char) (used skipped : Fault)
  /-- Something that begins no value. -/
  | absent (fault : Fault)
  deriving Inhabited

namespace Tree

/-! ## Walking over a tree -/

/-- Nothing, or the fault at the end of a container. -/
def ended : Option Fault → Except Fault Unit
  | none => .ok ()
  | some f => .error f

mutual

/-- Passes over a value: only faults that spoil the text itself count. -/
def skip : Tree → Except Fault Unit
  | .array items ending => do
    skipItems items
    ended ending
  | .object members ending => do
    skipMembers members
    ended ending
  | .tooDeep _ tree => tree.skip
  | .broken _ _ skipped => .error skipped
  | .absent f => .error f
  | _ => .ok ()

/-- Passes over the items of an array. -/
def skipItems : List Tree → Except Fault Unit
  | [] => .ok ()
  | item :: items => do
    item.skip
    skipItems items

/-- Passes over the members of an object. -/
def skipMembers : List (Except Fault String × Tree) → Except Fault Unit
  | [] => .ok ()
  | (_, value) :: members => do
    value.skip
    skipMembers members

end

mutual

/-- The free-form value that a tree stands for, its objects canonical, or the first fault. -/
def use : Tree → Except Fault Json
  | .null => .ok .null
  | .bool b => .ok (.bool b)
  | .number value => value.map .num
  | .text value => value.map .str
  | .array items ending => do
    let items ← useItems items
    ended ending
    return .arr items
  | .object members ending => do
    let fields ← useMembers members
    ended ending
    return .obj (Keyed.ofList fields)
  | .tooDeep f _ => .error f
  | .broken _ used _ => .error used
  | .absent f => .error f

/-- The values of the items of an array. -/
def useItems : List Tree → Except Fault (List Json)
  | [] => .ok []
  | item :: items => do
    let item ← item.use
    let items ← useItems items
    return item :: items

/-- The fields of an object in the order of the text. -/
def useMembers : List (Except Fault String × Tree) → Except Fault (List (String × Json))
  | [] => .ok []
  | (key, value) :: members => do
    let key ← key
    let value ← value.use
    let members ← useMembers members
    return (key, value) :: members

end

end Tree

/-! ## The tree of a value -/

namespace Tree

mutual

/-- The tree that stands for a free-form value. -/
def ofJson : Json → Tree
  | .null => .null
  | .bool b => .bool b
  | .num n => .number (.ok n)
  | .str s => .text (.ok s)
  | .arr items => .array (ofItems items) none
  | .obj fields => .object (ofFields fields) none

/-- The trees of the items of an array. -/
def ofItems : List Json → List Tree
  | [] => []
  | item :: items => ofJson item :: ofItems items

/-- The members that stand for the fields of an object. -/
def ofFields : List (String × Json) → List (Except Fault String × Tree)
  | [] => []
  | (key, value) :: fields => (.ok key, ofJson value) :: ofFields fields

end

end Tree

/-! ## Building a tree -/

/-- A bracket that is still open, with the place where it was opened and what it holds so far,
last one first. -/
inductive Frame where
  | array (opened : Position) (items : List Tree)
  /-- The value of `key` is being read. -/
  | object (opened : Position) (members : List (Except Fault String × Tree))
    (key : Except Fault String)

/-- How far the building of a tree has come. -/
inductive Build where
  /-- A value is expected; if `first`, the array just opened may close instead. -/
  | value (first : Bool) (frames : List Frame)
  /-- A key is expected; if `first`, the object just opened may close instead. -/
  | key (first : Bool) (opened : Position) (members : List (Except Fault String × Tree))
    (frames : List Frame)
  /-- The colon after a key is expected. -/
  | colon (opened : Position) (members : List (Except Fault String × Tree))
    (key : Except Fault String) (frames : List Frame)
  /-- A value was read; a comma or a closing bracket is expected, or the end. -/
  | after (tree : Tree) (frames : List Frame)
  /-- All that matters was read. -/
  | done (tree : Tree) (trailing : Option Fault)
  deriving Inhabited

namespace Build

/-- The number of levels that a value may have. -/
def depthLimit : Nat := 127

/-- A container with `outer` brackets around it, marked when it is nested too deeply. -/
def shut (outer : List Frame) (opened : Position) (tree : Tree) : Tree :=
  if outer.length = depthLimit then .tooDeep ⟨.tooDeep, opened⟩ tree else tree

/-- The tree that is left when nothing more can be read: `tree` is the innermost value, and
every bracket around it stays open for good. -/
def collapse (tree : Tree) : List Frame → Tree
  | [] => tree
  | .array opened items :: frames =>
    collapse (shut frames opened (.array (tree :: items).reverse none)) frames
  | .object opened members name :: frames =>
    collapse (shut frames opened (.object ((name, tree) :: members).reverse none)) frames

/-- The end of building at something that stands in place of a value. -/
def failValue (tree : Tree) (frames : List Frame) : Build :=
  .done (collapse tree frames) none

/-- The end of building at a fault in an array after its items. -/
def failItems (f : Fault) (opened : Position) (items : List Tree) (frames : List Frame) : Build :=
  .done (collapse (shut frames opened (.array items.reverse (some f))) frames) none

/-- The end of building at a fault in an object after its members. -/
def failMembers (f : Fault) (opened : Position) (members : List (Except Fault String × Tree))
    (frames : List Frame) : Build :=
  .done (collapse (shut frames opened (.object members.reverse (some f))) frames) none

/-- A token where a value is expected. -/
def feedValue (first : Bool) (frames : List Frame) (t : Token) : Build :=
  let fail (cause : Cause) : Build := failValue (.absent ⟨cause, t.position⟩) frames
  match t.lexeme with
  | .null => .after .null frames
  | .bool b => .after (.bool b) frames
  | .number n => .after (.number n) frames
  | .text s => .after (.text s) frames
  | .openBracket => .value true (.array t.position [] :: frames)
  | .openBrace => .key true t.position [] frames
  | .broken opening used skipped => failValue (.broken opening used skipped) frames
  | .closeBracket =>
    match frames with
    | .array opened items :: outer =>
      if first then .after (shut outer opened (.array items.reverse none)) outer
      else fail .trailingComma
    | _ => fail .expectedValue
  | .ending =>
    match frames with
    | .array opened items :: outer =>
      if first then failItems ⟨.listCut, t.position⟩ opened items outer else fail .valueCut
    | _ => fail .valueCut
  | _ => fail .expectedValue

/-- A token where a key is expected. -/
def feedKey (first : Bool) (opened : Position) (members : List (Except Fault String × Tree))
    (frames : List Frame) (t : Token) : Build :=
  let fail (cause : Cause) : Build := failMembers ⟨cause, t.position⟩ opened members frames
  match t.lexeme with
  | .text name => .colon opened members name frames
  | .broken '"' used skipped =>
    failValue (.broken '"' used skipped) (.object opened members (.error used) :: frames)
  | .closeBrace =>
    if first then .after (shut frames opened (.object members.reverse none)) frames
    else fail .trailingComma
  | .ending => fail (if first then .objectCut else .valueCut)
  | _ => fail .keyNotString

/-- A token after a value. -/
def feedAfter (tree : Tree) (frames : List Frame) (t : Token) : Build :=
  match frames with
  | [] =>
    match t.lexeme with
    | .ending => .done tree none
    | _ => .done tree (some ⟨.trailingCharacters, t.position⟩)
  | .array opened items :: outer =>
    match t.lexeme with
    | .comma => .value false (.array opened (tree :: items) :: outer)
    | .closeBracket => .after (shut outer opened (.array (tree :: items).reverse none)) outer
    | .ending => failItems ⟨.listCut, t.position⟩ opened (tree :: items) outer
    | _ => failItems ⟨.expectedCommaOrBracket, t.position⟩ opened (tree :: items) outer
  | .object opened members name :: outer =>
    match t.lexeme with
    | .comma => .key false opened ((name, tree) :: members) outer
    | .closeBrace =>
      .after (shut outer opened (.object ((name, tree) :: members).reverse none)) outer
    | .ending => failMembers ⟨.objectCut, t.position⟩ opened ((name, tree) :: members) outer
    | _ => failMembers ⟨.expectedCommaOrBrace, t.position⟩ opened ((name, tree) :: members) outer

/-- One token. -/
def feed (b : Build) (t : Token) : Build :=
  match b with
  | .value first frames => feedValue first frames t
  | .key first opened members frames => feedKey first opened members frames t
  | .colon opened members name frames =>
    let fail (cause : Cause) : Build :=
      failValue (.absent ⟨cause, t.position⟩) (.object opened members name :: frames)
    match t.lexeme with
    | .colon => .value false (.object opened members name :: frames)
    | .ending => fail .objectCut
    | _ => fail .expectedColon
  | .after tree frames => feedAfter tree frames t
  | .done tree trailing => .done tree trailing

end Build

/-- A text as a tree, with the fault of what follows the value. -/
structure Document where
  tree : Tree
  trailing : Option Fault
  deriving Inhabited

namespace Document

/-- The document that building has come to.  Building is over after the last token of a text, so
only the first case arises there. -/
def ofBuild : Build → Document
  | .done tree trailing => ⟨tree, trailing⟩
  | _ => ⟨.absent ⟨.valueCut, .start⟩, none⟩

/-- The document of a list of tokens. -/
def ofTokens (tokens : List Token) : Document :=
  ofBuild (tokens.foldl Build.feed (.value false []))

/-- The document of a text. -/
def ofText (text : String) : Document :=
  ofTokens (Token.scan text.toList)

/-- The free-form value that a text stands for, or its first fault. -/
def use (d : Document) : Except Fault Json := do
  let value ← d.tree.use
  Tree.ended d.trailing
  return value

end Document

/-- Reads a text as a free-form JSON value. -/
def Json.read (text : String) : Except Fault Json :=
  (Document.ofText text).use

end AgentLoop
