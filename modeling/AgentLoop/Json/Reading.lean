import AgentLoop.Collection.NameSet
import AgentLoop.Json.Tree
import AgentLoop.Time.Rfc3339

/-!
# Reading typed values from JSON

A typed reader takes a tree and gives a value, or the first thing that is wrong in the order of
the text: a fault of the text itself, or a misfit between text and type.

* `ReadError` lists what can be wrong; `ReadError.kind` is its class, `ReadError.message` the
  wording of those that are worded.
* `Tree.toText`, `Tree.toNat`, `Tree.toList`, … read plain values and collections.
* `Tree.record` reads a record.  Its fields are surveyed independently of each other, each
  finding being tagged with the place of the member it belongs to, and the finding that comes
  first in the text wins; a missing field is found missing at the end of the object.  A record may
  also be given as an array of its fields in order.
* `Tree.variant` reads one of several named alternatives, `Tree.tagged` an object that names its
  alternative in one of its fields.
-/

namespace AgentLoop

/-- What is wrong with a text that is read as a typed value. -/
inductive ReadError where
  /-- The text is no JSON, or breaks off. -/
  | malformed (cause : Cause)
  /-- A value of another type, or out of range. -/
  | mismatch
  | missingField (name : String)
  | duplicateField (name : String)
  | unknownVariant (found : String) (expected : List String)
  deriving DecidableEq, Repr, Inhabited

/-- The classes of reading errors. -/
inductive ReadErrorKind where
  /-- The text is no JSON. -/
  | syntactic
  /-- The text ended too early. -/
  | cut
  /-- The text is JSON but does not fit the type. -/
  | data
  deriving DecidableEq, Repr

namespace ReadError

/-- The class of an error. -/
def kind : ReadError → ReadErrorKind
  | malformed cause => if cause.isCut then .cut else .syntactic
  | _ => .data

/-- Names in a row, as an error lists what it expected. -/
def alternatives : List String → String
  | [] => "there are no variants"
  | [a] => s!"expected `{a}`"
  | [a, b] => s!"expected `{a}` or `{b}`"
  | names => "expected one of " ++ ", ".intercalate (names.map fun n => s!"`{n}`")

/-- The wording of an error about fields and variants. -/
def message : ReadError → Option String
  | missingField name => some s!"missing field `{name}`"
  | duplicateField name => some s!"duplicate field `{name}`"
  | unknownVariant found expected =>
    some s!"unknown variant `{found}`, {alternatives expected}"
  | _ => none

end ReadError

namespace Tree

/-- A fault of the text as a reading error. -/
def faulty {α : Type} (r : Except Fault α) : Except ReadError α :=
  r.mapError fun f => .malformed f.cause

/-- What is wrong with a value of the wrong type: a scalar is read before it is refused, so its
own fault comes first; a bracket is not entered. -/
def misfit : Tree → ReadError
  | .number (.error f) | .text (.error f) | .absent f => .malformed f.cause
  | .broken _ used _ => .malformed used.cause
  | _ => .mismatch

/-! ## Plain values -/

/-- A text. -/
def toText : Tree → Except ReadError String
  | .text s => faulty s
  | t => .error t.misfit

/-- A truth value. -/
def toBool : Tree → Except ReadError Bool
  | .bool b => .ok b
  | t => .error t.misfit

/-- A number. -/
def toNumber : Tree → Except ReadError JsonNumber
  | .number n => faulty n
  | t => .error t.misfit

/-- A natural number below a limit. -/
def toNat (limit : Nat) (t : Tree) : Except ReadError Nat := do
  match ← t.toNumber with
  | .int (.ofNat n) => if n < limit then .ok n else .error .mismatch
  | _ => .error .mismatch

/-- A count of 32 bits. -/
def toNat32 : Tree → Except ReadError Nat := toNat 0x100000000

/-- A count of 64 bits. -/
def toNat64 : Tree → Except ReadError Nat := toNat 0x10000000000000000

/-- A 32-bit binary number, rounded from an integer or from a 64-bit binary number. -/
def toBinary32 (t : Tree) : Except ReadError Binary := do
  match ← t.toNumber with
  | .int i => .ok (binary32.ofInt i)
  | .real x | .single x => .ok (binary32.narrow x)

/-- A point in time. -/
def toTimestamp (t : Tree) : Except ReadError Timestamp := do
  match Timestamp.read? (← t.toText) with
  | some time => .ok time
  | none => .error .mismatch

/-- A free-form value. -/
def toJson (t : Tree) : Except ReadError Json := faulty t.use

/-! ## Collections -/

/-- A value that may be `null`. -/
def toOption {α : Type} (read : Tree → Except ReadError α) : Tree → Except ReadError (Option α)
  | .null => .ok none
  | .broken 'n' used _ => .error (.malformed used.cause)
  | t => (read t).map some

/-- Reads all items of an array, then looks at its end. -/
def readItems {α : Type} (read : Tree → Except ReadError α) (ending : Option Fault) :
    List Tree → Except ReadError (List α)
  | [] => (faulty (ended ending)).map fun _ => []
  | item :: items => do
    let item ← read item
    let items ← readItems read ending items
    return item :: items

/-- A list. -/
def toList {α : Type} (read : Tree → Except ReadError α) : Tree → Except ReadError (List α)
  | .array items ending => readItems read ending items
  | .tooDeep f _ => .error (.malformed f.cause)
  | t => .error t.misfit

/-- Reads all members of an object, then looks at its end. -/
def readEntries {α : Type} (read : Tree → Except ReadError α) (ending : Option Fault) :
    List (Except Fault String × Tree) → Except ReadError (List (String × α))
  | [] => (faulty (ended ending)).map fun _ => []
  | (key, value) :: members => do
    let key ← faulty key
    let value ← read value
    let entries ← readEntries read ending members
    return (key, value) :: entries

/-- A mapping from texts. -/
def toKeyed {α : Type} (read : Tree → Except ReadError α) : Tree → Except ReadError (Keyed α)
  | .object members ending => (readEntries read ending members).map Keyed.ofList
  | .tooDeep f _ => .error (.malformed f.cause)
  | t => .error t.misfit

/-- A set of names. -/
def toNameSet (t : Tree) : Except ReadError NameSet :=
  (t.toList toText).map NameSet.ofList

/-- A free-form object. -/
def toJsonObject (t : Tree) : Except ReadError JsonObject := t.toKeyed toJson

end Tree

/-! ## Records -/

/-- Several independent findings about one text: the values found, or the error that comes first
in the text. -/
structure Survey (α : Type) where
  result : Except (Nat × ReadError) α

namespace Survey

/-- Two findings together.  Of two errors the one with the smaller place counts, and of two at
one place the first. -/
def both {α β : Type} (a : Except (Nat × ReadError) (α → β)) (b : Except (Nat × ReadError) α) :
    Except (Nat × ReadError) β :=
  match a, b with
  | .ok f, .ok x => .ok (f x)
  | .error e, .ok _ => .error e
  | .ok _, .error e => .error e
  | .error e, .error e' => .error (if e'.1 < e.1 then e' else e)

instance : Applicative Survey where
  pure x := ⟨.ok x⟩
  seq f x := ⟨both f.result (x ()).result⟩

/-- A finding at a place. -/
def found {α : Type} (place : Nat) (r : Except ReadError α) : Survey α :=
  ⟨r.mapError fun e => (place, e)⟩

end Survey

/-- What the fields of a record are read from: the members of an object or the items of an
array, with what is wrong at the end. -/
inductive RecordSource where
  | members (members : List (Except Fault String × Tree)) (ending : Option Fault)
  | items (items : List Tree) (ending : Option Fault)

/-- A record being read: its source, and the names of its fields in order. -/
structure RecordView where
  names : List String
  source : RecordSource

namespace RecordView

/-- The members of the given name with their places. -/
def occurrences (name : String) (place : Nat) :
    List (Except Fault String × Tree) → List (Nat × Tree)
  | [] => []
  | (key, value) :: members =>
    match key with
    | .ok k =>
      if k = name then (place, value) :: occurrences name (place + 1) members
      else occurrences name (place + 1) members
    | .error _ => occurrences name (place + 1) members

/-- A field by name: what is found for it, or `missing` if it is not there. -/
def field {α : Type} (r : RecordView) (name : String) (read : Tree → Except ReadError α)
    (missing : Except ReadError α) : Survey α :=
  match r.source with
  | .members members _ =>
    match occurrences name 0 members with
    | [] => .found (members.length + 1) missing
    | [(place, value)] => .found place (read value)
    | (place, value) :: (again, _) :: _ =>
      match read value with
      | .error e => .found place (.error e)
      | .ok _ => .found again (.error (.duplicateField name))
  | .items items _ =>
    let place := r.names.idxOf name
    match items[place]? with
    | some value => .found place (read value)
    | none =>
      match missing with
      | .ok value => .found place (.ok value)
      | .error _ => .found place (.error .mismatch)

/-- A field that must be there. -/
def required {α : Type} (r : RecordView) (name : String) (read : Tree → Except ReadError α) :
    Survey α :=
  r.field name read (.error (.missingField name))

/-- A field with a value to stand for it when it is not there. -/
def defaulted {α : Type} (r : RecordView) (name : String) (read : Tree → Except ReadError α)
    (default : α) : Survey α :=
  r.field name read (.ok default)

/-- A field that may be `null`, and is when it is not there.  In an array a field of this kind
must be there. -/
def optional {α : Type} (r : RecordView) (name : String) (read : Tree → Except ReadError α) :
    Survey (Option α) :=
  match r.source with
  | .members .. => r.field name (Tree.toOption read) (.ok none)
  | .items .. => r.field name (Tree.toOption read) (.error .mismatch)

/-- Passes over the members that are no fields, and looks at the end of the object. -/
def restOfMembers (names : List String) (place : Nat) (ending : Option Fault) :
    List (Except Fault String × Tree) → Survey Unit
  | [] => .found place (Tree.faulty (Tree.ended ending))
  | (.error f, _) :: _ => .found place (.error (.malformed f.cause))
  | (.ok key, value) :: members =>
    if names.contains key then restOfMembers names (place + 1) ending members
    else
      match value.skip with
      | .ok _ => restOfMembers names (place + 1) ending members
      | .error f => .found place (.error (.malformed f.cause))

/-- What there is besides the fields: other members are passed over, other items are refused. -/
def rest (r : RecordView) : Survey Unit :=
  match r.source with
  | .members members ending => restOfMembers r.names 0 ending members
  | .items items ending =>
    let count := r.names.length
    if items.length < count then .found items.length (Tree.faulty (Tree.ended ending))
    else if count < items.length then .found count (.error (.malformed .trailingCharacters))
    else
      match ending with
      | none => .found count (.ok ())
      | some ⟨.listCut, _⟩ => .found count (.error (.malformed .listCut))
      | some _ => .found count (.error (.malformed .trailingCharacters))

end RecordView

namespace Tree

/-- The view of a tree as a record with the given field names. -/
def asRecord (names : List String) : Tree → Except ReadError RecordView
  | .object members ending => .ok ⟨names, .members members ending⟩
  | .array items ending => .ok ⟨names, .items items ending⟩
  | .tooDeep f _ => .error (.malformed f.cause)
  | t => .error t.misfit

/-- A record: `build` surveys its fields, whose names are given in their order. -/
def record {α : Type} (names : List String) (build : RecordView → Survey α) (t : Tree) :
    Except ReadError α := do
  let view ← t.asRecord names
  (((fun _ value => value) <$> view.rest <*> build view).result).mapError Prod.snd

end Tree

/-! ## Alternatives -/

/-- What a named alternative carries. -/
inductive VariantForm (α : Type) where
  /-- Nothing: the alternative is its name. -/
  | unit (value : α)
  /-- One value. -/
  | payload (read : Tree → Except ReadError α)

namespace Tree

/-- The alternative of a name. -/
def lookUp {β : Type} (variants : List (String × β)) (name : String) : Except ReadError β :=
  match variants.lookup name with
  | some form => .ok form
  | none => .error (.unknownVariant name (variants.map Prod.fst))

/-- What is wrong with an object without members where an alternative is expected. -/
def nameless : Option Fault → ReadError
  | none => .malformed .expectedValue
  | some f => .malformed f.cause

/-- The value of an alternative that is written as an object of one member. -/
def readForm {α : Type} (form : VariantForm α) (value : Tree) : Except ReadError α :=
  match form with
  | .unit result =>
    match value with
    | .null => .ok result
    | t => .error t.misfit
  | .payload read => read value

/-- One of several named alternatives: its name, or an object whose only key is its name. -/
def variant {α : Type} (variants : List (String × VariantForm α)) : Tree → Except ReadError α
  | .text s => do
    match ← lookUp variants (← faulty s) with
    | .unit result => .ok result
    | .payload _ => .error .mismatch
  | .object [] ending => .error (nameless ending)
  | .object ((key, value) :: members) ending => do
    let form ← lookUp variants (← faulty key)
    let result ← readForm form value
    match members, ending with
    | [], none => .ok result
    | [], some ⟨.objectCut, _⟩ => .error (.malformed .objectCut)
    | _, _ => .error (.malformed .expectedValue)
  | .tooDeep f _ => .error (.malformed f.cause)
  | .broken '"' used _ => .error (.malformed used.cause)
  | .absent f => .error (.malformed f.cause)
  | _ => .error (.malformed .expectedValue)

/-- One of several names. -/
def name {α : Type} (variants : List (String × α)) : Tree → Except ReadError α :=
  variant (variants.map fun (name, value) => (name, .unit value))

/-- The fields beside the tag of a tagged object: members in order, or items. -/
inductive Untagged where
  | members (fields : List (String × Json))
  | items (values : List Json)

/-- Goes through the members of a tagged object and parts the tag from the others. -/
def tagOfMembers {β : Type} (tag : String) (variants : List (String × β))
    (ending : Option Fault) (found : Option β) :
    List (Except Fault String × Tree) → Except ReadError (β × List (String × Json))
  | [] => do
    faulty (ended ending)
    match found with
    | some form => .ok (form, [])
    | none => .error (.missingField tag)
  | (key, value) :: members => do
    let key ← faulty key
    if key = tag then
      if found.isSome then .error (.duplicateField tag)
      else
        let form ← lookUp variants (← value.toText)
        tagOfMembers tag variants ending (some form) members
    else
      let value ← value.toJson
      let (form, fields) ← tagOfMembers tag variants ending found members
      return (form, (key, value) :: fields)

/-- The alternative that a tagged object names, with its other fields.  In an array the tag comes
first. -/
def tagged {β : Type} (tag : String) (variants : List (String × β)) :
    Tree → Except ReadError (β × Untagged)
  | .object members ending =>
    (tagOfMembers tag variants ending none members).map fun (form, fields) =>
      (form, .members fields)
  | .array [] ending => do
    faulty (ended ending)
    .error (.missingField tag)
  | .array (first :: items) ending => do
    let form ← lookUp variants (← first.toText)
    let values ← readItems toJson ending items
    return (form, .items values)
  | .tooDeep f _ => .error (.malformed f.cause)
  | t => .error t.misfit

namespace Untagged

/-- Nothing beside the tag: other members are ignored, other items are refused. -/
def nothing : Untagged → Except ReadError Unit
  | .members _ => .ok ()
  | .items [] => .ok ()
  | .items _ => .error .mismatch

/-- A text among the members: the first of its name, which must be the only one. -/
def textOfMembers (name : String) (found : Option String) :
    List (String × Json) → Except ReadError String
  | [] =>
    match found with
    | some s => .ok s
    | none => .error (.missingField name)
  | (key, value) :: fields =>
    if key = name then
      if found.isSome then .error (.duplicateField name)
      else
        match value with
        | .str s => textOfMembers name (some s) fields
        | _ => .error .mismatch
    else textOfMembers name found fields

/-- The one text beside the tag. -/
def text (name : String) : Untagged → Except ReadError String
  | .members fields => textOfMembers name none fields
  | .items [.str s] => .ok s
  | .items _ => .error .mismatch

end Untagged

end Tree

/-- Reads a whole text as a typed value; what follows the value is looked at last. -/
def Json.readAs {α : Type} (read : Tree → Except ReadError α) (text : String) :
    Except ReadError α := do
  let document := Document.ofText text
  let value ← read document.tree
  Tree.faulty (Tree.ended document.trailing)
  return value

end AgentLoop
