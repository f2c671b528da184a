import AgentLoop.Collection.Keyed
import AgentLoop.Toml.Basic

/-!
# Reading typed values from TOML

A typed reader takes a value and gives what it denotes, if it denotes anything of the type.

* `Toml.toText`, `Toml.toNat`, `Toml.toList`, … read plain values and collections.
* `Toml.toRecord` gives the fields of a record: those of a table by name, or the items of an array
  in the order of the fields.  `Fields.get` reads a field or gives its default.
-/

namespace AgentLoop.Toml

/-- A text. -/
def toText : Toml → Option String
  | .text s => some s
  | _ => none

/-- A truth value. -/
def toBool : Toml → Option Bool
  | .bool b => some b
  | _ => none

/-- A natural number below a limit. -/
def toNat (limit : Nat) : Toml → Option Nat
  | .integer (.ofNat n) => if n < limit then some n else none
  | _ => none

/-- A count of 32 bits. -/
def toNat32 : Toml → Option Nat := toNat 0x100000000

/-- A count of 64 bits. -/
def toNat64 : Toml → Option Nat := toNat 0x10000000000000000

/-- A 32-bit binary number. -/
def toBinary32 : Toml → Option Binary
  | .integer i => some (binary32.ofInt i)
  | .float x => some (binary32.narrow x)
  | _ => none

/-- A list. -/
def toList {α : Type} (read : Toml → Option α) : Toml → Option (List α)
  | .array items => items.mapM read
  | _ => none

/-- A mapping from texts. -/
def toKeyed {α : Type} (read : Toml → Option α) : Toml → Option (Keyed α)
  | .table entries =>
    (entries.mapM fun entry => (read entry.2).map fun v => (entry.1, v)).map Keyed.ofList
  | _ => none

/-- One of some values, given by its name, or by a table whose only key is its name and whose
value there is empty. -/
def toNamed {α : Type} (variants : List (String × α)) : Toml → Option α
  | .text name => variants.lookup name
  | .table [(name, .table [])] | .table [(name, .array [])] => variants.lookup name
  | _ => none

/-- The fields of a record. -/
inductive Fields where
  | named (entries : TomlTable)
  | listed (names : List String) (items : List Toml)

/-- The fields of a record with the given names.  A date or time counts as a record without
fields. -/
def toRecord (names : List String) : Toml → Option Fields
  | .table entries => some (.named entries)
  | .array items => some (.listed names items)
  | .dateTime _ => some (.named [])
  | _ => none

namespace Fields

/-- The value of a field, if it is there. -/
def find? (fields : Fields) (name : String) : Option Toml :=
  match fields with
  | named entries => entries.lookup name
  | listed names items => items[names.idxOf name]?

/-- Reads a field, or gives the default of one that is not there. -/
def get {α : Type} (fields : Fields) (name : String) (read : Toml → Option α) (default : α) :
    Option α :=
  match fields.find? name with
  | some value => read value
  | none => some default

/-- Reads a field that need not be there. -/
def get? {α : Type} (fields : Fields) (name : String) (read : Toml → Option α) :
    Option (Option α) :=
  fields.get name (fun value => (read value).map some) none

end Fields

end AgentLoop.Toml
