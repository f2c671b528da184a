import AgentLoop.Json.Reading

/-!
# Fields of records

A record is written as an object whose fields have a fixed order.  A field is always written, or it
is left out when there is nothing to say: when an optional value is absent or a collection is
empty.

* `Json.field`, `Json.fieldIfAny`, `Json.fieldUnlessEmpty` write one field.
* `Json.ofOption` writes an optional value as itself or as `null`.
* `Tree.named` reads one of some values by its name.
-/

namespace AgentLoop

namespace Json

/-- A field that is always written. -/
def field (name : String) (value : Json) : List (String × Json) := [(name, value)]

/-- A field that is left out when its value is absent. -/
def fieldIfAny {α : Type} (name : String) (write : α → Json) :
    Option α → List (String × Json)
  | none => []
  | some value => [(name, write value)]

/-- A field that is left out when its collection is empty. -/
def fieldUnlessEmpty {α : Type} (name : String) (write : List α → Json) :
    List α → List (String × Json)
  | [] => []
  | items => [(name, write items)]

/-- An optional value, `null` if it is absent. -/
def ofOption {α : Type} (write : α → Json) : Option α → Json
  | none => .null
  | some value => write value

/-- A list. -/
def list {α : Type} (write : α → Json) (items : List α) : Json := .arr (items.map write)

/-- A mapping. -/
def keyed {α : Type} (write : α → Json) (entries : Keyed α) : Json :=
  .obj (entries.map fun (key, value) => (key, write value))

/-- A point in time. -/
def timestamp (t : Timestamp) : Json := .str t.write

end Json

/-- Reads one of some values by its name. -/
def Tree.named {α : Type} (nameOf : α → String) (values : List α) : Tree → Except ReadError α :=
  Tree.name (values.map fun value => (nameOf value, value))

end AgentLoop
