import AgentLoop.Collection.Keyed
import AgentLoop.Number.Binary

/-!
# JSON values

A JSON value keeps the fields of an object in the order in which they are written.  Records of
this library write their fields in a fixed order; free-form objects, such as the arguments of a
tool call, are kept *canonical*: keys strictly increasing and therefore different.

* `Json` and `JsonNumber` are the values, `JsonObject` is the list of fields of one object.
* `Json.Canonical` says that every object inside a value is canonical and every integer fits into
  64 bits, signed or unsigned: exactly the free-form values that reading a text can yield.
-/

namespace AgentLoop

/-- A JSON number.  Reading yields an integer of at most 64 bits or a 64-bit binary number; a
record that holds a 32-bit binary number writes it with the digits that format needs. -/
inductive JsonNumber where
  | int (value : Int)
  | real (value : Binary)
  | single (value : Binary)
  deriving DecidableEq, Repr, Inhabited

/-- A JSON value. -/
inductive Json where
  | null
  | bool (value : Bool)
  | num (value : JsonNumber)
  | str (value : String)
  | arr (items : List Json)
  | obj (fields : List (String × Json))
  deriving Repr, Inhabited

/-- The fields of one object; canonical when it is a mapping sorted by key. -/
abbrev JsonObject := Keyed Json

namespace Json

/-- An integer as a JSON value. -/
def int (i : Int) : Json := .num (.int i)

/-- A natural number as a JSON value. -/
def nat (n : Nat) : Json := .num (.int n)

/-- A list of texts as a JSON value. -/
def strings (texts : List String) : Json := .arr (texts.map .str)

/-- The kind of a value, as an error message names it. -/
def kind : Json → String
  | null => "null"
  | bool _ => "a boolean"
  | num _ => "a number"
  | str _ => "a string"
  | arr _ => "an array"
  | obj _ => "an object"

end Json

/-- The number fits into 64 bits, signed or unsigned, or is a finite binary number. -/
def JsonNumber.Representable : JsonNumber → Prop
  | int i => -0x8000000000000000 ≤ i ∧ i < 0x10000000000000000
  | real x => x.isFinite = true
  | single _ => False

mutual

/-- Every object inside the value has strictly increasing keys, and every number is one that a
text can denote. -/
def Json.Canonical : Json → Prop
  | .num n => n.Representable
  | .arr items => Json.CanonicalItems items
  | .obj fields => Keyed.Sorted fields ∧ Json.CanonicalFields fields
  | _ => True

/-- `Json.Canonical` for every item of an array. -/
def Json.CanonicalItems : List Json → Prop
  | [] => True
  | item :: items => item.Canonical ∧ Json.CanonicalItems items

/-- `Json.Canonical` for the value of every field of an object. -/
def Json.CanonicalFields : List (String × Json) → Prop
  | [] => True
  | (_, value) :: fields => value.Canonical ∧ Json.CanonicalFields fields

end

mutual

/-- Every number inside the value is an integer. -/
def Json.IntegersOnly : Json → Prop
  | .num (.real _) | .num (.single _) => False
  | .arr items => Json.IntegersOnlyItems items
  | .obj fields => Json.IntegersOnlyFields fields
  | _ => True

/-- `Json.IntegersOnly` for every item of an array. -/
def Json.IntegersOnlyItems : List Json → Prop
  | [] => True
  | item :: items => item.IntegersOnly ∧ Json.IntegersOnlyItems items

/-- `Json.IntegersOnly` for the value of every field of an object. -/
def Json.IntegersOnlyFields : List (String × Json) → Prop
  | [] => True
  | (_, value) :: fields => value.IntegersOnly ∧ Json.IntegersOnlyFields fields

end

mutual

/-- How many levels of brackets the value has. -/
def Json.depth : Json → Nat
  | .arr items => Json.depthItems items + 1
  | .obj fields => Json.depthFields fields + 1
  | _ => 0

/-- The largest depth of an item. -/
def Json.depthItems : List Json → Nat
  | [] => 0
  | item :: items => max item.depth (Json.depthItems items)

/-- The largest depth of the value of a field. -/
def Json.depthFields : List (String × Json) → Nat
  | [] => 0
  | (_, value) :: fields => max value.depth (Json.depthFields fields)

end

mutual

/-- Equality of JSON values, decided structurally. -/
def Json.beq : Json → Json → Bool
  | .null, .null => true
  | .bool a, .bool b => a == b
  | .num a, .num b => a == b
  | .str a, .str b => a == b
  | .arr a, .arr b => Json.beqItems a b
  | .obj a, .obj b => Json.beqFields a b
  | _, _ => false

/-- Equality of the items of two arrays. -/
def Json.beqItems : List Json → List Json → Bool
  | [], [] => true
  | a :: as, b :: bs => a.beq b && Json.beqItems as bs
  | _, _ => false

/-- Equality of the fields of two objects, order included. -/
def Json.beqFields : List (String × Json) → List (String × Json) → Bool
  | [], [] => true
  | (k, a) :: as, (l, b) :: bs => k == l && a.beq b && Json.beqFields as bs
  | _, _ => false

end

mutual

theorem Json.eq_of_beq : ∀ {a b : Json}, a.beq b = true → a = b
  | .null, .null, _ => rfl
  | .bool a, .bool b, h => by simp_all [Json.beq]
  | .num a, .num b, h => by simp_all [Json.beq]
  | .str a, .str b, h => by simp_all [Json.beq]
  | .arr a, .arr b, h => by
    rw [Json.beq] at h
    rw [Json.eq_of_beqItems h]
  | .obj a, .obj b, h => by
    rw [Json.beq] at h
    rw [Json.eq_of_beqFields h]

theorem Json.eq_of_beqItems : ∀ {a b : List Json}, Json.beqItems a b = true → a = b
  | [], [], _ => rfl
  | a :: as, b :: bs, h => by
    simp only [Json.beqItems, Bool.and_eq_true] at h
    rw [Json.eq_of_beq h.1, Json.eq_of_beqItems h.2]

theorem Json.eq_of_beqFields : ∀ {a b : List (String × Json)}, Json.beqFields a b = true → a = b
  | [], [], _ => rfl
  | (k, a) :: as, (l, b) :: bs, h => by
    simp only [Json.beqFields, Bool.and_eq_true, beq_iff_eq] at h
    rw [h.1.1, Json.eq_of_beq h.1.2, Json.eq_of_beqFields h.2]

end

mutual

theorem Json.beq_self : ∀ a : Json, a.beq a = true
  | .null => rfl
  | .bool _ => by simp [Json.beq]
  | .num _ => by simp [Json.beq]
  | .str _ => by simp [Json.beq]
  | .arr a => by rw [Json.beq]; exact Json.beqItems_self a
  | .obj a => by rw [Json.beq]; exact Json.beqFields_self a

theorem Json.beqItems_self : ∀ a : List Json, Json.beqItems a a = true
  | [] => rfl
  | a :: as => by simp [Json.beqItems, a.beq_self, Json.beqItems_self as]

theorem Json.beqFields_self : ∀ a : List (String × Json), Json.beqFields a a = true
  | [] => rfl
  | (k, a) :: as => by simp [Json.beqFields, a.beq_self, Json.beqFields_self as]

end

instance : DecidableEq Json := fun a b =>
  if h : a.beq b = true then isTrue (Json.eq_of_beq h)
  else isFalse fun e => h (e ▸ a.beq_self)

end AgentLoop
