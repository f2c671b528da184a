import AgentLoop.Json.Printer
import AgentLoop.Json.Tree
import AgentLoop.Text.Blank

/-!
# Arguments of a tool call

A model encodes the arguments of a call as a text of its own making.  The text is read
defensively: blank means no arguments, a JSON object is taken as it is, and everything else is
refused with a reason that the model gets to see.

* `Arguments.read` reads such a text, `Arguments.write` encodes a value as a scripted model does.
* `ArgumentsError` says why a text was refused, `ArgumentsError.message` words it.
-/

namespace AgentLoop

/-- Why the arguments of a call were refused. -/
inductive ArgumentsError where
  /-- The text is no JSON. -/
  | malformed (fault : Fault)
  /-- The text is JSON but no object. -/
  | notObject (value : Json)
  deriving Repr

/-- The reason as the model gets to see it. -/
def ArgumentsError.message : ArgumentsError → String
  | malformed fault => s!"malformed JSON: {fault.message}"
  | notObject value => s!"expected a JSON object, got {value.kind}"

namespace Arguments

/-- The object that a text encodes.  A blank text stands for the empty object. -/
def read (text : String) : Except ArgumentsError JsonObject :=
  if Text.allBlank text then .ok []
  else
    match Json.read (Text.trim text) with
    | .ok (.obj fields) => .ok fields
    | .ok value => .error (.notObject value)
    | .error fault => .error (.malformed fault)

/-- The text that encodes a value: nothing for `null`, a text as it is, and any other value as
compact JSON. -/
def write : Json → String
  | .null => ""
  | .str text => text
  | value => value.compact

end Arguments

end AgentLoop
