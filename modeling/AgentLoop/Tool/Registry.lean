import AgentLoop.Collection.Keyed
import AgentLoop.Governance.Context
import AgentLoop.Run.Pending
import AgentLoop.Tool.Outcome

/-!
# The tool registry

A registry knows tools by name.  Registering a tool under a name that is taken replaces the
earlier one; the definitions come sorted by name, so requests do not depend on the order of
registration.

* `Tool` is a definition with a behaviour.
* `Registry.register`, `find?`, `definitions` and `execute` are the operations; a call of an
  unknown tool is an ordinary failure.
-/

namespace AgentLoop

/-- A tool: what the model is told about it, and what it does. -/
structure Tool where
  definition : ToolDefinition
  run : Json → ExecutionContext → Pending (Except ToolError String)

/-- The outcome of what a tool reports. -/
def ToolOutcome.ofReport : Except ToolError String → ToolOutcome
  | .ok output => .success output
  | .error e => .failure e.message

/-- The tools by name. -/
abbrev Registry := Keyed Tool

namespace Registry

/-- The registry with one more tool, under the name in its definition. -/
def register (r : Registry) (tool : Tool) : Registry := Keyed.insert tool.definition.name tool r

/-- The registry of a list of tools. -/
def ofTools (tools : List Tool) : Registry := tools.foldl register []

/-- The tool of a name. -/
def find? (r : Registry) (name : String) : Option Tool := Keyed.get? name r

/-- There is a tool of the name. -/
def knows (r : Registry) (name : String) : Bool := (r.find? name).isSome

/-- What a model is told about the tools, sorted by name. -/
def definitions (r : Registry) : List ToolDefinition := r.map fun entry => entry.2.definition

/-- The names of the tools, sorted. -/
def names (r : Registry) : List String := Keyed.keys r

/-- Executes a call. -/
def execute (r : Registry) (name : String) (arguments : Json) (context : ExecutionContext) :
    Pending ToolOutcome :=
  match r.find? name with
  | none => .now (.failure (ToolError.notFound name).message)
  | some tool => (tool.run arguments context).map ToolOutcome.ofReport

end Registry

end AgentLoop
