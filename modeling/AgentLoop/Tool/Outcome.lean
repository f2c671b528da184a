import AgentLoop.Json.Basic

/-!
# Tools and what their calls come to

* `ToolDefinition` is what a model is told about a tool.
* `ToolOutcome` is the result of one attempt to execute a call; `ToolOutcome.content` is the text
  handed back to the model.
* `ToolError` lists what a tool reports when it fails.
-/

namespace AgentLoop

/-- What a model is told about a tool. -/
structure ToolDefinition where
  name : String
  description : String
  /-- The schema of the arguments. -/
  parameters : Json
  deriving DecidableEq, Repr, Inhabited

/-- The result of one attempt to execute a call. -/
inductive ToolOutcome where
  /-- The tool ran and produced output. -/
  | success (output : String)
  /-- The tool could not run, took too long or reported an error. -/
  | failure (error : String)
  /-- The call was given up before it finished. -/
  | cancelled
  deriving DecidableEq, Repr, Inhabited

namespace ToolOutcome

/-- The tool ran and produced output. -/
def succeeded : ToolOutcome → Bool
  | success _ => true
  | _ => false

/-- The text handed back to the model. -/
def content : ToolOutcome → String
  | success output => output
  | failure error => s!"Error: {error}"
  | cancelled => "Tool call cancelled before completion"

/-- A short word for the result. -/
def label : ToolOutcome → String
  | success _ => "success"
  | failure _ => "failure"
  | cancelled => "cancelled"

end ToolOutcome

/-- What a tool reports when it fails. -/
inductive ToolError where
  | notFound (name : String)
  | executionFailed (toolName reason : String)
  | invalidArguments (reason : String)
  deriving DecidableEq, Repr, Inhabited

/-- The wording of a tool's error. -/
def ToolError.message : ToolError → String
  | notFound name => s!"Tool not found: {name}"
  | executionFailed toolName reason => s!"Tool execution failed: {toolName}: {reason}"
  | invalidArguments reason => s!"Invalid tool arguments: {reason}"

end AgentLoop
