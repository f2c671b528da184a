import AgentLoop.Conversation.Transcript
import AgentLoop.Model
import AgentLoop.Tool.Outcome

/-!
# Failures

A failure is a fault of the way to the model, of a tool or of a conversation, worded with where it
comes from.
-/

namespace AgentLoop

/-- A fault, with where it comes from. -/
inductive Failure where
  | model (error : ModelError)
  | tool (error : ToolError)
  | transcript (error : TranscriptError)
  deriving DecidableEq, Repr, Inhabited

/-- The wording of a failure. -/
def Failure.message : Failure → String
  | model error => s!"Provider error: {error.message}"
  | tool error => s!"Tool error: {error.message}"
  | transcript error => s!"Transcript error: {error.message}"

end AgentLoop
