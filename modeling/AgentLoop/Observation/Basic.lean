import AgentLoop.Json.Basic
import AgentLoop.Time.Timestamp

/-!
# Observations

While it runs, a loop tells an observer about every reply of the model and about every tool call
it dispatched.  An observation has a content and free-form metadata.
-/

namespace AgentLoop

/-- What was observed. -/
inductive ObservationKind where
  | modelReply
  | toolCall
  deriving DecidableEq, Repr, Inhabited

/-- The name of a kind. -/
def ObservationKind.name : ObservationKind → String
  | modelReply => "llm_response"
  | toolCall => "tool_call"

/-- One thing observed. -/
structure Observation where
  kind : ObservationKind
  content : String
  metadata : JsonObject
  timestamp : Timestamp
  deriving DecidableEq, Repr, Inhabited

namespace Observation

/-- An observation with metadata entered one after the other. -/
def of (kind : ObservationKind) (content : String) (metadata : List (String × Json))
    (timestamp : Timestamp) : Observation :=
  ⟨kind, content, .ofList metadata, timestamp⟩

end Observation

end AgentLoop
