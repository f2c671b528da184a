import AgentLoop.Conversation.Message
import AgentLoop.Tool.Outcome

/-!
# The model

A model is asked with the whole conversation and the tools on offer, and gives one complete reply
or fails.

* `ModelRequest`, `ModelReply` and `Usage` are what goes in and what comes out.
* `ModelError` lists the faults of the way to the model, `ModelError.message` words them.
-/

namespace AgentLoop

/-- The tokens that one reply took; counts of 32 bits. -/
structure Usage where
  promptTokens : Nat
  completionTokens : Nat
  totalTokens : Nat
  deriving DecidableEq, Repr, Inhabited

/-- The usage of a prompt and a completion.  The total stays at the largest count of 32 bits. -/
def Usage.of (prompt completion : Nat) : Usage :=
  ⟨prompt, completion, min (prompt + completion) 0xffffffff⟩

/-- Why the model stopped writing. -/
inductive FinishReason where
  | stop
  | toolCalls
  | length
  | contentFilter
  | other (reason : String)
  deriving DecidableEq, Repr, Inhabited

/-- What the model is asked. -/
structure ModelRequest where
  model : String
  messages : List Message
  tools : List ToolDefinition
  temperature : Binary
  maxTokens : Option Nat
  deriving DecidableEq, Repr, Inhabited

/-- A complete reply of the model. -/
structure ModelReply where
  content : String
  /-- The calls requested; none make the reply a text. -/
  toolCalls : List ToolCall
  finishReason : FinishReason
  usage : Option Usage
  /-- The model that replied, which need not be the one that was asked. -/
  model : String
  deriving DecidableEq, Repr, Inhabited

namespace ModelReply

/-- A reply that is only a text. -/
def text (content : String) : ModelReply :=
  ⟨content, [], .stop, none, ""⟩

/-- A reply that requests tool calls. -/
def calls (content : String) (toolCalls : List ToolCall) : ModelReply :=
  ⟨content, toolCalls, .toolCalls, none, ""⟩

/-- The reply as a message of the assistant, content and calls kept. -/
def toMessage (r : ModelReply) (stamp : Stamp) : Message :=
  .assistant stamp r.content r.toolCalls

end ModelReply

/-- The faults of the way to the model. -/
inductive ModelError where
  | apiError (statusCode : Nat) (message : String)
  | rateLimited (retryAfterSecs : Nat)
  | timeout (message : String)
  | network (message : String)
  /-- A script had no reply left after having served some. -/
  | exhausted (served : Nat)
  deriving DecidableEq, Repr, Inhabited

/-- The wording of a fault. -/
def ModelError.message : ModelError → String
  | apiError statusCode message => s!"API request failed: {message} (status: {statusCode})"
  | rateLimited secs => s!"Rate limited by provider, retry after {secs}s"
  | timeout message => s!"Request timed out: {message}"
  | network message => s!"Network error: {message}"
  | exhausted served => s!"Scripted provider exhausted after {served} responses"

end AgentLoop
