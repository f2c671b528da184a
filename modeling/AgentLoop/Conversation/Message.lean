import AgentLoop.Time.Timestamp

/-!
# Messages

A conversation is a sequence of messages.  Each has a role; a message of the assistant may
request tool calls, and a message with the role of a tool answers one call.

* `Role`, `ToolCall` and `Message` are the data.
* A message gets its identity from a `Stamp`; `Message.system`, `Message.user`,
  `Message.assistant` and `Message.toolResult` make the four kinds.
-/

namespace AgentLoop

/-- Who speaks in a message. -/
inductive Role where
  | system
  | user
  | assistant
  | tool
  deriving DecidableEq, Repr, Inhabited

/-- The name of a role. -/
def Role.name : Role → String
  | system => "system"
  | user => "user"
  | assistant => "assistant"
  | tool => "tool"

/-- A tool call as the model wrote it.  The arguments are a text that nobody has read yet. -/
structure ToolCall where
  id : String
  name : String
  arguments : String
  deriving DecidableEq, Repr, Inhabited

/-- One entry of a conversation. -/
structure Message where
  id : String
  role : Role
  content : String
  /-- The calls that a message of the assistant requests. -/
  toolCalls : List ToolCall
  /-- The call that a message of a tool answers. -/
  toolCallId : Option String
  /-- The tool that was called. -/
  toolName : Option String
  timestamp : Timestamp
  deriving DecidableEq, Repr, Inhabited

/-- What a new message is given besides its content. -/
structure Stamp where
  id : String
  time : Timestamp
  deriving DecidableEq, Repr, Inhabited

namespace Message

/-- A message of a role with nothing but a content. -/
def plain (role : Role) (stamp : Stamp) (content : String) : Message :=
  { id := stamp.id, role, content, toolCalls := [], toolCallId := none, toolName := none,
    timestamp := stamp.time }

/-- A system message. -/
def system : Stamp → String → Message := plain .system

/-- A user message. -/
def user : Stamp → String → Message := plain .user

/-- A message of the assistant with the calls it requests. -/
def assistant (stamp : Stamp) (content : String) (calls : List ToolCall) : Message :=
  { plain .assistant stamp content with toolCalls := calls }

/-- The answer to a call. -/
def toolResult (stamp : Stamp) (call : ToolCall) (content : String) : Message :=
  { plain .tool stamp content with toolCallId := some call.id, toolName := some call.name }

/-- The assistant requests at least one tool call. -/
def requestsTools (m : Message) : Bool :=
  m.role == .assistant && !m.toolCalls.isEmpty

end Message

end AgentLoop
