import AgentLoop.Conversation.Message
import AgentLoop.Wire.Field

/-!
# The JSON form of messages

For each type `toJson` writes a value and `ofTree` reads one.
-/

namespace AgentLoop

namespace Role

/-- A role is written as its name. -/
def toJson (r : Role) : Json := .str r.name

/-- Reads a role. -/
def ofTree : Tree → Except ReadError Role :=
  Tree.named name [system, user, assistant, tool]

end Role

namespace ToolCall

/-- The fields of a call. -/
def toJson (c : ToolCall) : Json :=
  .obj [("id", .str c.id), ("name", .str c.name), ("arguments", .str c.arguments)]

/-- Reads a call; one without arguments has empty ones. -/
def ofTree : Tree → Except ReadError ToolCall :=
  Tree.record ["id", "name", "arguments"] fun r =>
    ToolCall.mk <$> r.required "id" Tree.toText <*> r.required "name" Tree.toText <*>
      r.defaulted "arguments" Tree.toText ""

end ToolCall

namespace Message

/-- The fields of a message; what it does not have is left out. -/
def toJson (m : Message) : Json :=
  .obj <|
    Json.field "id" (.str m.id) ++
    Json.field "role" m.role.toJson ++
    Json.field "content" (.str m.content) ++
    Json.fieldUnlessEmpty "tool_calls" (Json.list ToolCall.toJson) m.toolCalls ++
    Json.fieldIfAny "tool_call_id" .str m.toolCallId ++
    Json.fieldIfAny "tool_name" .str m.toolName ++
    Json.field "timestamp" (.timestamp m.timestamp)

/-- Reads a message. -/
def ofTree : Tree → Except ReadError Message :=
  Tree.record ["id", "role", "content", "tool_calls", "tool_call_id", "tool_name", "timestamp"]
    fun r =>
      Message.mk <$> r.required "id" Tree.toText <*> r.required "role" Role.ofTree <*>
        r.defaulted "content" Tree.toText "" <*>
        r.defaulted "tool_calls" (Tree.toList ToolCall.ofTree) [] <*>
        r.defaulted "tool_call_id" (Tree.toOption Tree.toText) none <*>
        r.defaulted "tool_name" (Tree.toOption Tree.toText) none <*>
        r.required "timestamp" Tree.toTimestamp

end Message

end AgentLoop
