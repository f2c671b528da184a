import AgentLoop.Model
import AgentLoop.Wire.Conversation

/-!
# The JSON form of what passes between a run, the model and the tools
-/

namespace AgentLoop

namespace ToolDefinition

/-- The fields of a definition. -/
def toJson (d : ToolDefinition) : Json :=
  .obj [("name", .str d.name), ("description", .str d.description), ("parameters", d.parameters)]

/-- Reads a definition. -/
def ofTree : Tree → Except ReadError ToolDefinition :=
  Tree.record ["name", "description", "parameters"] fun r =>
    ToolDefinition.mk <$> r.required "name" Tree.toText <*>
      r.required "description" Tree.toText <*> r.required "parameters" Tree.toJson

end ToolDefinition

namespace ToolOutcome

/-- An outcome names itself in the field `status`. -/
def toJson : ToolOutcome → Json
  | success output => .obj [("status", .str "success"), ("output", .str output)]
  | failure error => .obj [("status", .str "failure"), ("error", .str error)]
  | cancelled => .obj [("status", .str "cancelled")]

/-- Reads an outcome. -/
def ofTree (t : Tree) : Except ReadError ToolOutcome := do
  let (read, rest) ← t.tagged "status"
    [("success", fun u => success <$> Tree.Untagged.text "output" u),
      ("failure", fun u => failure <$> Tree.Untagged.text "error" u),
      ("cancelled", fun u => (fun _ => cancelled) <$> u.nothing)]
  read rest

end ToolOutcome

namespace Usage

/-- The fields of a usage. -/
def toJson (u : Usage) : Json :=
  .obj [("prompt_tokens", .nat u.promptTokens), ("completion_tokens", .nat u.completionTokens),
    ("total_tokens", .nat u.totalTokens)]

/-- Reads a usage. -/
def ofTree : Tree → Except ReadError Usage :=
  Tree.record ["prompt_tokens", "completion_tokens", "total_tokens"] fun r =>
    Usage.mk <$> r.required "prompt_tokens" Tree.toNat32 <*>
      r.required "completion_tokens" Tree.toNat32 <*> r.required "total_tokens" Tree.toNat32

end Usage

namespace FinishReason

/-- A reason is written as its name, one of the model's own with its text. -/
def toJson : FinishReason → Json
  | stop => .str "stop"
  | toolCalls => .str "tool_calls"
  | length => .str "length"
  | contentFilter => .str "content_filter"
  | other reason => .obj [("other", .str reason)]

/-- Reads a reason. -/
def ofTree : Tree → Except ReadError FinishReason :=
  Tree.variant
    [("stop", .unit stop), ("tool_calls", .unit toolCalls), ("length", .unit length),
      ("content_filter", .unit contentFilter),
      ("other", .payload fun t => other <$> t.toText)]

end FinishReason

namespace ModelRequest

/-- The temperature at which a model is asked unless told otherwise. -/
def defaultTemperature : Binary := binary32.ofDecimal false 7 (-1)

/-- The fields of a request. -/
def toJson (r : ModelRequest) : Json :=
  .obj <|
    Json.field "model" (.str r.model) ++
    Json.field "messages" (.list Message.toJson r.messages) ++
    Json.fieldUnlessEmpty "tools" (Json.list ToolDefinition.toJson) r.tools ++
    Json.field "temperature" (.num (.single r.temperature)) ++
    Json.fieldIfAny "max_tokens" .nat r.maxTokens

/-- Reads a request. -/
def ofTree : Tree → Except ReadError ModelRequest :=
  Tree.record ["model", "messages", "tools", "temperature", "max_tokens"] fun r =>
    ModelRequest.mk <$> r.required "model" Tree.toText <*>
      r.required "messages" (Tree.toList Message.ofTree) <*>
      r.defaulted "tools" (Tree.toList ToolDefinition.ofTree) [] <*>
      r.defaulted "temperature" Tree.toBinary32 defaultTemperature <*>
      r.defaulted "max_tokens" (Tree.toOption Tree.toNat32) none

end ModelRequest

namespace ModelReply

/-- The fields of a reply. -/
def toJson (r : ModelReply) : Json :=
  .obj <|
    Json.field "content" (.str r.content) ++
    Json.fieldUnlessEmpty "tool_calls" (Json.list ToolCall.toJson) r.toolCalls ++
    Json.field "finish_reason" r.finishReason.toJson ++
    Json.fieldIfAny "usage" Usage.toJson r.usage ++
    Json.field "model" (.str r.model)

/-- Reads a reply; every field may be missing. -/
def ofTree : Tree → Except ReadError ModelReply :=
  Tree.record ["content", "tool_calls", "finish_reason", "usage", "model"] fun r =>
    ModelReply.mk <$> r.defaulted "content" Tree.toText "" <*>
      r.defaulted "tool_calls" (Tree.toList ToolCall.ofTree) [] <*>
      r.defaulted "finish_reason" FinishReason.ofTree .stop <*>
      r.defaulted "usage" (Tree.toOption Usage.ofTree) none <*>
      r.defaulted "model" Tree.toText ""

end ModelReply

end AgentLoop
