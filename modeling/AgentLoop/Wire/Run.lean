import AgentLoop.Run.LoopConfig
import AgentLoop.Run.State
import AgentLoop.Wire.Model

/-!
# The JSON form of runs: their configuration and what they come to
-/

namespace AgentLoop

namespace LoopConfig

/-- The fields of a configuration. -/
def toJson (c : LoopConfig) : Json :=
  .obj <|
    Json.field "max_iterations" (.nat c.maxIterations) ++
    Json.field "max_tool_calls_per_iteration" (.nat c.maxToolCallsPerIteration) ++
    Json.field "enable_double_confirmation" (.bool c.doubleConfirmation) ++
    Json.field "error_threshold" (.nat c.errorThreshold) ++
    Json.field "tool_call_timeout_ms" (.nat c.toolCallTimeoutMs) ++
    Json.field "model" (.str c.model) ++
    Json.field "temperature" (.num (.single c.temperature)) ++
    Json.fieldIfAny "max_tokens" .nat c.maxTokens

/-- Reads a configuration; a field that is missing has its default. -/
def ofTree : Tree → Except ReadError LoopConfig :=
  Tree.record ["max_iterations", "max_tool_calls_per_iteration", "enable_double_confirmation",
      "error_threshold", "tool_call_timeout_ms", "model", "temperature", "max_tokens"] fun r =>
    LoopConfig.mk <$> r.defaulted "max_iterations" Tree.toNat32 default.maxIterations <*>
      r.defaulted "max_tool_calls_per_iteration" Tree.toNat64 default.maxToolCallsPerIteration <*>
      r.defaulted "enable_double_confirmation" Tree.toBool default.doubleConfirmation <*>
      r.defaulted "error_threshold" Tree.toNat32 default.errorThreshold <*>
      r.defaulted "tool_call_timeout_ms" Tree.toNat64 default.toolCallTimeoutMs <*>
      r.defaulted "model" Tree.toText default.model <*>
      r.defaulted "temperature" Tree.toBinary32 default.temperature <*>
      r.defaulted "max_tokens" (Tree.toOption Tree.toNat32) default.maxTokens

end LoopConfig

namespace TerminationReason

/-- A reason is written as its name. -/
def toJson (r : TerminationReason) : Json := .str r.name

/-- Reads a reason. -/
def ofTree : Tree → Except ReadError TerminationReason :=
  Tree.named name [completed, maxIterations, error, budgetExceeded, durationExceeded]

end TerminationReason

namespace LoopResult

/-- The fields of a result. -/
def toJson (r : LoopResult) : Json :=
  .obj <|
    Json.field "invocation_id" (.str r.invocationId) ++
    Json.field "output" (.obj r.output) ++
    Json.field "raw_response" (.str r.rawResponse) ++
    Json.field "tokens_used" (.nat r.tokensUsed) ++
    Json.fieldIfAny "usage" Usage.toJson r.usage ++
    Json.field "model" (.str r.model) ++
    Json.field "iterations" (.nat r.iterations) ++
    Json.field "tool_calls_made" (.nat r.toolCallsMade) ++
    Json.field "tools_used" (.strings r.toolsUsed) ++
    Json.field "termination_reason" r.terminationReason.toJson ++
    Json.field "duration_ms" (.nat r.durationMs) ++
    Json.field "transcript" (.list Message.toJson r.transcript)

/-- Reads a result. -/
def ofTree : Tree → Except ReadError LoopResult :=
  Tree.record ["invocation_id", "output", "raw_response", "tokens_used", "usage", "model",
      "iterations", "tool_calls_made", "tools_used", "termination_reason", "duration_ms",
      "transcript"] fun r =>
    LoopResult.mk <$> r.required "invocation_id" Tree.toText <*>
      r.required "output" Tree.toJsonObject <*> r.required "raw_response" Tree.toText <*>
      r.required "tokens_used" Tree.toNat64 <*>
      r.defaulted "usage" (Tree.toOption Usage.ofTree) none <*>
      r.required "model" Tree.toText <*> r.required "iterations" Tree.toNat32 <*>
      r.required "tool_calls_made" Tree.toNat32 <*>
      r.required "tools_used" (Tree.toList Tree.toText) <*>
      r.required "termination_reason" TerminationReason.ofTree <*>
      r.required "duration_ms" Tree.toNat64 <*>
      r.required "transcript" (Tree.toList Message.ofTree)

end LoopResult

namespace LoopProgress

/-- The fields of what a cancelled run had come to. -/
def toJson (p : LoopProgress) : Json :=
  .obj [("invocation_id", .str p.invocationId), ("iterations", .nat p.iterations),
    ("tokens_used", .nat p.tokensUsed), ("tool_calls_made", .nat p.toolCallsMade),
    ("tools_used", .strings p.toolsUsed), ("transcript", .list Message.toJson p.transcript)]

/-- Reads what a cancelled run had come to. -/
def ofTree : Tree → Except ReadError LoopProgress :=
  Tree.record ["invocation_id", "iterations", "tokens_used", "tool_calls_made", "tools_used",
      "transcript"] fun r =>
    LoopProgress.mk <$> r.required "invocation_id" Tree.toText <*>
      r.required "iterations" Tree.toNat32 <*> r.required "tokens_used" Tree.toNat64 <*>
      r.required "tool_calls_made" Tree.toNat32 <*>
      r.required "tools_used" (Tree.toList Tree.toText) <*>
      r.required "transcript" (Tree.toList Message.ofTree)

end LoopProgress

end AgentLoop
