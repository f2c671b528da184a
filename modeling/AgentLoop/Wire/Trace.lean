import AgentLoop.Json.Printer
import AgentLoop.Trace.Recorder
import AgentLoop.Wire.Model

/-!
# The JSON form of traces

A trace is exported laid out over lines, alone or in a list with all others.
-/

namespace AgentLoop

namespace ActionStatus

/-- A status is written as its name. -/
def toJson (s : ActionStatus) : Json := .str s.name

/-- Reads a status. -/
def ofTree : Tree → Except ReadError ActionStatus :=
  Tree.named name [succeeded, failed, timedOut, denied, blocked, invalidArguments, cancelled]

end ActionStatus

namespace ActionRecord

/-- The fields of a report. -/
def toJson (r : ActionRecord) : Json :=
  .obj <|
    Json.field "call_id" (.str r.callId) ++
    Json.field "tool_name" (.str r.toolName) ++
    Json.field "status" r.status.toJson ++
    Json.fieldIfAny "detail" .str r.detail ++
    Json.field "duration_ms" (.nat r.durationMs)

/-- Reads a report. -/
def ofTree : Tree → Except ReadError ActionRecord :=
  Tree.record ["call_id", "tool_name", "status", "detail", "duration_ms"] fun r =>
    ActionRecord.mk <$> r.required "call_id" Tree.toText <*>
      r.required "tool_name" Tree.toText <*> r.required "status" ActionStatus.ofTree <*>
      r.defaulted "detail" (Tree.toOption Tree.toText) none <*>
      r.required "duration_ms" Tree.toNat64

end ActionRecord

namespace Action

/-- The fields of an action. -/
def toJson (a : Action) : Json :=
  .obj <|
    Json.field "call_id" (.str a.callId) ++
    Json.field "tool_name" (.str a.toolName) ++
    Json.field "status" a.status.toJson ++
    Json.fieldIfAny "detail" .str a.detail ++
    Json.field "duration_ms" (.nat a.durationMs) ++
    Json.field "recorded_at" (.timestamp a.recordedAt)

/-- Reads an action. -/
def ofTree : Tree → Except ReadError Action :=
  Tree.record ["call_id", "tool_name", "status", "detail", "duration_ms", "recorded_at"] fun r =>
    Action.mk <$> r.required "call_id" Tree.toText <*> r.required "tool_name" Tree.toText <*>
      r.required "status" ActionStatus.ofTree <*>
      r.defaulted "detail" (Tree.toOption Tree.toText) none <*>
      r.required "duration_ms" Tree.toNat64 <*> r.required "recorded_at" Tree.toTimestamp

end Action

namespace ModelCall

/-- The fields of a call of the model. -/
def toJson (c : ModelCall) : Json :=
  .obj <|
    Json.field "model" (.str c.model) ++
    Json.fieldIfAny "usage" Usage.toJson c.usage ++
    Json.field "tool_calls" (.nat c.toolCalls)

/-- Reads a call of the model. -/
def ofTree : Tree → Except ReadError ModelCall :=
  Tree.record ["model", "usage", "tool_calls"] fun r =>
    ModelCall.mk <$> r.required "model" Tree.toText <*>
      r.defaulted "usage" (Tree.toOption Usage.ofTree) none <*>
      r.required "tool_calls" Tree.toNat64

end ModelCall

namespace Step

/-- The fields of a step. -/
def toJson (s : Step) : Json :=
  .obj <|
    Json.field "iteration" (.nat s.iteration) ++
    Json.field "started_at" (.timestamp s.startedAt) ++
    Json.fieldIfAny "model_call" ModelCall.toJson s.modelCall ++
    Json.field "actions" (.list Action.toJson s.actions)

/-- Reads a step. -/
def ofTree : Tree → Except ReadError Step :=
  Tree.record ["iteration", "started_at", "model_call", "actions"] fun r =>
    Step.mk <$> r.required "iteration" Tree.toNat32 <*>
      r.required "started_at" Tree.toTimestamp <*>
      r.defaulted "model_call" (Tree.toOption ModelCall.ofTree) none <*>
      r.defaulted "actions" (Tree.toList Action.ofTree) []

end Step

namespace LoopTrace

/-- The fields of a trace; `null` stands for the end of one that goes on. -/
def toJson (t : LoopTrace) : Json :=
  .obj [("id", .str t.id), ("invocation_id", .str t.invocationId),
    ("steps", .list Step.toJson t.steps), ("started_at", .timestamp t.startedAt),
    ("ended_at", .ofOption .timestamp t.endedAt), ("outcome", .ofOption .str t.outcome)]

/-- Reads a trace. -/
def ofTree : Tree → Except ReadError LoopTrace :=
  Tree.record ["id", "invocation_id", "steps", "started_at", "ended_at", "outcome"] fun r =>
    LoopTrace.mk <$> r.required "id" Tree.toText <*> r.required "invocation_id" Tree.toText <*>
      r.required "steps" (Tree.toList Step.ofTree) <*>
      r.required "started_at" Tree.toTimestamp <*> r.optional "ended_at" Tree.toTimestamp <*>
      r.optional "outcome" Tree.toText

end LoopTrace

namespace TraceTotals

/-- The fields of the totals. -/
def toJson (t : TraceTotals) : Json :=
  .obj [("traces", .nat t.traces), ("llm_calls", .nat t.modelCalls), ("actions", .nat t.actions),
    ("failed_actions", .nat t.failedActions), ("tokens", .nat t.tokens)]

/-- Reads totals. -/
def ofTree : Tree → Except ReadError TraceTotals :=
  Tree.record ["traces", "llm_calls", "actions", "failed_actions", "tokens"] fun r =>
    TraceTotals.mk <$> r.required "traces" Tree.toNat64 <*>
      r.required "llm_calls" Tree.toNat64 <*> r.required "actions" Tree.toNat64 <*>
      r.required "failed_actions" Tree.toNat64 <*> r.required "tokens" Tree.toNat64

end TraceTotals

namespace TraceRecorder

/-- The text of one trace that is kept. -/
def export? (r : TraceRecorder) (id : String) : Option String :=
  (r.find? id).map fun t => t.toJson.pretty

/-- The text of all traces that are kept, oldest first. -/
def exportAll (r : TraceRecorder) : String :=
  (Json.list LoopTrace.toJson r.traces).pretty

/-- The wording of the error about a trace that is not kept. -/
def unknownMessage (id : String) : String := s!"unknown trace id: {id}"

end TraceRecorder

end AgentLoop
