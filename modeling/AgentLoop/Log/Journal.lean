import AgentLoop.Governance.Description
import AgentLoop.Log.Record
import AgentLoop.Run.Event

/-!
# The log of a run

The log of a run is read off its journal: every remark is a record, and so is every call that the
gate refused or audited, and every time a scripted model was asked.

* `Remark.record` is the record of a remark, `AuditEntry.record` that of an entry of the audit
  trail.
* `Journal.records` is the log.
-/

namespace AgentLoop

/-- The answer of a budget, described. -/
def BudgetDecision.describe : BudgetDecision → String
  | allowed => "Allowed"
  | blocked reason => describedRecord "Blocked" [("reason", Text.quoted reason)]

namespace Remark

/-- The fields that name a call. -/
def callFields (call : ToolCall) : List (String × Json) :=
  [("tool", .str call.name), ("call_id", .str call.id)]

/-- The field that names the run. -/
def runField (invocationId : String) : String × Json := ("invocation_id", .str invocationId)

/-- The level, the message and the fields of a remark. -/
def parts (invocationId : String) : Remark → LogLevel × String × List (String × Json)
  | started messages tools maxIterations =>
    (.info, "Starting tool loop",
      [runField invocationId, ("messages", .nat messages), ("tools", .nat tools),
        ("max_iterations", .nat maxIterations)])
  | iterationBudgetExhausted iteration decision =>
    (.warn, "Iteration budget exhausted",
      [("iteration", .nat iteration), ("decision", .str decision.describe)])
  | callingModel iteration =>
    (.debug, "Calling model", [runField invocationId, ("iteration", .nat iteration)])
  | requestingConfirmation iteration =>
    (.debug, "Text reply, requesting confirmation", [("iteration", .nat iteration)])
  | executingCalls iteration requested deferred =>
    (.debug, "Executing tool calls",
      [("iteration", .nat iteration), ("requested", .nat requested), ("deferred", .nat deferred)])
  | unreadableArguments call reason =>
    (.warn, "Unparsable tool arguments", callFields call ++ [("reason", .str reason)])
  | callDenied call reason =>
    (.warn, "Tool call denied", callFields call ++ [("reason", .str reason)])
  | toolBudgetExhausted call decision =>
    (.warn, "Tool budget exhausted", callFields call ++ [("decision", .str decision.describe)])
  | callSucceeded call => (.debug, "Tool call succeeded", callFields call)
  | callFailed call status =>
    (.warn, "Tool call failed", callFields call ++ [("status", .str status.name)])
  | closedCalls closed reason =>
    (.debug, "Closed remaining tool calls",
      [("closed", .nat closed), ("reason", .str reason.name)])
  | limitReached iteration deferred cap =>
    (.warn, "Per-turn tool call limit reached",
      [("iteration", .nat iteration), ("deferred", .nat deferred), ("cap", .nat cap)])
  | stoppingAfterTurn iteration reason =>
    (.debug, "Stopping after turn", [("iteration", .nat iteration), ("reason", .str reason.name)])
  | finished reason iterations toolCalls tokens =>
    (.info, "Tool loop finished",
      [runField invocationId, ("reason", .str reason.name), ("iterations", .nat iterations),
        ("tool_calls", .nat toolCalls), ("tokens", .nat tokens)])
  | cancelled iterations =>
    (.warn, "Tool loop cancelled", [runField invocationId, ("iterations", .nat iterations)])
  | aborted error =>
    (.warn, "Tool loop aborted", [runField invocationId, ("error", .str error.message)])

/-- The part of the program that makes remarks. -/
def target : String := "toolloop_agent::loop_runner"

/-- The record of a remark. -/
def record (time : Timestamp) (invocationId : String) (remark : Remark) : LogRecord :=
  let (level, message, fields) := remark.parts invocationId
  ⟨time, level, message, fields, target⟩

end Remark

/-- The record of an entry of the audit trail. -/
def AuditEntry.record (e : AuditEntry) : LogRecord :=
  { time := e.timestamp
    level := .info
    message := "AUDIT"
    fields :=
      [("event", .str e.event.describe), ("actor", .str e.actor), ("target", .str e.target),
        ("outcome", .str e.outcome.describe), ("details", .str e.describeDetails)]
    target := "toolloop_security::audit" }

/-- The records of a refused call. -/
def refusalRecords (time : Timestamp) (tool : String) (context : ExecutionContext)
    (reason : String) : List LogRecord :=
  [{ time
     level := .warn
     message := "Tool call denied by policy"
     fields :=
       [("tool", .str tool), ("caller", .str context.caller),
         ("autonomy", .str context.autonomy.name), ("reason", .str reason)]
     target := "toolloop_security::policy" },
    (Policy.deniedEntry time tool context reason).record]

/-- The record of a request to a scripted model. -/
def requestRecord (time : Timestamp) (request : ModelRequest) : LogRecord :=
  { time
    level := .debug
    message := "Replaying scripted turn"
    fields := [("messages", .nat request.messages.length)]
    target := "toolloop::session" }

/-- The records of an entry of a journal. -/
def Entry.records (epoch : Timestamp) (invocationId : String) (e : Entry) : List LogRecord :=
  let time := epoch.addMillis e.time
  match e.event with
  | .asked request => [requestRecord time request]
  | .authorized tool _ context (.denied reason) => refusalRecords time tool context reason
  | .audited tool arguments context outcome =>
    [(Policy.executedEntry time tool (.obj arguments) context outcome).record]
  | .remarked remark => [remark.record time invocationId]
  | _ => []

/-- The log of a run of the reference gate against a scripted model. -/
def Journal.records (epoch : Timestamp) (invocationId : String) (j : Journal) : List LogRecord :=
  j.flatMap (Entry.records epoch invocationId)

end AgentLoop
