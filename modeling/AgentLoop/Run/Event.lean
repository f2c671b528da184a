import AgentLoop.Budget.Basic
import AgentLoop.Governance.Policy
import AgentLoop.Observation.Basic
import AgentLoop.Run.State
import AgentLoop.Trace.Recorder

/-!
# The journal of a run

A run keeps a journal of everything that passes between it and the world: what it asked of its
collaborators and what they answered, what it told its observer and its tracer, and the remarks it
made on the way.  The observer's record, the trace and the log are all read off the journal.

* `Event` is one thing that happened, `Entry` an event with the time of the clock.
* `Remark` is what a run says about itself.
* `Journal.observations` and `Journal.traceEvents` are two readings of a journal.
-/

namespace AgentLoop

/-- The checks that a budget answers. -/
inductive BudgetCheck where
  | iteration
  | tool (name : String) (arguments : JsonObject)
  | duration
  deriving DecidableEq, Repr

/-- What a run says about itself. -/
inductive Remark where
  | started (messages tools maxIterations : Nat)
  | iterationBudgetExhausted (iteration : Nat) (decision : BudgetDecision)
  | callingModel (iteration : Nat)
  | requestingConfirmation (iteration : Nat)
  | executingCalls (iteration requested deferred : Nat)
  | unreadableArguments (call : ToolCall) (reason : String)
  | callDenied (call : ToolCall) (reason : String)
  | toolBudgetExhausted (call : ToolCall) (decision : BudgetDecision)
  | callSucceeded (call : ToolCall)
  | callFailed (call : ToolCall) (status : ActionStatus)
  | closedCalls (closed : Nat) (reason : TerminationReason)
  | limitReached (iteration deferred cap : Nat)
  | stoppingAfterTurn (iteration : Nat) (reason : TerminationReason)
  | finished (reason : TerminationReason) (iterations toolCalls tokens : Nat)
  | cancelled (iterations : Nat)
  | aborted (error : LoopError)
  deriving DecidableEq, Repr

/-- One thing that happened in a run. -/
inductive Event where
  /-- The model was asked. -/
  | asked (request : ModelRequest)
  /-- The model replied, after some waiting. -/
  | replied (reply : ModelReply) (waited : Nat)
  /-- The gate decided on a call. -/
  | authorized (tool : String) (arguments : JsonObject) (context : ExecutionContext)
    (decision : Authorization)
  /-- The gate was told what became of a call. -/
  | audited (tool : String) (arguments : JsonObject) (context : ExecutionContext)
    (outcome : ToolOutcome)
  /-- The budget answered a check. -/
  | budgetChecked (check : BudgetCheck) (decision : BudgetDecision)
  /-- The budget was told about tokens. -/
  | usageRecorded (usage : Usage)
  /-- A call reached the executor. -/
  | executed (tool : String) (arguments : JsonObject) (context : ExecutionContext)
  /-- The observer was told. -/
  | observed (observation : Observation)
  /-- The tracer was told. -/
  | traced (event : TraceEvent)
  /-- The run made a remark. -/
  | remarked (remark : Remark)
  deriving DecidableEq, Repr

/-- An event with the time of the clock, in milliseconds. -/
structure Entry where
  time : Nat
  event : Event
  deriving DecidableEq, Repr

/-- The journal of a run, earliest entry first. -/
abbrev Journal := List Entry

namespace Journal

/-- What the observer was told. -/
def observations (j : Journal) : List Observation :=
  j.filterMap fun entry =>
    match entry.event with
    | .observed o => some o
    | _ => none

/-- What the tracer was told, with the times. -/
def traceEvents (j : Journal) : List (Nat × TraceEvent) :=
  j.filterMap fun entry =>
    match entry.event with
    | .traced event => some (entry.time, event)
    | _ => none

/-- What the model was asked. -/
def requests (j : Journal) : List ModelRequest :=
  j.filterMap fun entry =>
    match entry.event with
    | .asked request => some request
    | _ => none

/-- What the executor was given. -/
def executions (j : Journal) : List (String × JsonObject × ExecutionContext) :=
  j.filterMap fun entry =>
    match entry.event with
    | .executed tool arguments context => some (tool, arguments, context)
    | _ => none

end Journal

/-- A recorder after everything that a run told its tracer; `epoch` is the point in time at which
the clock shows zero. -/
def TraceRecorder.follow (r : TraceRecorder) (epoch : Timestamp) (j : Journal) : TraceRecorder :=
  j.traceEvents.foldl (fun r (time, event) => r.apply (epoch.addMillis time) event) r

end AgentLoop
