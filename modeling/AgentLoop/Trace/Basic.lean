import AgentLoop.Model

/-!
# Traces

A run leaves a trace: one step for each turn, in it the call of the model if it came to one, and
one action for each tool call that was dispatched.

* `ActionStatus` and `ActionRecord` say how a dispatched call ended.
* `Action`, `Step` and `LoopTrace` are a trace as it is kept, with its sums.
-/

namespace AgentLoop

/-- How a dispatched call ended. -/
inductive ActionStatus where
  | succeeded
  | failed
  | timedOut
  | denied
  /-- Stopped by the budget, which ended the run. -/
  | blocked
  | invalidArguments
  | cancelled
  deriving DecidableEq, Repr, Inhabited

namespace ActionStatus

/-- The call succeeded. -/
def isSuccess (s : ActionStatus) : Bool := s == succeeded

/-- The name of a status. -/
def name : ActionStatus → String
  | succeeded => "succeeded"
  | failed => "failed"
  | timedOut => "timed_out"
  | denied => "denied"
  | blocked => "blocked"
  | invalidArguments => "invalid_arguments"
  | cancelled => "cancelled"

end ActionStatus

/-- One dispatched call as a run reports it. -/
structure ActionRecord where
  callId : String
  toolName : String
  status : ActionStatus
  /-- The error or reason of a call that did not succeed. -/
  detail : Option String
  durationMs : Nat
  deriving DecidableEq, Repr, Inhabited

/-- One dispatched call as a trace keeps it. -/
structure Action where
  callId : String
  toolName : String
  status : ActionStatus
  detail : Option String
  durationMs : Nat
  recordedAt : Timestamp
  deriving DecidableEq, Repr, Inhabited

/-- The action of a report that came in at some time. -/
def Action.ofRecord (r : ActionRecord) (time : Timestamp) : Action :=
  ⟨r.callId, r.toolName, r.status, r.detail, r.durationMs, time⟩

/-- The call of the model in a step. -/
structure ModelCall where
  model : String
  usage : Option Usage
  /-- The number of tool calls that the model asked for. -/
  toolCalls : Nat
  deriving DecidableEq, Repr, Inhabited

/-- The tokens of a reported usage, none if nothing was reported. -/
def tokensOf (usage : Option Usage) : Nat :=
  match usage with
  | some u => u.totalTokens
  | none => 0

/-- One turn of a run. -/
structure Step where
  iteration : Nat
  startedAt : Timestamp
  modelCall : Option ModelCall
  actions : List Action
  deriving DecidableEq, Repr, Inhabited

namespace Step

/-- A step in which nothing has happened. -/
def empty (iteration : Nat) (time : Timestamp) : Step := ⟨iteration, time, none, []⟩

/-- The tokens that the step took. -/
def tokens (s : Step) : Nat := tokensOf (s.modelCall.bind ModelCall.usage)

end Step

/-- Everything recorded about one run. -/
structure LoopTrace where
  id : String
  invocationId : String
  steps : List Step
  startedAt : Timestamp
  endedAt : Option Timestamp
  /-- The reason for which the run ended, or `cancelled` or `fatal`. -/
  outcome : Option String
  deriving DecidableEq, Repr, Inhabited

namespace LoopTrace

/-- A trace that has just begun. -/
def begin (id invocationId : String) (time : Timestamp) : LoopTrace :=
  ⟨id, invocationId, [], time, none, none⟩

/-- The trace has ended. -/
def isComplete (t : LoopTrace) : Bool := t.endedAt.isSome

/-- The trace after it has ended. -/
def finish (t : LoopTrace) (outcome : String) (time : Timestamp) : LoopTrace :=
  { t with endedAt := some time, outcome := some outcome }

/-- The trace with one more step. -/
def addStep (t : LoopTrace) (iteration : Nat) (time : Timestamp) : LoopTrace :=
  { t with steps := t.steps ++ [.empty iteration time] }

/-- Changes the last of some steps; if there is none, a step zero. -/
def changeLast (f : Step → Step) (time : Timestamp) : List Step → List Step
  | [] => [f (.empty 0 time)]
  | [s] => [f s]
  | s :: steps => s :: changeLast f time steps

/-- The trace with its current step changed. -/
def changeStep (t : LoopTrace) (f : Step → Step) (time : Timestamp) : LoopTrace :=
  { t with steps := changeLast f time t.steps }

/-- All actions in order. -/
def actions (t : LoopTrace) : List Action := t.steps.flatMap Step.actions

/-- The tokens of all steps. -/
def totalTokens (t : LoopTrace) : Nat := (t.steps.map Step.tokens).foldr (· + ·) 0

/-- The number of steps in which the model was called. -/
def modelCallCount (t : LoopTrace) : Nat := t.steps.countP fun s => s.modelCall.isSome

/-- The number of actions. -/
def actionCount (t : LoopTrace) : Nat := t.actions.length

/-- The number of actions that did not succeed. -/
def failedActionCount (t : LoopTrace) : Nat := t.actions.countP fun a => !a.status.isSuccess

/-- The whole milliseconds from beginning to end, once the trace has ended. -/
def durationMs (t : LoopTrace) : Option Nat := t.endedAt.map t.startedAt.millisTo

end LoopTrace

/-- Sums over all traces that a recorder has seen. -/
structure TraceTotals where
  traces : Nat
  modelCalls : Nat
  actions : Nat
  failedActions : Nat
  tokens : Nat
  deriving DecidableEq, Repr, Inhabited

end AgentLoop
