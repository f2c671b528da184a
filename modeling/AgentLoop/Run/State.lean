import AgentLoop.Collection.NameSet
import AgentLoop.Conversation.Transcript
import AgentLoop.Json.Basic
import AgentLoop.Model

/-!
# The state of a run

* `LoopState` is what a run counts: turns, tokens, successful calls, failures in a row.
* `TerminationReason` says why a run stopped.
* `LoopResult` is what a run comes to, `LoopProgress` what a cancelled one had come to,
  `LoopError` how a run can fail.
-/

namespace AgentLoop

/-- Why a run stopped. -/
inductive TerminationReason where
  /-- The model gave its final answer. -/
  | completed
  | maxIterations
  /-- Too many failures in a row. -/
  | error
  | budgetExceeded
  | durationExceeded
  deriving DecidableEq, Repr, Inhabited

/-- The name of a reason. -/
def TerminationReason.name : TerminationReason → String
  | completed => "completed"
  | maxIterations => "max_iterations"
  | error => "error"
  | budgetExceeded => "budget_exceeded"
  | durationExceeded => "duration_exceeded"

/-- What a run counts while it goes on. -/
structure LoopState where
  transcript : Transcript
  iterations : Nat
  totalTokens : Nat
  toolCallsMade : Nat
  toolsUsed : NameSet
  consecutiveErrors : Nat
  /-- The last reply was a text, and the model was asked to confirm it. -/
  awaitingConfirmation : Bool
  lastUsage : Option Usage
  lastModel : String
  deriving DecidableEq, Repr, Inhabited

/-- What a run comes to. -/
structure LoopResult where
  invocationId : String
  /-- The answer, empty unless the run was completed. -/
  output : JsonObject
  /-- The text of the last reply. -/
  rawResponse : String
  tokensUsed : Nat
  /-- The usage that the last reply reported. -/
  usage : Option Usage
  model : String
  iterations : Nat
  toolCallsMade : Nat
  toolsUsed : List String
  terminationReason : TerminationReason
  durationMs : Nat
  transcript : List Message
  deriving DecidableEq, Repr, Inhabited

/-- The run was completed. -/
def LoopResult.completed (r : LoopResult) : Bool := r.terminationReason == .completed

/-- What a cancelled run had come to. -/
structure LoopProgress where
  invocationId : String
  iterations : Nat
  tokensUsed : Nat
  toolCallsMade : Nat
  toolsUsed : List String
  transcript : List Message
  deriving DecidableEq, Repr, Inhabited

/-- The ways in which a run fails. -/
inductive LoopError where
  /-- The model could not be reached. -/
  | model (error : ModelError)
  /-- The conversation broke its discipline. -/
  | transcript (error : TranscriptError)
  | cancelled (progress : LoopProgress)
  deriving DecidableEq, Repr, Inhabited

namespace LoopError

/-- The wording of a failure. -/
def message : LoopError → String
  | model error => s!"model client failed: {error.message}"
  | transcript error => s!"transcript invariant violated: {error.message}"
  | cancelled progress => s!"loop cancelled after {progress.iterations} iteration(s)"

/-- What the run had come to, if the failure says so. -/
def progress? : LoopError → Option LoopProgress
  | cancelled progress => some progress
  | _ => none

end LoopError

namespace LoopState

/-- The state before the first turn. -/
def begin (transcript : Transcript) : LoopState :=
  { transcript, iterations := 0, totalTokens := 0, toolCallsMade := 0, toolsUsed := [],
    consecutiveErrors := 0, awaitingConfirmation := false, lastUsage := none, lastModel := "" }

/-- One more turn begins. -/
def nextIteration (s : LoopState) : LoopState :=
  { s with iterations := s.iterations + 1 }

/-- A reply came in. -/
def recordReply (s : LoopState) (reply : ModelReply) : LoopState :=
  { s with
    totalTokens := s.totalTokens + (reply.usage.map Usage.totalTokens).getD 0
    lastUsage := reply.usage
    lastModel := if reply.model = "" then s.lastModel else reply.model }

/-- A call succeeded. -/
def recordSuccess (s : LoopState) (tool : String) : LoopState :=
  { s with
    consecutiveErrors := 0
    toolCallsMade := s.toolCallsMade + 1
    toolsUsed := NameSet.insert tool s.toolsUsed }

/-- A call failed. -/
def recordFailure (s : LoopState) : LoopState :=
  { s with consecutiveErrors := s.consecutiveErrors + 1 }

/-- What the run has come to so far. -/
def progress (s : LoopState) (invocationId : String) : LoopProgress :=
  { invocationId
    iterations := s.iterations
    tokensUsed := s.totalTokens
    toolCallsMade := s.toolCallsMade
    toolsUsed := s.toolsUsed
    transcript := s.transcript.messages }

/-- What the run has come to in the end. -/
def result (s : LoopState) (invocationId : String) (reason : TerminationReason)
    (output : JsonObject) (durationMs : Nat) : LoopResult :=
  { invocationId
    output
    rawResponse := (s.transcript.lastAssistant?.map Message.content).getD ""
    tokensUsed := s.totalTokens
    usage := s.lastUsage
    model := s.lastModel
    iterations := s.iterations
    toolCallsMade := s.toolCallsMade
    toolsUsed := s.toolsUsed
    terminationReason := reason
    durationMs
    transcript := s.transcript.messages }

end LoopState

end AgentLoop
