import AgentLoop.Budget.Basic
import AgentLoop.Run.LoopConfig
import AgentLoop.Run.State

/-!
# When a run stops

A run asks at five checkpoints whether it must stop.  The answer depends on the configuration,
on what the run has counted, and on what a budget answered at that point, and on nothing else.

* `Checkpoint` is where the question is asked, `stopReason?` the answer.
* `needsConfirmation` says what becomes of a reply that is only a text.
-/

namespace AgentLoop

/-- Where in a run the question is asked. -/
inductive Checkpoint where
  /-- Before the model is asked, with the answer of the iteration budget. -/
  | turnStart (decision : BudgetDecision)
  /-- Before an authorized call is executed, with the answer of the tool budget. -/
  | toolBudget (decision : BudgetDecision)
  /-- Right after a call failed. -/
  | toolFailed
  /-- At the end of a turn, with the answer of the duration budget. -/
  | turnEnd (decision : BudgetDecision)
  /-- A text was accepted as the answer. -/
  | answerAccepted
  deriving DecidableEq, Repr

/-- Too many calls have failed in a row. -/
def errorsExhausted (config : LoopConfig) (s : LoopState) : Bool :=
  config.errorThreshold ≤ s.consecutiveErrors

/-- The reason for which the run must stop at a checkpoint, if it must. -/
def stopReason? (config : LoopConfig) (s : LoopState) : Checkpoint → Option TerminationReason
  | .turnStart decision => if decision.isBlocked then some .budgetExceeded else none
  | .toolBudget decision => if decision.isBlocked then some .budgetExceeded else none
  | .toolFailed => if errorsExhausted config s then some .error else none
  | .turnEnd decision =>
    if errorsExhausted config s then some .error
    else if decision.isBlocked then some .durationExceeded
    else if config.maxIterations ≤ s.iterations then some .maxIterations
    else none
  | .answerAccepted => some .completed

/-- A text is to be confirmed before it is accepted: the first one, when double confirmation is
on. -/
def needsConfirmation (config : LoopConfig) (s : LoopState) : Bool :=
  config.doubleConfirmation && !s.awaitingConfirmation

end AgentLoop
