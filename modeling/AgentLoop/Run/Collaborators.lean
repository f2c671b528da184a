import AgentLoop.Budget.Basic
import AgentLoop.Governance.Policy
import AgentLoop.Budget.Enforcer
import AgentLoop.Model
import AgentLoop.Run.Pending
import AgentLoop.Tool.Registry

/-!
# Collaborators of a run

A run owns nothing but its counters and its conversation.  Everything else it asks of four
collaborators, each of which has a state of its own that outlives the run: the model, the gate, the
budget and the executor of tools.  A collaborator is a record of functions on its state, so a run
can be stated and reasoned about for all of them at once.

* `ModelClient`, `Gate`, `BudgetTracker` and `ToolExecutor` are the four.
* `Policy.gate`, `BudgetConfig.tracker`, `BudgetTracker.none` and `Registry.executor` are the ones
  this library has.
* `World` is the clock with the states of all four.
-/

namespace AgentLoop

/-- The model. -/
structure ModelClient (M : Type) where
  /-- Takes a request; the reply or the fault comes later. -/
  ask : ModelRequest → M → Pending (Except ModelError ModelReply) × M

/-- The gate: it decides on calls, and takes note of what became of them. -/
structure Gate (G : Type) where
  authorize : (now : Nat) → (tool : String) → (arguments : JsonObject) → ExecutionContext →
    AutonomyLevel → G → Authorization × G
  audit : (now : Nat) → (tool : String) → (arguments : JsonObject) → ExecutionContext →
    ToolOutcome → G → G

/-- The budget. -/
structure BudgetTracker (B : Type) where
  checkIteration : (now : Nat) → B → BudgetDecision × B
  checkTool : (now : Nat) → (tool : String) → (arguments : JsonObject) → B → BudgetDecision × B
  checkDuration : (now : Nat) → B → BudgetDecision × B
  recordUsage : Usage → B → B

/-- The executor of tools. -/
structure ToolExecutor (X : Type) where
  /-- Takes a call; its outcome comes later. -/
  execute : (tool : String) → (arguments : JsonObject) → ExecutionContext → X →
    Pending ToolOutcome × X

/-- The gate that follows a policy; `epoch` is the point in time at which its clock shows zero. -/
def Policy.gate (policy : Policy) (epoch : Timestamp) : Gate PolicyState where
  authorize now tool _ context autonomy state :=
    policy.authorize state tool context autonomy now (epoch.addMillis now)
  audit now tool arguments context outcome state :=
    Policy.audit state tool (.obj arguments) context outcome (epoch.addMillis now)

/-- The budget that allows everything. -/
def BudgetTracker.none : BudgetTracker Unit where
  checkIteration _ s := (.allowed, s)
  checkTool _ _ _ s := (.allowed, s)
  checkDuration _ s := (.allowed, s)
  recordUsage _ s := s

/-- The budget that enforces some ceilings. -/
def BudgetConfig.tracker (limits : BudgetConfig) : BudgetTracker Spent where
  checkIteration _ s := s.checkIteration limits
  checkTool _ tool _ s := s.checkTool limits tool
  checkDuration now s := (s.checkDuration limits now, s)
  recordUsage usage s := s.recordUsage usage

/-- The executor that calls the tools of a registry. -/
def Registry.executor (r : Registry) : ToolExecutor Unit where
  execute tool arguments context s := (r.execute tool (.obj arguments) context, s)

/-- The clock, in milliseconds, and the states of the collaborators. -/
structure World (M G B X : Type) where
  now : Nat
  model : M
  gate : G
  budget : B
  tools : X

end AgentLoop
