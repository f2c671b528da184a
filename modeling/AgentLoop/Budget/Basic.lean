import AgentLoop.Collection.Keyed

/-!
# Budgets

A budget is a ceiling imposed on a run from outside.  It is asked before every model turn, before
every execution of a tool and at the end of every turn, and one refusal ends the run.

* `BudgetDecision` is its answer.
* `BudgetConfig` lists the ceilings that can be set; an absent one imposes nothing.
-/

namespace AgentLoop

/-- The answer of a budget. -/
inductive BudgetDecision where
  | allowed
  | blocked (reason : String)
  deriving DecidableEq, Repr, Inhabited

/-- The budget refuses. -/
def BudgetDecision.isBlocked : BudgetDecision → Bool
  | allowed => false
  | blocked _ => true

/-- The ceilings on a run. -/
structure BudgetConfig where
  maxModelCalls : Option Nat
  maxToolCalls : Option Nat
  maxTokens : Option Nat
  maxDurationSecs : Option Nat
  /-- The number of executions of each tool. -/
  perTool : Keyed Nat
  deriving DecidableEq, Repr

/-- No ceiling at all. -/
def BudgetConfig.unlimited : BudgetConfig := ⟨none, none, none, none, []⟩

instance : Inhabited BudgetConfig := ⟨.unlimited⟩

end AgentLoop
