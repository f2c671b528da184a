import AgentLoop.Budget.Basic
import AgentLoop.Model

/-!
# Enforcing a budget

The enforcer counts what it has allowed: model turns, executions in all and of each tool, and the
tokens reported to it; and it measures the time since it was started.  A check that would exceed
a ceiling is refused and costs nothing.

* `Spent` is the count, `BudgetUsage` its report at a point in time.
* `Spent.checkIteration`, `checkTool` and `checkDuration` answer the three checks,
  `Spent.recordUsage` takes a report of tokens.
-/

namespace AgentLoop

/-- What has been spent since a start. -/
structure Spent where
  modelCalls : Nat
  toolCalls : Nat
  tokens : Nat
  perTool : Keyed Nat
  /-- When the clock was started, in milliseconds. -/
  started : Nat
  deriving DecidableEq, Repr, Inhabited

/-- What has been spent, as it is reported. -/
structure BudgetUsage where
  modelCalls : Nat
  toolCalls : Nat
  tokens : Nat
  perTool : Keyed Nat
  elapsedMs : Nat
  deriving DecidableEq, Repr, Inhabited

/-- A ceiling is reached. -/
def reached (limit : Option Nat) (count : Nat) : Option Nat :=
  limit.filter fun max => max ≤ count

namespace Spent

/-- Nothing spent yet. -/
def fresh (now : Nat) : Spent := ⟨0, 0, 0, [], now⟩

/-- The report at a point in time. -/
def usage (s : Spent) (now : Nat) : BudgetUsage :=
  ⟨s.modelCalls, s.toolCalls, s.tokens, s.perTool, now - s.started⟩

/-- Asks for one more model turn. -/
def checkIteration (limits : BudgetConfig) (s : Spent) : BudgetDecision × Spent :=
  match reached limits.maxTokens s.tokens with
  | some max => (.blocked s!"token budget exhausted ({s.tokens}/{max})", s)
  | none =>
    match reached limits.maxModelCalls s.modelCalls with
    | some max => (.blocked s!"model call budget exhausted ({max} calls)", s)
    | none => (.allowed, { s with modelCalls := s.modelCalls + 1 })

/-- Asks for one more execution of a tool. -/
def checkTool (limits : BudgetConfig) (s : Spent) (tool : String) : BudgetDecision × Spent :=
  match reached limits.maxToolCalls s.toolCalls with
  | some max => (.blocked s!"tool call budget exhausted ({max} calls)", s)
  | none =>
    let used := s.perTool.getD tool 0
    match reached (limits.perTool.get? tool) used with
    | some max => (.blocked s!"budget for tool '{tool}' exhausted ({max} calls)", s)
    | none =>
      (.allowed,
        { s with toolCalls := s.toolCalls + 1, perTool := s.perTool.insert tool (used + 1) })

/-- Asks for more time. -/
def checkDuration (limits : BudgetConfig) (s : Spent) (now : Nat) : BudgetDecision :=
  match limits.maxDurationSecs with
  | none => .allowed
  | some secs =>
    let elapsed := now - s.started
    if secs * 1000 ≤ elapsed then
      .blocked s!"duration budget exhausted ({elapsed}ms of {secs * 1000}ms)"
    else .allowed

/-- Takes a report of tokens. -/
def recordUsage (s : Spent) (usage : Usage) : Spent :=
  { s with tokens := s.tokens + usage.totalTokens }

end Spent

end AgentLoop
