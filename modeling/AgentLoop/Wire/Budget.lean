import AgentLoop.Budget.Enforcer
import AgentLoop.Wire.Field

/-!
# The JSON form of budgets
-/

namespace AgentLoop

namespace BudgetDecision

/-- A decision names itself in the field `decision`. -/
def toJson : BudgetDecision → Json
  | allowed => .obj [("decision", .str "allowed")]
  | blocked reason => .obj [("decision", .str "blocked"), ("reason", .str reason)]

/-- Reads a decision. -/
def ofTree (t : Tree) : Except ReadError BudgetDecision := do
  let (read, rest) ← t.tagged "decision"
    [("allowed", fun u => (fun _ => allowed) <$> Tree.Untagged.nothing u),
      ("blocked", fun u => blocked <$> u.text "reason")]
  read rest

end BudgetDecision

namespace BudgetConfig

/-- The fields of a configuration; a ceiling that is not set is left out. -/
def toJson (c : BudgetConfig) : Json :=
  .obj <|
    Json.fieldIfAny "max_llm_calls" .nat c.maxModelCalls ++
    Json.fieldIfAny "max_tool_calls" .nat c.maxToolCalls ++
    Json.fieldIfAny "max_tokens" .nat c.maxTokens ++
    Json.fieldIfAny "max_duration_secs" .nat c.maxDurationSecs ++
    Json.fieldUnlessEmpty "per_tool" (Json.keyed .nat) c.perTool

/-- Reads a configuration. -/
def ofTree : Tree → Except ReadError BudgetConfig :=
  Tree.record ["max_llm_calls", "max_tool_calls", "max_tokens", "max_duration_secs", "per_tool"]
    fun r =>
      BudgetConfig.mk <$> r.defaulted "max_llm_calls" (Tree.toOption Tree.toNat32) none <*>
        r.defaulted "max_tool_calls" (Tree.toOption Tree.toNat32) none <*>
        r.defaulted "max_tokens" (Tree.toOption Tree.toNat64) none <*>
        r.defaulted "max_duration_secs" (Tree.toOption Tree.toNat64) none <*>
        r.defaulted "per_tool" (Tree.toKeyed Tree.toNat32) []

end BudgetConfig

namespace BudgetUsage

/-- The fields of a report. -/
def toJson (u : BudgetUsage) : Json :=
  .obj [("llm_calls", .nat u.modelCalls), ("tool_calls", .nat u.toolCalls),
    ("tokens", .nat u.tokens), ("per_tool", .keyed .nat u.perTool),
    ("elapsed_ms", .nat u.elapsedMs)]

/-- Reads a report. -/
def ofTree : Tree → Except ReadError BudgetUsage :=
  Tree.record ["llm_calls", "tool_calls", "tokens", "per_tool", "elapsed_ms"] fun r =>
    BudgetUsage.mk <$> r.required "llm_calls" Tree.toNat32 <*>
      r.required "tool_calls" Tree.toNat32 <*> r.required "tokens" Tree.toNat64 <*>
      r.required "per_tool" (Tree.toKeyed Tree.toNat32) <*> r.required "elapsed_ms" Tree.toNat64

end BudgetUsage

end AgentLoop
