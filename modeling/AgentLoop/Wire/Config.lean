import AgentLoop.Config.Basic
import AgentLoop.Wire.Budget
import AgentLoop.Wire.Governance
import AgentLoop.Wire.Run

/-!
# The JSON form of the configuration of the program
-/

namespace AgentLoop

namespace TelemetryConfig

/-- The fields of the section. -/
def toJson (c : TelemetryConfig) : Json :=
  .obj [("tracing_enabled", .bool c.tracingEnabled), ("max_traces", .nat c.maxTraces)]

/-- Reads the section; a field that is missing has its default. -/
def ofTree : Tree → Except ReadError TelemetryConfig :=
  Tree.record ["tracing_enabled", "max_traces"] fun r =>
    TelemetryConfig.mk <$> r.defaulted "tracing_enabled" Tree.toBool default.tracingEnabled <*>
      r.defaulted "max_traces" Tree.toNat64 default.maxTraces

end TelemetryConfig

namespace AppConfig

/-- The sections of a configuration. -/
def toJson (c : AppConfig) : Json :=
  .obj <|
    Json.field "agent_loop" c.agentLoop.toJson ++
    Json.field "governance" c.governance.toJson ++
    Json.fieldIfAny "budget" BudgetConfig.toJson c.budget ++
    Json.field "telemetry" c.telemetry.toJson

/-- Reads a configuration; a section that is missing has its defaults. -/
def ofTree : Tree → Except ReadError AppConfig :=
  Tree.record ["agent_loop", "governance", "budget", "telemetry"] fun r =>
    AppConfig.mk <$> r.defaulted "agent_loop" LoopConfig.ofTree .default <*>
      r.defaulted "governance" GovernanceConfig.ofTree .default <*>
      r.defaulted "budget" (Tree.toOption BudgetConfig.ofTree) none <*>
      r.defaulted "telemetry" TelemetryConfig.ofTree .default

end AppConfig

end AgentLoop
