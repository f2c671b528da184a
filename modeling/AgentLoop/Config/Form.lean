import AgentLoop.Config.Basic
import AgentLoop.Toml.Reading

/-!
# The TOML form of the configuration

For each section `toToml` gives its entries and `ofToml` reads it; an entry that is missing has its
default, and an entry that is not known is ignored.
-/

namespace AgentLoop

namespace Toml

/-- An entry. -/
def entry (name : String) (value : Toml) : TomlTable := [(name, value)]

/-- An entry that is left out when its value is absent. -/
def entryIfAny {α : Type} (name : String) (write : α → Toml) : Option α → TomlTable
  | none => []
  | some value => [(name, write value)]

/-- A natural number. -/
def nat (n : Nat) : Toml := .integer n

/-- A list of texts. -/
def texts (names : List String) : Toml := .array (names.map .text)

/-- A mapping to counts. -/
def counts (m : Keyed Nat) : Toml := .table (m.map fun (key, n) => (key, .nat n))

end Toml

namespace LoopConfig

/-- The entries of the section on runs. -/
def toToml (c : LoopConfig) : Toml :=
  .table <|
    Toml.entry "max_iterations" (.nat c.maxIterations) ++
    Toml.entry "max_tool_calls_per_iteration" (.nat c.maxToolCallsPerIteration) ++
    Toml.entry "enable_double_confirmation" (.bool c.doubleConfirmation) ++
    Toml.entry "error_threshold" (.nat c.errorThreshold) ++
    Toml.entry "tool_call_timeout_ms" (.nat c.toolCallTimeoutMs) ++
    Toml.entry "model" (.text c.model) ++
    Toml.entry "temperature" (.float (binary64.narrow c.temperature)) ++
    Toml.entryIfAny "max_tokens" .nat c.maxTokens

/-- Reads the section on runs. -/
def ofToml (t : Toml) : Option LoopConfig := do
  let r ← t.toRecord ["max_iterations", "max_tool_calls_per_iteration",
    "enable_double_confirmation", "error_threshold", "tool_call_timeout_ms", "model",
    "temperature", "max_tokens"]
  return {
    maxIterations := ← r.get "max_iterations" Toml.toNat32 default.maxIterations
    maxToolCallsPerIteration :=
      ← r.get "max_tool_calls_per_iteration" Toml.toNat64 default.maxToolCallsPerIteration
    doubleConfirmation :=
      ← r.get "enable_double_confirmation" Toml.toBool default.doubleConfirmation
    errorThreshold := ← r.get "error_threshold" Toml.toNat32 default.errorThreshold
    toolCallTimeoutMs := ← r.get "tool_call_timeout_ms" Toml.toNat64 default.toolCallTimeoutMs
    model := ← r.get "model" Toml.toText default.model
    temperature := ← r.get "temperature" Toml.toBinary32 default.temperature
    maxTokens := ← r.get? "max_tokens" Toml.toNat32 }

end LoopConfig

/-- The levels of autonomy by name. -/
def AutonomyLevel.byName : List (String × AutonomyLevel) :=
  [readOnly, supervised, full].map fun level => (level.name, level)

namespace GovernanceConfig

/-- The entries of the section on governance. -/
def toToml (c : GovernanceConfig) : Toml :=
  .table [("autonomy", .text c.autonomy.name), ("denied_tools", .texts c.deniedTools),
    ("read_only_tools", .texts c.readOnlyTools),
    ("supervised_blocked_tools", .texts c.supervisedBlockedTools),
    ("rate_window_secs", .nat c.rateWindowSecs), ("rate_limits", .counts c.rateLimits)]

/-- Reads the section on governance. -/
def ofToml (t : Toml) : Option GovernanceConfig := do
  let r ← t.toRecord ["autonomy", "denied_tools", "read_only_tools", "supervised_blocked_tools",
    "rate_window_secs", "rate_limits"]
  let names := Toml.toList Toml.toText
  return {
    autonomy := ← r.get "autonomy" (Toml.toNamed AutonomyLevel.byName) default.autonomy
    deniedTools := ← r.get "denied_tools" names default.deniedTools
    readOnlyTools := ← r.get "read_only_tools" names default.readOnlyTools
    supervisedBlockedTools := ← r.get "supervised_blocked_tools" names default.supervisedBlockedTools
    rateWindowSecs := ← r.get "rate_window_secs" Toml.toNat64 default.rateWindowSecs
    rateLimits := ← r.get "rate_limits" (Toml.toKeyed Toml.toNat32) default.rateLimits }

end GovernanceConfig

namespace BudgetConfig

/-- The entries of the section on budgets. -/
def toToml (c : BudgetConfig) : Toml :=
  .table <|
    Toml.entryIfAny "max_llm_calls" .nat c.maxModelCalls ++
    Toml.entryIfAny "max_tool_calls" .nat c.maxToolCalls ++
    Toml.entryIfAny "max_tokens" .nat c.maxTokens ++
    Toml.entryIfAny "max_duration_secs" .nat c.maxDurationSecs ++
    if c.perTool.isEmpty then [] else Toml.entry "per_tool" (.counts c.perTool)

/-- Reads the section on budgets. -/
def ofToml (t : Toml) : Option BudgetConfig := do
  let r ← t.toRecord ["max_llm_calls", "max_tool_calls", "max_tokens", "max_duration_secs",
    "per_tool"]
  return {
    maxModelCalls := ← r.get? "max_llm_calls" Toml.toNat32
    maxToolCalls := ← r.get? "max_tool_calls" Toml.toNat32
    maxTokens := ← r.get? "max_tokens" Toml.toNat64
    maxDurationSecs := ← r.get? "max_duration_secs" Toml.toNat64
    perTool := ← r.get "per_tool" (Toml.toKeyed Toml.toNat32) [] }

end BudgetConfig

namespace TelemetryConfig

/-- The entries of the section on tracing. -/
def toToml (c : TelemetryConfig) : Toml :=
  .table [("tracing_enabled", .bool c.tracingEnabled), ("max_traces", .nat c.maxTraces)]

/-- Reads the section on tracing. -/
def ofToml (t : Toml) : Option TelemetryConfig := do
  let r ← t.toRecord ["tracing_enabled", "max_traces"]
  return {
    tracingEnabled := ← r.get "tracing_enabled" Toml.toBool default.tracingEnabled
    maxTraces := ← r.get "max_traces" Toml.toNat64 default.maxTraces }

end TelemetryConfig

namespace AppConfig

/-- The sections of a configuration. -/
def toToml (c : AppConfig) : TomlTable :=
  Toml.entry "agent_loop" c.agentLoop.toToml ++
  Toml.entry "governance" c.governance.toToml ++
  Toml.entryIfAny "budget" BudgetConfig.toToml c.budget ++
  Toml.entry "telemetry" c.telemetry.toToml

/-- Reads a configuration. -/
def ofToml (table : TomlTable) : Option AppConfig := do
  let r := Toml.Fields.named table
  return {
    agentLoop := ← r.get "agent_loop" LoopConfig.ofToml .default
    governance := ← r.get "governance" GovernanceConfig.ofToml .default
    budget := ← r.get? "budget" BudgetConfig.ofToml
    telemetry := ← r.get "telemetry" TelemetryConfig.ofToml .default }

end AppConfig

end AgentLoop
