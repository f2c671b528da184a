import AgentLoop.Budget.Basic
import AgentLoop.Governance.Policy
import AgentLoop.Number.Integer
import AgentLoop.Run.LoopConfig
import AgentLoop.Trace.Recorder

/-!
# The configuration of the program

* `AppConfig` has four sections; without a budget section nothing is budgeted.
* `AppConfig.unfit?` is the first rule that a configuration breaks.
* `AppConfig.override` applies what the environment says.
* `ConfigError` lists how a configuration can fail to be had.
-/

namespace AgentLoop

/-- Whether and how much is traced. -/
structure TelemetryConfig where
  tracingEnabled : Bool
  /-- The number of traces kept. -/
  maxTraces : Nat
  deriving DecidableEq, Repr

/-- Everything is traced. -/
def TelemetryConfig.default : TelemetryConfig := ⟨true, TraceRecorder.defaultLimit⟩

instance : Inhabited TelemetryConfig := ⟨.default⟩

/-- The configuration of the program. -/
structure AppConfig where
  agentLoop : LoopConfig
  governance : GovernanceConfig
  budget : Option BudgetConfig
  telemetry : TelemetryConfig
  deriving DecidableEq, Repr

/-- The configuration of a program that was not configured. -/
def AppConfig.default : AppConfig := ⟨.default, .default, none, .default⟩

instance : Inhabited AppConfig := ⟨.default⟩

/-- A rule that a configuration breaks. -/
inductive Unfit where
  | noIterations
  | noToolCalls
  | noErrorThreshold
  | noTimeout
  | temperatureOutOfRange
  | noRateWindow
  | noTraces
  /-- The environment gives a number of turns that is none. -/
  | iterationsOverride (text : String)
  /-- The environment names no level of autonomy. -/
  | autonomyOverride (word : String)
  deriving DecidableEq, Repr

/-- The wording of a broken rule. -/
def Unfit.message : Unfit → String
  | noIterations => "agent_loop.max_iterations must be at least 1"
  | noToolCalls => "agent_loop.max_tool_calls_per_iteration must be at least 1"
  | noErrorThreshold => "agent_loop.error_threshold must be at least 1"
  | noTimeout => "agent_loop.tool_call_timeout_ms must be greater than 0"
  | temperatureOutOfRange => "agent_loop.temperature must be between 0.0 and 2.0"
  | noRateWindow => "governance.rate_window_secs must be greater than 0 when rate_limits are set"
  | noTraces => "telemetry.max_traces must be at least 1"
  | iterationsOverride text => s!"TOOLLOOP_MAX_ITERATIONS must be a positive integer, got '{text}'"
  | autonomyOverride word => s!"TOOLLOOP_AUTONOMY: {AutonomyLevel.unknownMessage word}"

/-- How a configuration can fail to be had. -/
inductive ConfigError where
  | unreadable (path reason : String)
  | malformed (path reason : String)
  /-- A rule is broken, for which there is a wording. -/
  | invalid (reason : String)
  deriving DecidableEq, Repr

/-- The wording of a failure. -/
def ConfigError.message : ConfigError → String
  | unreadable path reason => s!"Failed to read config file at {path}: {reason}"
  | malformed path reason => s!"Failed to parse config file at {path}: {reason}"
  | invalid reason => s!"Configuration validation failed: {reason}"

namespace LoopConfig

/-- The highest temperature. -/
def maxTemperature : Nat := 2

/-- The first rule that the section on runs breaks. -/
def unfit? (c : LoopConfig) : Option Unfit :=
  if c.maxIterations = 0 then some .noIterations
  else if c.maxToolCallsPerIteration = 0 then some .noToolCalls
  else if c.errorThreshold = 0 then some .noErrorThreshold
  else if c.toolCallTimeoutMs = 0 then some .noTimeout
  else if !c.temperature.within maxTemperature then some .temperatureOutOfRange
  else none

end LoopConfig

namespace AppConfig

/-- The first rule that a configuration breaks. -/
def unfit? (c : AppConfig) : Option Unfit :=
  match c.agentLoop.unfit? with
  | some unfit => some unfit
  | none =>
    if c.governance.rateWindowSecs = 0 ∧ c.governance.rateLimits ≠ [] then some .noRateWindow
    else if c.telemetry.maxTraces = 0 then some .noTraces
    else none

/-- The configuration, if it breaks no rule. -/
def checked (c : AppConfig) : Except ConfigError AppConfig :=
  match c.unfit? with
  | some unfit => .error (.invalid unfit.message)
  | none => .ok c

end AppConfig

/-- What the environment says about a name. -/
abbrev Environment := String → Option String

/-- The number of 32 bits that a text denotes: digits, after at most one plus sign. -/
def readCount? (text : String) : Option Nat :=
  (readUnsigned? text).filter fun n => n < 0x100000000

namespace AppConfig

/-- The configuration with the number of turns that the environment gives. -/
def overrideIterations (env : Environment) (c : AppConfig) : Except Unfit AppConfig :=
  match env "TOOLLOOP_MAX_ITERATIONS" with
  | none => .ok c
  | some text =>
    match readCount? (Text.trim text) with
    | none => .error (.iterationsOverride text)
    | some n => .ok { c with agentLoop := { c.agentLoop with maxIterations := n } }

/-- The configuration with the level of autonomy that the environment names. -/
def overrideAutonomy (env : Environment) (c : AppConfig) : Except Unfit AppConfig :=
  match env "TOOLLOOP_AUTONOMY" with
  | none => .ok c
  | some text =>
    match AutonomyLevel.read text with
    | .error word => .error (.autonomyOverride word)
    | .ok level => .ok { c with governance := { c.governance with autonomy := level } }

/-- The configuration with the model that the environment names. -/
def overrideModel (env : Environment) (c : AppConfig) : AppConfig :=
  match env "TOOLLOOP_MODEL" with
  | none => c
  | some model => { c with agentLoop := { c.agentLoop with model } }

/-- The configuration after all that the environment says.  When something in it cannot be read,
what was applied before stays. -/
def override (env : Environment) (c : AppConfig) : AppConfig × Option Unfit :=
  match c.overrideIterations env with
  | .error unfit => (c, some unfit)
  | .ok c =>
    match c.overrideAutonomy env with
    | .error unfit => (c, some unfit)
    | .ok c => (c.overrideModel env, none)

end AppConfig

end AgentLoop
