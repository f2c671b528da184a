import AgentLoop.Command.Files
import AgentLoop.Command.Report

/-!
# The commands about the configuration

* `Configuration.loadRecords` is what is logged when the configuration is looked for.
* `Configuration.validated`, `shown` and `path` report on the configuration.
* `Configuration.init` writes a configuration file that configures nothing.
-/

namespace AgentLoop.Configuration

/-- What is logged when a configuration file is looked for. -/
def loadRecords (time : Timestamp) (path : String) : FileContent → List LogRecord
  | .absent _ =>
    [{ time
       level := .info
       message := s!"No config file found at {path}, using defaults"
       fields := []
       target := "toolloop_config" }]
  | _ => []

/-- What is advisable but not observed. -/
def warnings (c : AppConfig) : List String :=
  (if 50 < c.agentLoop.maxIterations then
    ["max_iterations above 50; a looping model will burn tokens"] else []) ++
  (if c.budget.isNone then ["No [budget] section; only the iteration cap bounds a run"] else []) ++
  (if c.agentLoop.doubleConfirmation then []
   else ["Double confirmation disabled; first text answer is final"])

/-- The lines on a configuration that breaks no rule. -/
def summary (c : AppConfig) : List String :=
  let found := warnings c
  (if found.isEmpty then ["   ✅ All checks passed"] else "" :: found.map fun w => s!"   ⚠️  {w}") ++
    ["", s!"   Model:          {c.agentLoop.model}",
      s!"   Max iterations: {c.agentLoop.maxIterations}",
      s!"   Tool timeout:   {c.agentLoop.toolCallTimeoutMs}ms",
      s!"   Autonomy:       {c.governance.autonomy.name}",
      s!"   Denied tools:   {c.governance.deniedTools.length}",
      "   Tracing:        " ++ if c.telemetry.tracingEnabled then "on" else "off"]

/-- Lines of text. -/
def lines (ls : List String) : String := String.join (ls.map fun l => l ++ "\n")

/-- The report of the check of a configuration. -/
def validated (config : Except ConfigError AppConfig) : Report :=
  let opening := "🔍 Validating configuration..."
  match config with
  | .error e =>
    { Report.printed (lines [opening, s!"   ❌ Config error: {e.message}"]) with
      failure := some [e.message] }
  | .ok c => .printed (lines (opening :: "   ✅ Config parsed successfully" :: summary c))

/-- The report that shows a configuration. -/
def shown (config : Except ConfigError AppConfig) : Report :=
  match config with
  | .error e => .failed ["Failed to load config", e.message]
  | .ok c =>
    match c.write with
    | some text => .printed (text ++ "\n")
    | none => .failed ["out-of-range value for u64 type"]

/-- The report on the path of the configuration file. -/
def path (target : String) : Report := .printed (target ++ "\n")

/-- Makes the directory that a path lies in; the answer is the causes of the failure. -/
def makeRoom {m : Type → Type} [Monad m] (files : Files m) (target : String) :
    m (Option (List String)) := do
  match Path.parent? target with
  | none => return none
  | some directory =>
    let reason ← files.makeDirectory directory
    return reason.map fun reason => [s!"failed to create {directory}", reason]

/-- Writes a configuration file, unless there is something at its path. -/
def init {m : Type → Type} [Monad m] (files : Files m) (target : String) : m Report := do
  match ← files.content target with
  | .absent _ =>
    match ← makeRoom files target with
    | some causes => return .failed causes
    | none =>
      match ← files.write target AppConfig.defaultText with
      | some reason => return .failed [s!"failed to write {target}", reason]
      | none => return .printed s!"✅ Wrote default config to {target}\n"
  | _ => return .failed [s!"{target} already exists; not overwriting"]

end AgentLoop.Configuration
