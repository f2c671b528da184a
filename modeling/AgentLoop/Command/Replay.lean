import AgentLoop.Command.Files
import AgentLoop.Command.Report
import AgentLoop.Log.Journal
import AgentLoop.Script.Replay
import AgentLoop.Wire.Config
import AgentLoop.Wire.Session
import AgentLoop.Wire.Trace

/-!
# The replay command

* `Session.ofFile` reads the file of a script.
* `LoopTrace.summary` are the lines on the trace of a run.
* `Session.report` is the report of a replay.
-/

namespace AgentLoop

/-- The causes of the failure of a run. -/
def LoopError.causes (e : LoopError) : List String :=
  match e with
  | .model error => [e.message, error.message]
  | .transcript error => [e.message, error.message]
  | .cancelled _ => [e.message]

/-- The lines on the trace of a run: one on the whole, and one on each action. -/
def LoopTrace.summary (t : LoopTrace) : List String :=
  let outcome := t.outcome.getD "unknown"
  (s!"trace {t.id}: {t.steps.length} step(s), {t.actionCount} action(s) ({t.failedActionCount} failed), " ++
      s!"{t.totalTokens} token(s), outcome {outcome}") ::
    t.steps.flatMap fun step => step.actions.map fun action =>
      s!"  [{step.iteration}] {action.toolName} {action.status.name} ({action.durationMs}ms)"

/-- What is wrong with the text of a script: the fault of the text itself, with its place, or the
misfit. -/
def Session.faultMessage (text : String) (e : ReadError) : String :=
  match e with
  | .malformed cause =>
    match Json.read text with
    | .error fault => if fault.cause = cause then fault.message else cause.message
    | .ok _ => cause.message
  | e => e.message.getD "not a session script"

namespace Session

/-- The script in a file, or the causes of the failure to read it. -/
def ofFile (path : String) (file : FileContent) : Except (List String) Session :=
  match file with
  | .absent reason | .unreadable reason => .error [s!"failed to read session file {path}", reason]
  | .text text =>
    (Session.read text).mapError fun e =>
      [s!"failed to parse session file {path}", faultMessage text e]

/-- What is printed of how a run ended, and why the command failed if it did. -/
def endingReport : Ending → String × Option (List String)
  | .finished result => (result.toJson.pretty ++ "\n", none)
  | .failed (.cancelled progress) =>
    (progress.toJson.pretty ++ "\n",
      some [s!"replay cancelled after {progress.iterations} iteration(s)"])
  | .failed e => ("", some ("replay failed" :: e.causes))
  | .stalled => ("", none)

/-- The lines on the trace and the audit trail of a run. -/
def notes (config : TelemetryConfig) (epoch : Timestamp)
    (run : RunReport Script PolicyState Spent Unit) : List String :=
  let traces :=
    if config.tracingEnabled then
      ((TraceRecorder.ofLimit config.maxTraces).follow epoch run.journal).recent 1
    else []
  traces.flatMap LoopTrace.summary ++ [s!"audit entries: {run.world.gate.log.length}"]

/-- The report of a replay under a configuration that breaks no rule. -/
def report (s : Session) (config : AppConfig) (epoch : Timestamp) (ids : IdSupply) : Report :=
  let run := s.replay config epoch ids
  let (output, failure) := endingReport run.ending
  { output
    log := run.journal.records epoch (ids 0)
    notes := String.join ((notes config.telemetry epoch run).map fun l => l ++ "\n")
    failure
    took := run.world.now }

/-- The report of the replay command, once configuration and file were looked for. -/
def replayReport (config : Except ConfigError AppConfig) (path : String) (file : FileContent)
    (options : ReplayOptions) (epoch : Timestamp) (ids : IdSupply) : Report :=
  match config with
  | .error e => .failed [e.message]
  | .ok config =>
    match ofFile path file with
    | .error causes => .failed causes
    | .ok s =>
      match config.withOptions options with
      | .error e => .failed [e.message]
      | .ok config => s.report config epoch ids

end Session

end AgentLoop
