import AgentLoop.Command.Configuration
import AgentLoop.Command.Line
import AgentLoop.Command.Replay
import AgentLoop.Log.Filter

/-!
# Carrying out a command

* `CommandLine.run` carries out a command line with the files and the environment at hand.
* `CommandLine.filter` says which records of its log are kept.
-/

namespace AgentLoop.CommandLine

/-- The path of the configuration file. -/
def configFile (l : CommandLine) (env : Environment) : String :=
  l.config.getD (usualConfigPath env)

/-- Carries out a command line that was given at some point in time. -/
def run {m : Type → Type} [Monad m] (l : CommandLine) (files : Files m) (env : Environment)
    (time : Timestamp) (ids : IdSupply) : m Report := do
  let path := l.configFile env
  match l.command with
  | .configPath => return Configuration.path path
  | .initConfig => Configuration.init files path
  | command =>
    let file ← files.content path
    let config := AppConfig.load env path file
    let log := Configuration.loadRecords time path file
    match command with
    | .replay session options =>
      let script ← files.content session
      return (Session.replayReport config session script options time ids).after log
    | .validateConfig => return (Configuration.validated config).after log
    | _ => return (Configuration.shown config).after log

/-- The records that are kept: those that the environment asks for, or all up to a verbosity. -/
def filter (l : CommandLine) (env : Environment) : LogFilter :=
  ((env "RUST_LOG").bind LogFilter.read?).getD (.ofVerbosity (if l.verbose then 4 else 3))

/-- What is printed of the log. -/
def logText (l : CommandLine) (env : Environment) (log : List LogRecord) : String :=
  let line :=
    match l.logFormat with
    | .json => LogRecord.jsonLine
    | .text => LogRecord.textLine
  String.join ((log.filter (l.filter env).keeps).map line)

/-- What is printed beside the result. -/
def sideText (l : CommandLine) (env : Environment) (r : Report) : String :=
  l.logText env r.log ++ r.notes ++ ((r.failure.map Report.failureText).getD "")

/-- The number with which the program ends. -/
def exitCode (r : Report) : Nat := if r.failure.isSome then 1 else 0

end AgentLoop.CommandLine

namespace AgentLoop

/-- The number with which the program ends when a command line is not carried out. -/
def LineStop.exitCode : LineStop → Nat
  | help | version => 0
  | refused => 2

end AgentLoop
