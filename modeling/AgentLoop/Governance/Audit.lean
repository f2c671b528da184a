import AgentLoop.Time.Timestamp
import AgentLoop.Tool.Outcome

/-!
# Audit trail

Every governed tool call leaves an entry: one when it is denied, and one when it was executed,
given up or stopped by the budget after it had been authorized.

* `AuditEntry` is one entry, `AuditLog` the entries in order.
* `AuditOutcome.ofTool` is the outcome of an entry about an executed call.
-/

namespace AgentLoop

/-- What an entry is about. -/
inductive AuditEvent where
  /-- An authorized call ran, was given up, or was stopped by the budget. -/
  | toolExecution (toolName : String)
  /-- A call was refused before it ran. -/
  | toolDenied (toolName : String)
  deriving DecidableEq, Repr, Inhabited

/-- The tool that an entry is about. -/
def AuditEvent.toolName : AuditEvent → String
  | toolExecution name => name
  | toolDenied name => name

/-- How an audited call ended. -/
inductive AuditOutcome where
  | success
  | failure
  | denied
  | cancelled
  deriving DecidableEq, Repr, Inhabited

/-- The audited outcome of an executed call. -/
def AuditOutcome.ofTool : ToolOutcome → AuditOutcome
  | .success _ => success
  | .failure _ => failure
  | .cancelled => cancelled

/-- One entry of the audit trail. -/
structure AuditEntry where
  timestamp : Timestamp
  event : AuditEvent
  actor : String
  target : String
  outcome : AuditOutcome
  details : Option String
  deriving DecidableEq, Repr, Inhabited

/-- The audit trail, oldest entry first. -/
abbrev AuditLog := List AuditEntry

namespace AuditLog

/-- The entries with the given outcome. -/
def withOutcome (log : AuditLog) (outcome : AuditOutcome) : AuditLog :=
  log.filter fun entry => entry.outcome == outcome

end AuditLog

end AgentLoop
