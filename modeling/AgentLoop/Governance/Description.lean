import AgentLoop.Governance.Policy
import AgentLoop.Text.Quoted

/-!
# Descriptions of the gate and its audit trail

A description is a text for people that lists what there is.

* `Policy.describe` lists the rules of a gate, `AuditLog.describe` counts the entries of a trail.
* `AuditEvent.describe`, `AuditOutcome.describe` and `AuditEntry.describeDetails` describe the
  parts of an entry.
-/

namespace AgentLoop

/-- A named part of a description. -/
def describedField (name value : String) : String := name ++ ": " ++ value

/-- A described thing: its name and its parts. -/
def describedRecord (name : String) (fields : List (String × String)) : String :=
  name ++ " \x7b " ++ ", ".intercalate (fields.map fun (n, v) => describedField n v) ++ " \x7d"

namespace NameSet

/-- The names in quotes and braces. -/
def describe (names : NameSet) : String := Text.braced (names.map Text.quoted)

end NameSet

namespace Policy

/-- A span of milliseconds that is a whole number of seconds. -/
def describeWindow (millis : Nat) : String :=
  if millis = 0 then "0ns" else s!"{millis / 1000}s"

/-- The rules of a gate. -/
def describe (p : Policy) : String :=
  describedRecord "PolicyGate"
    [("denied", NameSet.describe p.denied), ("read_only", NameSet.describe p.readOnly),
      ("supervised_blocked", NameSet.describe p.supervisedBlocked),
      ("rate_limits",
        Text.braced (p.rateLimits.map fun (tool, n) => describedField (Text.quoted tool) (toString n))),
      ("window", describeWindow p.window)]

end Policy

/-- The number of entries of a trail that is handed on to some sinks. -/
def AuditLog.describe (log : AuditLog) (sinks : Nat) : String :=
  describedRecord "AuditLogger"
    [("entry_count", toString log.length), ("sink_count", toString sinks)]

/-- What an entry is about. -/
def AuditEvent.describe : AuditEvent → String
  | toolExecution name => describedRecord "ToolExecution" [("tool_name", Text.quoted name)]
  | toolDenied name => describedRecord "ToolDenied" [("tool_name", Text.quoted name)]

/-- How an audited call ended. -/
def AuditOutcome.describe : AuditOutcome → String
  | success => "Success"
  | failure => "Failure"
  | denied => "Denied"
  | cancelled => "Cancelled"

/-- The details of an entry. -/
def AuditEntry.describeDetails (e : AuditEntry) : String :=
  match e.details with
  | some details => s!"Some({Text.quoted details})"
  | none => "None"

end AgentLoop
