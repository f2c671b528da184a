import AgentLoop.Governance.Policy
import AgentLoop.Wire.Field

/-!
# The JSON form of governance: contexts, decisions, audit entries and the configuration of the gate
-/

namespace AgentLoop

namespace AutonomyLevel

/-- A level is written as its name. -/
def toJson (l : AutonomyLevel) : Json := .str l.name

/-- Reads a level by its exact name. -/
def ofTree : Tree → Except ReadError AutonomyLevel :=
  Tree.named name [readOnly, supervised, full]

end AutonomyLevel

namespace ExecutionContext

/-- The fields of a context. -/
def toJson (c : ExecutionContext) : Json :=
  .obj <|
    Json.field "invocation_id" (.str c.invocationId) ++
    Json.field "caller" (.str c.caller) ++
    Json.field "autonomy" c.autonomy.toJson ++
    Json.fieldIfAny "allowed_tools" Json.strings c.allowedTools ++
    Json.fieldUnlessEmpty "metadata" .obj c.metadata

/-- Reads a context. -/
def ofTree : Tree → Except ReadError ExecutionContext :=
  Tree.record ["invocation_id", "caller", "autonomy", "allowed_tools", "metadata"] fun r =>
    ExecutionContext.mk <$> r.defaulted "invocation_id" Tree.toText "" <*>
      r.defaulted "caller" Tree.toText "" <*>
      r.defaulted "autonomy" AutonomyLevel.ofTree .supervised <*>
      r.defaulted "allowed_tools" (Tree.toOption Tree.toNameSet) none <*>
      r.defaulted "metadata" Tree.toJsonObject []

end ExecutionContext

namespace Authorization

/-- A decision names itself in the field `decision`. -/
def toJson : Authorization → Json
  | allowed => .obj [("decision", .str "allowed")]
  | denied reason => .obj [("decision", .str "denied"), ("reason", .str reason)]

/-- Reads a decision. -/
def ofTree (t : Tree) : Except ReadError Authorization := do
  let (read, rest) ← t.tagged "decision"
    [("allowed", fun u => (fun _ => allowed) <$> Tree.Untagged.nothing u),
      ("denied", fun u => denied <$> u.text "reason")]
  read rest

end Authorization

namespace AuditEvent

/-- An event names itself in the field `type`. -/
def toJson : AuditEvent → Json
  | toolExecution name => .obj [("type", .str "tool_execution"), ("tool_name", .str name)]
  | toolDenied name => .obj [("type", .str "tool_denied"), ("tool_name", .str name)]

/-- Reads an event. -/
def ofTree (t : Tree) : Except ReadError AuditEvent := do
  let (read, rest) ← t.tagged "type"
    [("tool_execution", fun u => toolExecution <$> Tree.Untagged.text "tool_name" u),
      ("tool_denied", fun u => toolDenied <$> u.text "tool_name")]
  read rest

end AuditEvent

namespace AuditOutcome

/-- The name of an outcome. -/
def name : AuditOutcome → String
  | success => "success"
  | failure => "failure"
  | denied => "denied"
  | cancelled => "cancelled"

/-- An outcome is written as its name. -/
def toJson (o : AuditOutcome) : Json := .str o.name

/-- Reads an outcome. -/
def ofTree : Tree → Except ReadError AuditOutcome :=
  Tree.named name [success, failure, denied, cancelled]

end AuditOutcome

namespace AuditEntry

/-- The fields of an entry; absent details are `null`. -/
def toJson (e : AuditEntry) : Json :=
  .obj [("timestamp", .timestamp e.timestamp), ("event", e.event.toJson), ("actor", .str e.actor),
    ("target", .str e.target), ("outcome", e.outcome.toJson),
    ("details", .ofOption .str e.details)]

/-- Reads an entry. -/
def ofTree : Tree → Except ReadError AuditEntry :=
  Tree.record ["timestamp", "event", "actor", "target", "outcome", "details"] fun r =>
    AuditEntry.mk <$> r.required "timestamp" Tree.toTimestamp <*>
      r.required "event" AuditEvent.ofTree <*> r.required "actor" Tree.toText <*>
      r.required "target" Tree.toText <*> r.required "outcome" AuditOutcome.ofTree <*>
      r.optional "details" Tree.toText

end AuditEntry

namespace GovernanceConfig

/-- The fields of a configuration. -/
def toJson (c : GovernanceConfig) : Json :=
  .obj [("autonomy", c.autonomy.toJson), ("denied_tools", .strings c.deniedTools),
    ("read_only_tools", .strings c.readOnlyTools),
    ("supervised_blocked_tools", .strings c.supervisedBlockedTools),
    ("rate_window_secs", .nat c.rateWindowSecs), ("rate_limits", .keyed .nat c.rateLimits)]

/-- Reads a configuration; a field that is missing has its default. -/
def ofTree : Tree → Except ReadError GovernanceConfig :=
  Tree.record ["autonomy", "denied_tools", "read_only_tools", "supervised_blocked_tools",
      "rate_window_secs", "rate_limits"] fun r =>
    GovernanceConfig.mk <$> r.defaulted "autonomy" AutonomyLevel.ofTree default.autonomy <*>
      r.defaulted "denied_tools" (Tree.toList Tree.toText) default.deniedTools <*>
      r.defaulted "read_only_tools" (Tree.toList Tree.toText) default.readOnlyTools <*>
      r.defaulted "supervised_blocked_tools" (Tree.toList Tree.toText)
        default.supervisedBlockedTools <*>
      r.defaulted "rate_window_secs" Tree.toNat64 default.rateWindowSecs <*>
      r.defaulted "rate_limits" (Tree.toKeyed Tree.toNat32) default.rateLimits

end GovernanceConfig

end AgentLoop
