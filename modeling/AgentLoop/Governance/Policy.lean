import AgentLoop.Governance.Audit
import AgentLoop.Governance.Context
import AgentLoop.Json.Printer

/-!
# The policy gate

The gate decides on every tool call by four rules, in this order: a tool on the deny list is
refused to everyone; the caller's allow-list must contain the tool; at the lowest level of autonomy
only tools that are known to be harmless may be called, and at the middle one none that need
escalation; and a tool with a rate limit is admitted only so many times within a window that slides
with the clock.

* `Policy` holds the rules, `Policy.verdict` applies them: a refusal says which rule it was.
* `PolicyState` holds the recent admissions of each tool and the audit trail.
* `Policy.authorize` and `Policy.audit` are the gate; every refusal and every audited call leaves
  an entry.
-/

namespace AgentLoop

/-- The answer to the question whether a call may be executed. -/
inductive Authorization where
  | allowed
  | denied (reason : String)
  deriving DecidableEq, Repr, Inhabited

/-- The call may be executed. -/
def Authorization.isAllowed : Authorization → Bool
  | allowed => true
  | denied _ => false

/-- The configuration of the gate. -/
structure GovernanceConfig where
  /-- The level at which a session runs. -/
  autonomy : AutonomyLevel
  deniedTools : List String
  readOnlyTools : List String
  supervisedBlockedTools : List String
  rateWindowSecs : Nat
  /-- The number of admissions of a tool within the window. -/
  rateLimits : Keyed Nat
  deriving DecidableEq, Repr

/-- The configuration of a gate that was not configured. -/
def GovernanceConfig.default : GovernanceConfig :=
  ⟨.supervised, [], [], ["shell", "file_write"], 60, []⟩

instance : Inhabited GovernanceConfig := ⟨.default⟩

/-- The rules of a gate; times are in milliseconds. -/
structure Policy where
  denied : NameSet
  readOnly : NameSet
  supervisedBlocked : NameSet
  rateLimits : Keyed Nat
  window : Nat
  deriving DecidableEq, Repr

/-- The rules that a configuration sets. -/
def Policy.ofConfig (c : GovernanceConfig) : Policy :=
  { denied := .ofList c.deniedTools
    readOnly := .ofList c.readOnlyTools
    supervisedBlocked := .ofList c.supervisedBlockedTools
    rateLimits := c.rateLimits
    window := c.rateWindowSecs * 1000 }

/-- The rule by which a call was refused. -/
inductive Refusal where
  | onDenyList
  | notOnAllowList
  | notReadOnly
  | needsEscalation
  | rateLimited (limit windowSecs : Nat)
  deriving DecidableEq, Repr

/-- The wording of a refusal. -/
def Refusal.message (tool : String) : Refusal → String
  | onDenyList => s!"tool '{tool}' is on the deny list"
  | notOnAllowList => s!"tool '{tool}' is not in the caller's allow-list"
  | notReadOnly => s!"tool '{tool}' is not permitted at read_only autonomy"
  | needsEscalation => s!"tool '{tool}' requires escalation at supervised autonomy"
  | rateLimited limit secs => s!"rate limit for '{tool}' reached ({limit} calls per {secs}s)"

/-- The times of the recent admissions of each tool, oldest first. -/
abbrev Admissions := Keyed (List Nat)

namespace Policy

variable (policy : Policy)

/-- The first of the rules that do not look at the clock by which a call is refused. -/
def staticRefusal? (tool : String) (context : ExecutionContext) (autonomy : AutonomyLevel) :
    Option Refusal :=
  if policy.denied.contains tool then some .onDenyList
  else if !context.permits tool then some .notOnAllowList
  else
    match autonomy with
    | .readOnly => if policy.readOnly.contains tool then none else some .notReadOnly
    | .supervised => if policy.supervisedBlocked.contains tool then some .needsEscalation else none
    | .full => none

/-- The admissions that are still inside the window; those before it are dropped from the front. -/
def inWindow (now : Nat) (times : List Nat) : List Nat :=
  times.dropWhile fun time => policy.window ≤ now - time

/-- The rate rule: the admissions after the call, with the refusal if it is refused.  The window
of a tool is only looked at when the tool has a limit. -/
def rate (admissions : Admissions) (tool : String) (now : Nat) : Option Refusal × Admissions :=
  match policy.rateLimits.get? tool with
  | none => (none, admissions)
  | some limit =>
    let recent := policy.inWindow now (admissions.getD tool [])
    if limit ≤ recent.length then
      (some (.rateLimited limit (policy.window / 1000)), admissions.insert tool recent)
    else (none, admissions.insert tool (recent ++ [now]))

/-- The decision on a call: the admissions after it, with the refusal if it is refused. -/
def verdict (admissions : Admissions) (tool : String) (context : ExecutionContext)
    (autonomy : AutonomyLevel) (now : Nat) : Option Refusal × Admissions :=
  match policy.staticRefusal? tool context autonomy with
  | some refusal => (some refusal, admissions)
  | none => policy.rate admissions tool now

end Policy

/-- What a gate remembers. -/
structure PolicyState where
  admissions : Admissions
  log : AuditLog
  deriving DecidableEq, Repr, Inhabited

/-- The memory of a new gate. -/
def PolicyState.empty : PolicyState := ⟨[], []⟩

/-- The actor of an audit entry: the caller, or the agent itself when the caller has no name. -/
def actorOf (context : ExecutionContext) : String :=
  if context.caller = "" then "agent" else context.caller

namespace Policy

/-- The entry about a refused call. -/
def deniedEntry (time : Timestamp) (tool : String) (context : ExecutionContext) (reason : String) :
    AuditEntry :=
  ⟨time, .toolDenied tool, actorOf context, tool, .denied, some reason⟩

/-- The details of an entry about an executed call: its arguments, and its error if it failed. -/
def details (arguments : Json) : ToolOutcome → String
  | .failure error => s!"{arguments.compact} → {error}"
  | _ => arguments.compact

/-- The entry about an executed call. -/
def executedEntry (time : Timestamp) (tool : String) (arguments : Json)
    (context : ExecutionContext) (outcome : ToolOutcome) : AuditEntry :=
  ⟨time, .toolExecution tool, actorOf context, tool, .ofTool outcome,
    some (details arguments outcome)⟩

/-- Decides on a call.  A refusal is audited. -/
def authorize (policy : Policy) (state : PolicyState) (tool : String) (context : ExecutionContext)
    (autonomy : AutonomyLevel) (now : Nat) (time : Timestamp) : Authorization × PolicyState :=
  match policy.verdict state.admissions tool context autonomy now with
  | (none, admissions) => (.allowed, { state with admissions })
  | (some refusal, admissions) =>
    let reason := refusal.message tool
    (.denied reason, ⟨admissions, state.log ++ [deniedEntry time tool context reason]⟩)

/-- Audits an executed call. -/
def audit (state : PolicyState) (tool : String) (arguments : Json)
    (context : ExecutionContext) (outcome : ToolOutcome) (time : Timestamp) : PolicyState :=
  { state with log := state.log ++ [executedEntry time tool arguments context outcome] }

end Policy

end AgentLoop
