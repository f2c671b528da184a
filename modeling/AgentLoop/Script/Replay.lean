import AgentLoop.Ids
import AgentLoop.Run.Run
import AgentLoop.Script.Session

/-!
# Replaying a session

A replay is a run against the model and the tools of a script, under the configured governance and
budget.  The harmless tools of the script may be called at the lowest level of autonomy.

* `ReplayOptions` are the options that go before the configuration.
* `Session.controller` and `Session.invocation` make the run, `Session.replay` is the run.
-/

namespace AgentLoop

/-- What is asked of a replay besides the configuration. -/
structure ReplayOptions where
  /-- The first text is accepted as the answer. -/
  noConfirm : Bool
  maxIterations : Option Nat
  deriving DecidableEq, Repr

/-- The configuration of a replay, if it breaks no rule. -/
def AppConfig.withOptions (c : AppConfig) (options : ReplayOptions) : Except ConfigError AppConfig :=
  let agentLoop :=
    { c.agentLoop with
      doubleConfirmation := c.agentLoop.doubleConfirmation && !options.noConfirm
      maxIterations := options.maxIterations.getD c.agentLoop.maxIterations }
  { c with agentLoop }.checked

/-- The state of the world in a replay. -/
abbrev ReplayWorld := World Script PolicyState Spent Unit

namespace Session

/-- The governance of a replay. -/
def governance (s : Session) (config : AppConfig) : GovernanceConfig :=
  { config.governance with
    readOnlyTools := config.governance.readOnlyTools ++ s.readOnlyTools }

/-- What the run of a replay is made with. -/
def controller (s : Session) (config : AppConfig) (epoch : Timestamp) :
    Controller Script PolicyState Spent Unit :=
  { config := config.agentLoop
    model := Script.client
    gate := (Policy.ofConfig (s.governance config)).gate epoch
    budget := (config.budget.getD .unlimited).tracker
    executor := s.registry.executor
    resolver := Resolver.passThrough
    context := s.context config.governance.autonomy
    epoch }

/-- The run of a replay. -/
def invocation (s : Session) (epoch : Timestamp) (ids : IdSupply) : Invocation :=
  let messageId := fun position => ids (position + 2)
  { id := ids 0
    traceId := ids 1
    messageId
    seed := s.seed fun position => ⟨messageId position, epoch⟩
    tools := s.registry.definitions
    cancel := none }

/-- The world before a replay. -/
def world (s : Session) : ReplayWorld :=
  { now := 0
    model := .ofReplies s.replies
    gate := .empty
    budget := .fresh 0
    tools := () }

/-- A replay. -/
def replay (s : Session) (config : AppConfig) (epoch : Timestamp) (ids : IdSupply) :
    RunReport Script PolicyState Spent Unit :=
  (s.controller config epoch).run (s.invocation epoch ids) s.world

end Session

end AgentLoop
